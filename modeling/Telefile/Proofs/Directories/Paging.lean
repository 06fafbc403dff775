import Telefile.Proofs.Directories.Listings
import Telefile.Proofs.Samples

/-!
# Paging loses nothing and repeats nothing

A directory is read in pages. A page is filled with records from a base on for as long as the next
one fits, and says where the next page begins. So pages that are read one behind the other make up
the listing, and each of them gets on, as long as it has room for one record.

* `Service.LongestRun` — what is on a page: `fitting_longest`, `pageOf_cases`;
* `Session.pageAnswer_pageOf` — the answer about a page, in its three cases;
* `Paged` — pages read one behind the other: `Paged.read`, `Paged.exists_last`;
* **`Session.directory_paging`** — both for the directory behind a descriptor.
-/

namespace Telefile

namespace Service

/-! ## 1. What is on a page -/

/-- `page` is the longest run from the front of `es` whose records fit the budget. -/
structure LongestRun (budget : Nat) (es page : List DirEntry) : Prop where
  run : page <+: es
  fits : recordBytes page ≤ budget
  longest : ∀ run, run <+: es → recordBytes run ≤ budget → run <+: page

theorem recordBytes_cons (e : DirEntry) (es : List DirEntry) :
    recordBytes (e :: es) = e.recordSize + recordBytes es := rfl

theorem recordBytes_append (es es' : List DirEntry) :
    recordBytes (es ++ es') = recordBytes es + recordBytes es' := by
  induction es with
  | nil => exact (Nat.zero_add _).symm
  | cons e es ih =>
    rw [List.cons_append, recordBytes_cons, recordBytes_cons, ih, Nat.add_assoc]

theorem recordBytes_pos {es : List DirEntry} (h : es ≠ []) : 0 < recordBytes es := by
  obtain ⟨e, es, rfl⟩ := List.exists_cons_of_ne_nil h
  have hsize := e.recordSize_pos
  rw [recordBytes_cons]
  omega

/-- What a run needs is not more than what the whole needs. -/
theorem recordBytes_run_le {run es : List DirEntry} (h : run <+: es) :
    recordBytes run ≤ recordBytes es := by
  obtain ⟨rest, rfl⟩ := h
  rw [recordBytes_append]
  exact Nat.le_add_right _ _

theorem recordBytes_drop_le (es : List DirEntry) (n : Nat) :
    recordBytes (es.drop n) ≤ recordBytes es := by
  have hsplit := recordBytes_append (es.take n) (es.drop n)
  rw [List.take_append_drop] at hsplit
  omega

/-- **A page holds the longest run that fits.** -/
theorem fitting_longest (budget : Nat) (es : List DirEntry) :
    LongestRun budget es (fitting budget es) := by
  induction es generalizing budget with
  | nil =>
    have hnil : fitting budget [] = [] := rfl
    rw [hnil]
    exact ⟨List.prefix_rfl, Nat.zero_le budget, fun _ hrun _ => hrun⟩
  | cons e es ih =>
    by_cases hover : budget < e.recordSize
    · have hnil : fitting budget (e :: es) = [] := if_pos hover
      rw [hnil]
      refine ⟨List.nil_prefix, Nat.zero_le budget, fun run hrun hfits => ?_⟩
      rcases List.prefix_cons_iff.mp hrun with rfl | ⟨more, rfl, -⟩
      · exact List.nil_prefix
      · rw [recordBytes_cons] at hfits
        omega
    · have hcons : fitting budget (e :: es) = e :: fitting (budget - e.recordSize) es :=
        if_neg hover
      obtain ⟨hrun, hfits, hlongest⟩ := ih (budget - e.recordSize)
      rw [hcons]
      refine ⟨(List.prefix_cons_inj e).mpr hrun, ?_, fun run hrun hfits => ?_⟩
      · rw [recordBytes_cons]
        omega
      · rcases List.prefix_cons_iff.mp hrun with rfl | ⟨more, rfl, hmore⟩
        · exact List.nil_prefix
        · rw [recordBytes_cons] at hfits
          have hleft : recordBytes more ≤ budget - e.recordSize := by omega
          exact (List.prefix_cons_inj e).mpr (hlongest more hmore hleft)

/-- Nothing is on a page if nothing is left, or if the next record does not fit. -/
theorem fitting_eq_nil_iff {budget : Nat} {es : List DirEntry} :
    fitting budget es = [] ↔ ∀ e, es.head? = some e → budget < e.recordSize := by
  cases es with
  | nil =>
    refine ⟨fun _ e he => ?_, fun _ => rfl⟩
    cases he
  | cons e es =>
    unfold fitting
    by_cases hover : budget < e.recordSize
    · rw [if_pos hover]
      refine ⟨fun _ e' he => ?_, fun _ => rfl⟩
      cases he
      exact hover
    · rw [if_neg hover]
      refine ⟨fun h => ?_, fun h => absurd (h e rfl) hover⟩
      cases h

/-- A page is at the end of the directory, has no room for the next record, or gets on. -/
theorem pageOf_cases (all : List DirEntry) (nbytes budget base : Nat) :
    (all.length ≤ base ∧ pageOf all nbytes budget base = .ok ⟨0, base, []⟩) ∨
    (∃ e what, all[base]? = some e ∧ budget < e.recordSize ∧
      fitting budget (all.drop base) = [] ∧
      pageOf all nbytes budget base = .error (.invalidArgument what)) ∨
    (∃ e, all[base]? = some e ∧ e.recordSize ≤ budget ∧ fitting budget (all.drop base) ≠ [] ∧
      pageOf all nbytes budget base = .ok
        ⟨recordBytes (fitting budget (all.drop base)),
          base + (fitting budget (all.drop base)).length, fitting budget (all.drop base)⟩) := by
  unfold pageOf
  dsimp only
  rcases Nat.lt_or_ge base all.length with hlt | hge
  · have hget : all[base]? = some all[base] := List.getElem?_eq_getElem hlt
    have hhead : (all.drop base).head? = some all[base] := by
      rw [List.head?_drop]
      exact hget
    have hsome : all.drop base ≠ [] := by
      intro hnil
      rw [hnil] at hhead
      cases hhead
    by_cases hover : budget < all[base].recordSize
    · have hnil : fitting budget (all.drop base) = [] := by
        refine fitting_eq_nil_iff.mpr fun e he => ?_
        cases hhead.symm.trans he
        exact hover
      rw [if_pos ⟨hnil, hsome⟩]
      exact .inr (.inl ⟨_, _, hget, hover, hnil, rfl⟩)
    · have hpage : fitting budget (all.drop base) ≠ [] := fun hnil =>
        hover (fitting_eq_nil_iff.mp hnil _ hhead)
      rw [if_neg fun hboth => hpage hboth.1]
      exact .inr (.inr ⟨_, hget, Nat.le_of_not_lt hover, hpage, rfl⟩)
  · have hnil : all.drop base = [] := List.drop_eq_nil_of_le hge
    rw [hnil, if_neg fun hboth => hboth.2 rfl]
    exact .inl ⟨hge, rfl⟩

/-- A page says how many bytes its records have, which is no more than a transfer. -/
theorem listDir_bytes {s : Service} {fd : Fd} {nbytes base : Nat} {page : DirPage}
    (h : s.listDir fd nbytes base = .ok page) :
    page.bytes = recordBytes page.entries ∧ page.bytes ≤ s.settings.maxTransfer := by
  unfold listDir at h
  split at h
  · cases h
  · cases h
  · next p _ =>
    split at h
    · cases h
    · next all _ =>
      rcases pageOf_cases all nbytes (min nbytes s.settings.maxTransfer) base with
        ⟨-, hpage⟩ | ⟨_, _, -, -, -, hpage⟩ | ⟨_, -, -, -, hpage⟩
      · cases h.symm.trans hpage
        exact ⟨rfl, Nat.zero_le _⟩
      · cases h.symm.trans hpage
      · cases h.symm.trans hpage
        have hfits := (fitting_longest (min nbytes s.settings.maxTransfer) (all.drop base)).fits
        exact ⟨rfl, Nat.le_trans hfits (Nat.min_le_right _ _)⟩

/-- The directory behind a descriptor is listed as `all`. -/
def ReadsAs (s : Service) (fd : Fd) (all : List DirEntry) : Prop :=
  ∃ p, s.table.lookup fd = some (.directory p) ∧ listing s.host p = .ok all

theorem listDir_of_readsAs {s : Service} {fd : Fd} {all : List DirEntry} (h : s.ReadsAs fd all)
    (nbytes base : Nat) :
    s.listDir fd nbytes base = pageOf all nbytes (min nbytes s.settings.maxTransfer) base := by
  obtain ⟨p, hopen, hlisting⟩ := h
  unfold listDir openFile
  rw [hopen]
  dsimp only
  rw [hlisting]

end Service

/-! ## 2. The answer about a page -/

namespace Session

open Service

/-- **The answer about a page**: the longest run that fits, its bytes and the base behind it; the
base and 0 at the end; the base and -22 where the next record does not fit. -/
theorem pageAnswer_pageOf (all : List DirEntry) (nbytes budget base : Nat) :
    let answer := pageAnswer base (pageOf all nbytes budget base)
    ∃ page, LongestRun budget (all.drop base) page ∧
      (answer = if page = [] ∧ base < all.length then (-22, base, [])
        else ((recordBytes page : Int), base + page.length, page)) ∧
      (answer.1 = 0 ↔ all.length ≤ base) ∧ (all.length ≤ base → answer = (0, base, [])) ∧
      (answer.1 = -22 ↔ ∃ e, all[base]? = some e ∧ budget < e.recordSize) := by
  intro answer
  refine ⟨_, fitting_longest budget (all.drop base), ?_⟩
  rcases pageOf_cases all nbytes budget base with ⟨hend, hpage⟩ |
    ⟨e, what, hget, hover, hnil, hpage⟩ | ⟨e, hget, hle, hsome, hpage⟩
  · -- the end
    have hanswer : answer = (0, base, []) := congrArg (pageAnswer base) hpage
    have hnil : fitting budget (all.drop base) = [] := by
      rw [List.drop_eq_nil_of_le hend]
      rfl
    have hnone : ¬ ∃ e, all[base]? = some e ∧ budget < e.recordSize := by
      rintro ⟨e, he, -⟩
      rw [List.getElem?_eq_none hend] at he
      cases he
    have hdiffers : ¬ (0 : Int) = -22 := by decide
    rw [hanswer, hnil, if_neg fun hboth => Nat.not_lt.mpr hend hboth.2]
    exact ⟨rfl, iff_of_true rfl hend, fun _ => rfl, iff_of_false hdiffers hnone⟩
  · -- no room
    have hanswer : answer = (-22, base, []) := congrArg (pageAnswer base) hpage
    obtain ⟨hlt, -⟩ := List.getElem?_eq_some_iff.mp hget
    have hinside := Nat.not_le.mpr hlt
    have hdiffers : ¬ (-22 : Int) = 0 := by decide
    rw [hanswer, hnil, if_pos ⟨rfl, hlt⟩]
    exact ⟨rfl, iff_of_false hdiffers hinside, fun hend => absurd hend hinside,
      iff_of_true rfl ⟨e, hget, hover⟩⟩
  · -- a page that gets on
    have hanswer : answer = ((recordBytes (fitting budget (all.drop base)) : Int),
        base + (fitting budget (all.drop base)).length, fitting budget (all.drop base)) :=
      congrArg (pageAnswer base) hpage
    obtain ⟨hlt, -⟩ := List.getElem?_eq_some_iff.mp hget
    have hinside := Nat.not_le.mpr hlt
    have hpos := recordBytes_pos hsome
    have hroom : ¬ ∃ e, all[base]? = some e ∧ budget < e.recordSize := by
      rintro ⟨e', he', hover⟩
      cases hget.symm.trans he'
      exact Nat.not_lt.mpr hle hover
    rw [hanswer, if_neg fun hboth => hsome hboth.1]
    refine ⟨rfl, iff_of_false ?_ hinside, fun hend => absurd hend hinside, iff_of_false ?_ hroom⟩
    · dsimp only
      omega
    · dsimp only
      omega

/-- The answer to a client who asks for a page of a directory that is listed as `all`. -/
theorem answer_of_readsAs {s : Service} {fd : Fd} {all : List DirEntry} (h : s.ReadsAs fd all)
    (c : Session) (nbytes base : Nat) :
    (c.listDir s fd nbytes base).answer =
      pageAnswer base (pageOf all nbytes (min nbytes s.settings.maxTransfer) base) := by
  rw [answer_listDir, listDir_of_readsAs h]

end Session

/-! ## 3. One page behind the other -/

/-- Pages of `all` that are read one behind the other, the first at its front. A page is empty only
where nothing is left. -/
structure Paged (all : List DirEntry) (base : Nat → Nat) (page : Nat → List DirEntry) : Prop where
  start : base 0 = 0
  run : ∀ k, page k <+: all.drop (base k)
  next : ∀ k, base (k + 1) = base k + (page k).length
  gets_on : ∀ k, base k < all.length → page k ≠ []

namespace Paged

variable {all : List DirEntry} {base : Nat → Nat} {page : Nat → List DirEntry}

/-- A page ends where `all` does at the latest. -/
theorem next_le (h : Paged all base page) {k : Nat} (hle : base k ≤ all.length) :
    base (k + 1) ≤ all.length := by
  have hlength := (h.run k).length_le
  rw [List.length_drop] at hlength
  rw [h.next k]
  omega

/-- **What has been read is the front of `all`.** -/
theorem read (h : Paged all base page) (k : Nat) :
    base k ≤ all.length ∧ (List.range k).flatMap page = all.take (base k) := by
  induction k with
  | zero =>
    rw [h.start]
    exact ⟨Nat.zero_le _, rfl⟩
  | succ k ih =>
    obtain ⟨hle, hread⟩ := ih
    refine ⟨h.next_le hle, ?_⟩
    have hpage : (all.drop (base k)).take (page k).length = page k :=
      (List.prefix_iff_eq_take.mp (h.run k)).symm
    rw [List.range_succ, List.flatMap_append, List.flatMap_singleton, hread, h.next k,
      List.take_add, hpage]

/-- A page that is not the last one gets on. -/
theorem lt_next (h : Paged all base page) {k : Nat} (hlt : base k < all.length) :
    base k < base (k + 1) := by
  have hpos := List.length_pos_iff.mpr (h.gets_on k hlt)
  rw [h.next k]
  omega

/-- From every page on, the end is reached. -/
theorem exists_end (h : Paged all base page) (left : Nat) :
    ∀ k, base k ≤ all.length → all.length - base k ≤ left →
      ∃ K, k ≤ K ∧ K ≤ k + left ∧ base K = all.length ∧
        ∀ j, k ≤ j → j < K → base j < all.length := by
  -- the induction is on what is left to read, since every page takes something of it
  induction left with
  | zero =>
    intro k hle hleft
    refine ⟨k, Nat.le_refl k, Nat.le_refl k, by omega, fun j hkj hjk => ?_⟩
    exact absurd hjk (Nat.not_lt.mpr hkj)
  | succ left ih =>
    intro k hle hleft
    rcases Nat.lt_or_eq_of_le hle with hlt | hend
    · have hnext := h.lt_next hlt
      have hsmaller : all.length - base (k + 1) ≤ left := by omega
      obtain ⟨K, hkK, hKle, hend, hbefore⟩ := ih (k + 1) (h.next_le hle) hsmaller
      refine ⟨K, by omega, by omega, hend, fun j hkj hjK => ?_⟩
      rcases Nat.lt_or_eq_of_le hkj with hlater | rfl
      · exact hbefore j hlater hjK
      · exact hlt
    · refine ⟨k, Nat.le_refl k, by omega, hend, fun j hkj hjk => ?_⟩
      exact absurd hjk (Nat.not_lt.mpr hkj)

/-- **The end is reached** after as many pages as there are entries, at the latest. -/
theorem exists_last (h : Paged all base page) :
    ∃ K ≤ all.length, (List.range K).flatMap page = all ∧ (∀ k < K, base k < all.length) ∧
      ∀ k, K ≤ k → base k = all.length := by
  have hstart : all.length - base 0 ≤ all.length := Nat.sub_le _ _
  obtain ⟨K, -, hKle, hend, hbefore⟩ := h.exists_end all.length 0 (h.read 0).1 hstart
  rw [Nat.zero_add] at hKle
  refine ⟨K, hKle, ?_, fun k hk => hbefore k (Nat.zero_le k) hk, fun k hk => ?_⟩
  · rw [(h.read K).2, hend, List.take_length]
  · obtain ⟨more, rfl⟩ := Nat.exists_eq_add_of_le hk
    clear hk
    induction more with
    | zero => exact hend
    | succ more ih =>
      have hlow := h.next (K + more)
      have hhigh := (h.read (K + (more + 1))).1
      rw [← Nat.add_assoc] at hhigh ⊢
      omega

end Paged

/-! ## 4. The directory of one file -/

theorem Host.lookup_dot_fourBytes : fourBytes.lookup .follow (Path.ofString ".") =
    .ok ([Utf8.encode "srv"], .directory .newDirectory ⟨0, 0⟩) := by
  have hpath : Path.ofString "." = ⟨Path.dot⟩ := by decide
  have hdir : fourBytes.entryAt? [Utf8.encode "srv"] =
      some (.directory .newDirectory ⟨0, 0⟩) := rfl
  have hpass : fourBytes.pass [Utf8.encode "srv"] = .ok () := rfl
  have hw : fourBytes.Walks .follow maxLinks [Utf8.encode "srv"] false [Path.dot]
      (.found [Utf8.encode "srv"] (.directory .newDirectory ⟨0, 0⟩)) := .dot hpass (.done hdir)
  rw [hpath]
  exact lookup_eq_ok_iff.mpr (arrive_eq_ok_iff.mpr ⟨by decide, hw⟩)

theorem Host.listed_fourBytes : fourBytes.listed [Utf8.encode "srv"] =
    [⟨".", .directory⟩, ⟨"..", .directory⟩, ⟨"f", .file⟩] := by
  have hfound : (fourBytes.entries.pairs.filterMap fun x =>
      ((Place.ofLocation [Utf8.encode "srv"]).nameIn? x.1).map fun n => (n, x.2)) =
        [(Utf8.encode "f", Entry.file 0)] := by decide
  have hchildren : fourBytes.children [Utf8.encode "srv"] = [(Utf8.encode "f", .file 0)] := by
    unfold children
    exact (congrArg (fun found => found.mergeSort fun a b => decide (a.1 ≤ b.1)) hfound).trans
      (List.mergeSort_singleton _)
  unfold listed Service.sortEntries
  rw [hchildren, List.map_singleton, List.mergeSort_singleton, Utf8.decodeLossy_encode]
  rfl

/-- The working directory of the host with one file, behind a descriptor. -/
theorem Service.readsAs_fourBytes {s : Service} {fd : Fd} (hhost : s.host = Host.fourBytes)
    (hopen : s.table.lookup fd = some (.directory (Path.ofString "."))) :
    s.ReadsAs fd [⟨".", .directory⟩, ⟨"..", .directory⟩, ⟨"f", .file⟩] := by
  refine ⟨_, hopen, Service.listing_eq_ok_iff.mpr ⟨[Utf8.encode "srv"], .newDirectory, ⟨0, 0⟩, ?_⟩⟩
  rw [hhost]
  exact ⟨Host.lookup_dot_fourBytes, rfl, Host.listed_fourBytes.symm⟩

/-! ## 5. Reading a directory -/

namespace Session

open Service

/-- Answers about one page behind the other, while the directory is listed as `all` and each page
has room for the next record. -/
theorem paged_of_answers {s : Nat → Service} {fd : Fd} {all : List DirEntry}
    (hreads : ∀ k, (s k).ReadsAs fd all) (c : Nat → Session) (nbytes base : Nat → Nat)
    (hstart : base 0 = 0)
    (hnext : ∀ k, base (k + 1) = ((c k).listDir (s k) fd (nbytes k) (base k)).answer.2.1)
    (hroom : ∀ k e, all[base k]? = some e →
      e.recordSize ≤ min (nbytes k) (s k).settings.maxTransfer) :
    Paged all base (fun k => ((c k).listDir (s k) fd (nbytes k) (base k)).answer.2.2) ∧
      ∀ k, ((c k).listDir (s k) fd (nbytes k) (base k)).answer.1 =
        recordBytes ((c k).listDir (s k) fd (nbytes k) (base k)).answer.2.2 := by
  have hpage : ∀ k, ∃ page, ((c k).listDir (s k) fd (nbytes k) (base k)).answer =
      ((recordBytes page : Int), base k + page.length, page) ∧
      page <+: all.drop (base k) ∧ (base k < all.length → page ≠ []) := by
    intro k
    rw [answer_of_readsAs (hreads k)]
    rcases pageOf_cases all (nbytes k) (min (nbytes k) (s k).settings.maxTransfer) (base k) with
      ⟨hend, hpage⟩ | ⟨e, what, hget, hover, -, -⟩ | ⟨e, -, -, hsome, hpage⟩
    · rw [hpage]
      exact ⟨[], rfl, List.nil_prefix, fun hlt => absurd hend (Nat.not_le.mpr hlt)⟩
    · exact absurd hover (Nat.not_lt.mpr (hroom k e hget))
    · rw [hpage]
      exact ⟨_, rfl, (fitting_longest _ _).run, fun _ => hsome⟩
  refine ⟨⟨hstart, fun k => ?_, fun k => ?_, fun k => ?_⟩, fun k => ?_⟩
  · obtain ⟨page, hanswer, hrun, -⟩ := hpage k
    rw [hanswer]
    exact hrun
  · obtain ⟨page, hanswer, -, -⟩ := hpage k
    rw [hnext, hanswer]
  · obtain ⟨page, hanswer, -, hsome⟩ := hpage k
    rw [hanswer]
    exact hsome
  · obtain ⟨page, hanswer, -, -⟩ := hpage k
    rw [hanswer]

/-- **Paging loses nothing and repeats nothing.** Behind a descriptor of a directory that may be
read, with the listing `all`: every page holds the longest run from its base on whose records fit
the budget, and none of the sums on the way is more than the records of `all` need, none of the
bases lies behind its end. The answer is 0 at the end only, and -22 only where the next record does
not fit. So whoever follows the bases from 0 on, while the directory is listed so and each page has
room for the next record, gets every entry of `all` once and in order, and then 0. -/
theorem directory_paging {s : Service} {fd : Fd} {p : Path} {l : Location} {perms : Perms}
    {t : Timestamp} (hopen : s.table.lookup fd = some (.directory p))
    (hl : s.host.lookup .follow p = .ok (l, .directory perms t))
    (hread : perms.allows .read = true) :
    ∃ all, s.host.ListsAs l all ∧ s.ReadsAs fd all ∧
      (∀ (c : Session) (nbytes base : Nat),
        let budget := min nbytes s.settings.maxTransfer
        let answer := (c.listDir s fd nbytes base).answer
        (∃ page, LongestRun budget (all.drop base) page ∧
          answer = if page = [] ∧ base < all.length then (-22, base, [])
            else ((recordBytes page : Int), base + page.length, page)) ∧
        (answer.1 = 0 ↔ all.length ≤ base) ∧ (all.length ≤ base → answer = (0, base, [])) ∧
        (answer.1 = -22 ↔ ∃ e, all[base]? = some e ∧ budget < e.recordSize) ∧
        ∀ run, run <+: all.drop base →
          recordBytes run ≤ recordBytes all ∧ base + run.length ≤ max base all.length) ∧
      ∀ (s' : Nat → Service) (c : Nat → Session) (nbytes base : Nat → Nat),
        let answer k := ((c k).listDir (s' k) fd (nbytes k) (base k)).answer
        (∀ k, (s' k).ReadsAs fd all) → base 0 = 0 → (∀ k, base (k + 1) = (answer k).2.1) →
        (∀ k e, all[base k]? = some e →
          e.recordSize ≤ min (nbytes k) (s' k).settings.maxTransfer) →
        ∃ K ≤ all.length, (List.range K).flatMap (fun k => (answer k).2.2) = all ∧
          (∀ k < K, 0 < (answer k).1) ∧ ∀ k, K ≤ k → answer k = (0, all.length, []) := by
  have hreads : s.ReadsAs fd (s.host.listed l) :=
    ⟨p, hopen, listing_eq_ok_iff.mpr ⟨l, perms, t, hl, hread, rfl⟩⟩
  refine ⟨s.host.listed l, s.host.listsAs_listed l, hreads, ?_, ?_⟩
  · intro c nbytes base budget answer
    have hanswer : answer = pageAnswer base (pageOf (s.host.listed l) nbytes budget base) :=
      answer_of_readsAs hreads c nbytes base
    obtain ⟨page, hlongest, heq, hzero, hend, hroom⟩ :=
      pageAnswer_pageOf (s.host.listed l) nbytes budget base
    rw [← hanswer] at heq hzero hend hroom
    refine ⟨⟨page, hlongest, heq⟩, hzero, hend, hroom, fun run hrun => ⟨?_, ?_⟩⟩
    · exact Nat.le_trans (recordBytes_run_le hrun) (recordBytes_drop_le _ base)
    · have hlength := hrun.length_le
      rw [List.length_drop] at hlength
      omega
  · intro s' c nbytes base answer hsame hstart hnext hroom
    obtain ⟨hpaged, hbytes⟩ := paged_of_answers hsame c nbytes base hstart hnext hroom
    obtain ⟨K, hK, hall, hbefore, hafter⟩ := hpaged.exists_last
    refine ⟨K, hK, hall, fun k hk => ?_, fun k hk => ?_⟩
    · have hpos := recordBytes_pos (hpaged.gets_on k (hbefore k hk))
      have hcode : (answer k).1 = recordBytes (answer k).2.2 := hbytes k
      rw [hcode]
      exact Int.natCast_pos.mpr hpos
    · have hend : (s.host.listed l).length ≤ base k := Nat.le_of_eq (hafter k hk).symm
      obtain ⟨-, -, -, -, hlast, -⟩ :=
        pageAnswer_pageOf (s.host.listed l) (nbytes k)
          (min (nbytes k) (s' k).settings.maxTransfer) (base k)
      have hanswer : answer k = _ := answer_of_readsAs (hsame k) (c k) (nbytes k) (base k)
      rw [hanswer, hlast hend, hafter k hk]

/-- A directory with one file: 23 bytes hold no record, and pages of 48 bytes hold two of them. -/
theorem directory_paging_fourBytes :
    let s : Service := { (Service.start .default Host.fourBytes).answer with
      table := DescriptorTable.new.insert 1001 (.directory (Path.ofString ".")) }
    let c : Session := ⟨1, []⟩
    let answer k := (c.listDir s 1001 48 (min (2 * k) 3)).answer
    (c.listDir s 1001 23 0).answer.1 = -22 ∧
      ∃ K ≤ 3, (List.range K).flatMap (fun k => (answer k).2.2) =
        [⟨".", .directory⟩, ⟨"..", .directory⟩, ⟨"f", .file⟩] ∧
      ∀ k, K ≤ k → answer k = (0, 3, []) := by
  intro s c answer
  have hopen : s.table.lookup 1001 = some (.directory (Path.ofString ".")) := rfl
  obtain ⟨all, -, hreads, hpages, hpaging⟩ := directory_paging hopen Host.lookup_dot_fourBytes rfl
  have hall : all = [⟨".", .directory⟩, ⟨"..", .directory⟩, ⟨"f", .file⟩] := by
    obtain ⟨p, hp, hlisting⟩ := hreads
    cases hopen.symm.trans hp
    obtain ⟨l, perms, t, hl, -, hlisted⟩ := listing_eq_ok_iff.mp hlisting
    cases Host.lookup_dot_fourBytes.symm.trans hl
    rw [hlisted, ← Host.listed_fourBytes]
    rfl
  subst hall
  have hsize : (min 48 s.settings.maxTransfer) = 48 := by decide
  refine ⟨?_, ?_⟩
  · obtain ⟨-, -, -, hroom, -⟩ := hpages c 23 0
    exact hroom.mpr ⟨_, rfl, by decide⟩
  · have hnext : ∀ k, min (2 * (k + 1)) 3 = (answer k).2.1 := by
      intro k
      have hanswer : answer k = pageAnswer (min (2 * k) 3) (pageOf _ 48 _ (min (2 * k) 3)) :=
        answer_of_readsAs hreads c 48 _
      rw [hanswer, hsize]
      match k with
      | 0 => decide
      | 1 => decide
      | k + 2 =>
        have hend : min (2 * (k + 2)) 3 = 3 := by omega
        have hafter : min (2 * (k + 2 + 1)) 3 = 3 := by omega
        rw [hend, hafter]
        decide
    have hroom : ∀ k e, ([⟨".", .directory⟩, ⟨"..", .directory⟩, ⟨"f", .file⟩] :
        List DirEntry)[min (2 * k) 3]? = some e → e.recordSize ≤ min 48 s.settings.maxTransfer := by
      intro k e he
      have hsmall : ∀ e ∈ ([⟨".", .directory⟩, ⟨"..", .directory⟩, ⟨"f", .file⟩] : List DirEntry),
          e.recordSize ≤ 48 := by decide
      rw [hsize]
      exact hsmall e (List.mem_of_getElem? he)
    obtain ⟨K, hK, hread, -, hend⟩ := hpaging (fun _ => s) (fun _ => c) (fun _ => 48)
      (fun k => min (2 * k) 3) (fun _ => hreads) rfl hnext hroom
    exact ⟨K, hK, hread, hend⟩

end Session

end Telefile
