import Telefile.Proofs.Confinement.Resolve

/-!
# Locations that are their own canonical path

A canonical path is put together from entries that have been looked at, none of them a link. So the
location that it names can be gone through as it stands, and is its own canonical path. Where no
link is in the way, whatever a lookup finds at a location has such a path.

* `Host.Firm` — every entry on the way to a location can be looked at, and is no link;
* **`Host.firm_of_trace`** — what is on the way to a canonical location, if not on that to the start;
* **`Host.canonicalize_ofLocation_iff`** — a firm location is its own canonical path;
* **`Host.firm_of_lookup`** — what is found without links is firm;
* `Host.Orderly` — what holds of every host; **`Orderly.canonical`** — what is canonical stays so.
-/

namespace Telefile

namespace Host

/-- Every entry on the way to the location can be looked at, and none is a link. -/
def Firm (h : Host) (l : Location) : Prop :=
  ∀ m n, m ++ [n] <+: l → ∃ e, h.glance m n = .ok e ∧ e.isLink = false

section Firm

variable {h : Host} {links : Nat} {here l : Location} {slash : Bool} {names : List Name}

/-! ## 1. Canonical locations -/

theorem glance_eq_ok_iff {n : Name} {e : Entry} :
    h.glance here n = .ok e ↔ (Path.ofLocation (here ++ [n])).text.length ≤ maxPath ∧
      h.pass here = .ok () ∧ n.length ≤ maxName ∧ h.entryAt? (here ++ [n]) = some e := by
  unfold glance
  by_cases hlen : maxPath < (Path.ofLocation (here ++ [n])).text.length
  · rw [if_pos hlen]
    exact ⟨fun hg => (by cases hg), fun hand => absurd hlen (Nat.not_lt.mpr hand.1)⟩
  rw [if_neg hlen]
  cases hpass : h.pass here with
  | error cause => exact ⟨fun hg => (by cases hg), fun hand => (by cases hand.2.1)⟩
  | ok _ =>
    dsimp only
    by_cases hname : maxName < n.length
    · rw [if_pos hname]
      exact ⟨fun hg => (by cases hg), fun hand => absurd hname (Nat.not_lt.mpr hand.2.2.1)⟩
    rw [if_neg hname]
    cases he : h.entryAt? (here ++ [n]) with
    | none => exact ⟨fun hg => (by cases hg), fun hand => (by cases hand.2.2.2)⟩
    | some e' =>
      refine ⟨fun hg => ?_, fun hand => ?_⟩
      · cases hg
        exact ⟨Nat.le_of_not_lt hlen, rfl, Nat.le_of_not_lt hname, rfl⟩
      · cases hand.2.2.2
        rfl

theorem Firm.left {m : Location} (hfirm : h.Firm (l ++ m)) : h.Firm l :=
  fun k n hup => hfirm k n (hup.trans (List.prefix_append l m))

/-- An entry on the way to a firm location. -/
theorem Firm.entry (hfirm : h.Firm l) {m : Location} {n : Name} (hup : m ++ [n] <+: l) :
    ∃ e, h.entryAt? (m ++ [n]) = some e ∧ e.isLink = false := by
  obtain ⟨e, hg, hlink⟩ := hfirm m n hup
  exact ⟨e, entryAt?_of_glance hg, hlink⟩

/-- Behind a name, a canonical path goes on from the entry that is there, or from the target of the
link. -/
theorem next_of_trace {n : Name} {rest : List Name} (hdot : n ≠ Path.dot)
    (hdotdot : n ≠ Path.dotdot) (ht : h.trace links here slash (n :: rest) = .ok l) :
    (∃ e, h.glance here n = .ok e ∧ e.isLink = false ∧
      h.trace links (here ++ [n]) slash rest = .ok l) ∨
    ∃ (left : Nat) (target : Path), links = left + 1 ∧
      h.trace left (if target.isAbsolute then [] else here)
        (slash || (decide (rest = []) && target.endsInSlash)) (target.names ++ rest) = .ok l := by
  obtain ⟨e, he, hg⟩ := glance_of_trace hdot hdotdot ht
  cases e with
  | symlink target t =>
    cases links with
    | zero =>
      rw [trace.eq_def] at ht
      simp only [if_neg hdot, if_neg hdotdot, hg] at ht
      cases ht
    | succ left => exact .inr ⟨left, target, rfl, trace_of_link hdot hdotdot he ht⟩
  | _ => exact .inl ⟨_, hg, rfl, trace_of_entry hdot hdotdot he rfl ht⟩

/-- **What is on the way to a canonical location** has been looked at, or is on the way to where the
path started. -/
theorem firm_of_trace : ∀ (links : Nat) (names : List Name) {here : Location} {slash : Bool}
    {l : Location}, h.trace links here slash names = .ok l →
      ∀ m n, m ++ [n] <+: l →
        m ++ [n] <+: here ∨ ∃ e, h.glance m n = .ok e ∧ e.isLink = false := by
  refine walk_induction fun links names ihnames ihlinks => ?_
  intro here slash l ht m n hup
  cases names with
  | nil =>
    rw [trace_nil] at ht
    cases ht
    exact .inl hup
  | cons k rest =>
    by_cases hdot : k = Path.dot
    · subst hdot
      rw [trace_dot] at ht
      exact ihnames _ _ rfl ht m n hup
    by_cases hdotdot : k = Path.dotdot
    · subst hdotdot
      rw [trace_dotdot] at ht
      rcases ihnames _ _ rfl ht m n hup with habove | hglance
      · exact .inl (habove.trans (List.dropLast_prefix here))
      · exact .inr hglance
    rcases next_of_trace hdot hdotdot ht with ⟨e, hg, hlink, hnext⟩ | ⟨left, target, rfl, hnext⟩
    · rcases ihnames _ _ rfl hnext m n hup with hhere | hglance
      · rcases List.prefix_concat_iff.mp hhere with hself | habove
        · obtain ⟨rfl, hn⟩ := List.append_inj' hself rfl
          cases hn
          exact .inr ⟨e, hg, hlink⟩
        · exact .inl habove
      · exact .inr hglance
    · rcases ihlinks _ rfl _ hnext m n hup with hstart | hglance
      · split at hstart
        · exact absurd (List.prefix_nil.mp hstart) (by simp)
        · exact .inl hstart
      · exact .inr hglance

/-- From the top, all of it has been looked at. -/
theorem firm_of_trace_top (ht : h.trace links [] slash names = .ok l) : h.Firm l := by
  intro m n hup
  rcases firm_of_trace _ _ ht m n hup with htop | hglance
  · exact absurd (List.prefix_nil.mp htop) (by simp)
  · exact hglance

/-- Before proper names, anything may stand. -/
theorem mayPrecede_proper (e : Entry) (hnames : Location.Proper names) :
    mayPrecede l e names false = .ok () := by
  have hleaves : leavesDirectory names false = false := by
    unfold leavesDirectory
    cases names with
    | nil => rfl
    | cons n rest =>
      have hn := hnames n List.mem_cons_self
      rw [List.dropWhile_cons_of_neg (by simpa using hn.not_dot)]
      simpa using hn.not_dotdot
  unfold mayPrecede
  rw [hleaves]
  rfl

/-- A name behind which only proper names stand is gone through. -/
theorem trace_cons {n : Name} {rest : List Name} {e : Entry} (hproper : Location.Proper (n :: rest))
    (hg : h.glance here n = .ok e) (hlink : e.isLink = false) :
    h.trace links here false (n :: rest) = h.trace links (here ++ [n]) false rest := by
  have hn := hproper n List.mem_cons_self
  have hmay := mayPrecede_proper (l := here ++ [n]) e
    fun m hm => hproper m (List.mem_cons_of_mem n hm)
  rw [trace.eq_def]
  simp only [if_neg hn.not_dot, if_neg hn.not_dotdot, hg]
  cases e with
  | symlink target t => cases hlink
  | _ => simp only [hmay]

theorem trace_of_firm (hnames : Location.Proper names)
    (hfirm : ∀ m n, m ++ [n] <+: names → ∃ e, h.glance (here ++ m) n = .ok e ∧ e.isLink = false) :
    h.trace links here false names = .ok (here ++ names) := by
  induction names generalizing here with
  | nil => rw [trace_nil, List.append_nil]
  | cons n rest ih =>
    obtain ⟨e, hg, hlink⟩ := hfirm [] n (List.prefix_append [n] rest)
    rw [List.append_nil] at hg
    rw [trace_cons hnames hg hlink, ih (fun m hm => hnames m (List.mem_cons_of_mem n hm)) ?_,
      List.append_assoc, List.singleton_append]
    intro m k hup
    rw [List.append_assoc]
    exact hfirm (n :: m) k (List.cons_prefix_cons.mpr ⟨rfl, hup⟩)

/-- The names in a canonical location are proper. -/
theorem proper_of_trace : ∀ (links : Nat) (names : List Name) {here : Location} {slash : Bool}
    {l : Location}, h.trace links here slash names = .ok l → here.Proper →
      (∀ n ∈ names, n ≠ [] ∧ Path.slash ∉ n) → l.Proper := by
  refine walk_induction fun links names ihnames ihlinks => ?_
  intro here slash l ht hhere hnames
  cases names with
  | nil =>
    rw [trace_nil] at ht
    cases ht
    exact hhere
  | cons n rest =>
    have hrest : ∀ m ∈ rest, m ≠ [] ∧ Path.slash ∉ m := fun m hm =>
      hnames m (List.mem_cons_of_mem n hm)
    by_cases hdot : n = Path.dot
    · subst hdot
      rw [trace_dot] at ht
      exact ihnames _ _ rfl ht hhere hrest
    by_cases hdotdot : n = Path.dotdot
    · subst hdotdot
      rw [trace_dotdot] at ht
      exact ihnames _ _ rfl ht hhere.dropLast hrest
    rcases next_of_trace hdot hdotdot ht with ⟨e, -, -, hnext⟩ | ⟨left, target, rfl, hnext⟩
    · obtain ⟨hne, hslash⟩ := hnames n List.mem_cons_self
      exact ihnames _ _ rfl hnext (hhere.snoc ⟨hne, hslash, hdot, hdotdot⟩) hrest
    · refine ihlinks _ rfl _ hnext ?_ fun m hm => ?_
      · split
        · exact fun _ hm => absurd hm List.not_mem_nil
        · exact hhere
      · rcases List.mem_append.mp hm with hm | hm
        · exact Path.written_names m hm
        · exact hrest m hm

/-- **A firm location is its own canonical path**, if it can be written. -/
theorem canonicalize_ofLocation_iff (hl : Location.Proper l) :
    h.canonicalize (.ofLocation l) = .ok (.ofLocation l) ↔
      0 ∉ (Path.ofLocation l).text ∧ h.Firm l := by
  constructor
  · intro hreal
    obtain ⟨m, hm, ht⟩ := trace_of_canonicalize hl hreal
    have hproper := proper_of_trace _ _ ht (fun _ hn => absurd hn List.not_mem_nil)
      fun n hn => ⟨(hl n hn).nonempty, (hl n hn).no_slash⟩
    obtain rfl : l = m := by
      rw [← Path.names_ofLocation hl, hm, Path.names_ofLocation hproper]
    exact ⟨(canonicalize_ok hreal).1, firm_of_trace_top ht⟩
  · rintro ⟨hnul, hfirm⟩
    have htrace : h.trace maxLinks [] (Path.ofLocation l).endsInSlash l = .ok l := by
      rcases List.eq_nil_or_concat l with rfl | ⟨m, n, rfl⟩
      · exact trace_nil
      · rw [List.concat_eq_append] at hl hfirm ⊢
        rw [Path.endsInSlash_ofLocation (hl n (by simp))]
        exact trace_of_firm hl hfirm
    have hne : (Path.ofLocation l).text ≠ [] := List.cons_ne_nil _ _
    unfold canonicalize
    rw [if_neg hnul, if_neg hne, Path.names_ofLocation hl, Path.isAbsolute_ofLocation, if_pos rfl,
      htrace]
    rfl

/-! ## 2. Without links -/

/-- What can be written of a location can be written of every location on the way to it. -/
theorem writable_above {m : Location} (hup : m <+: l) (hnul : 0 ∉ (Path.ofLocation l).text)
    (hlen : (Path.ofLocation l).text.length ≤ maxPath) :
    0 ∉ (Path.ofLocation m).text ∧ (Path.ofLocation m).text.length ≤ maxPath := by
  obtain ⟨more, rfl⟩ := hup
  induction more using List.reverseRecOn with
  | nil =>
    rw [List.append_nil] at hnul hlen
    exact ⟨hnul, hlen⟩
  | append_singleton more n ih =>
    rw [← List.append_assoc] at hnul hlen
    obtain ⟨hnul', hlen'⟩ := writable_of_snoc hnul hlen
    exact ih hnul' hlen'

/-- Where no link is on the way, a canonical path is that of the location itself. -/
theorem eq_of_trace (hproper : Location.Proper names)
    (hlinks : ∀ m n e, m ++ [n] <+: names → h.entryAt? (here ++ (m ++ [n])) = some e →
      e.isLink = false)
    (ht : h.trace links here slash names = .ok l) : l = here ++ names := by
  induction names generalizing here with
  | nil =>
    rw [trace_nil] at ht
    cases ht
    exact (List.append_nil _).symm
  | cons n rest ih =>
    have hn := hproper n List.mem_cons_self
    obtain ⟨e, he, -⟩ := glance_of_trace hn.not_dot hn.not_dotdot ht
    have hlink := hlinks [] n e (List.prefix_append [n] rest) he
    have hnext := ih (fun m hm => hproper m (List.mem_cons_of_mem n hm)) ?_
      (trace_of_entry hn.not_dot hn.not_dotdot he hlink ht)
    · rw [hnext, List.append_assoc, List.singleton_append]
    · intro m k e' hup he'
      rw [List.append_assoc] at he'
      exact hlinks (n :: m) k e' (List.cons_prefix_cons.mpr ⟨rfl, hup⟩) he'

theorem glance_of_taken {last : LastStep} {n : Name} {rest : List Name} {e : Entry}
    (hpass : h.pass here = .ok ()) (hn : Taken last slash n rest)
    (he : h.entryAt? (here ++ [n]) = some e)
    (hlen : (Path.ofLocation (here ++ [n])).text.length ≤ maxPath) : h.glance here n = .ok e :=
  glance_eq_ok_iff.mpr ⟨hlen, hpass, hn.short, he⟩

/-- A way that meets no link meets entries that can be looked at. -/
theorem Walks.firm {a : Arrival} (hw : h.Walks .entry links here slash names a) {l : Location}
    {x : Entry} (ha : a = .found l x) (hproper : Location.Proper names)
    (hlinks : ∀ m n e, m ++ [n] <+: names → h.entryAt? (here ++ (m ++ [n])) = some e →
      e.isLink = false)
    (hlen : ∀ m, m <+: names → (Path.ofLocation (here ++ m)).text.length ≤ maxPath) :
    ∀ m n, m ++ [n] <+: names → ∃ e, h.glance (here ++ m) n = .ok e ∧ e.isLink = false := by
  induction hw with
  | done _ => exact fun m n hup => absurd (List.prefix_nil.mp hup) (by simp)
  | dot _ _ _ => exact absurd rfl (hproper _ List.mem_cons_self).not_dot
  | up _ _ _ => exact absurd rfl (hproper _ List.mem_cons_self).not_dotdot
  | vacant _ _ _ => cases ha
  | stop _ _ he _ => cases hlinks [] _ _ List.prefix_rfl he
  | @link links here slash n rest _ _ _ _ _ he _ _ _ =>
    cases hlinks [] n _ (List.prefix_append [n] rest) he
  | @reach links here slash n e hpass hn he hlink _ =>
    intro m k hup
    have hg := glance_of_taken hpass hn he (hlen [n] List.prefix_rfl)
    rcases List.prefix_cons_iff.mp hup with hnil | ⟨m', hm, hrest⟩
    · exact absurd hnil (by simp)
    · rw [List.prefix_nil.mp hrest] at hm
      obtain ⟨rfl, rfl⟩ : m = [] ∧ k = n := by
        have hm : m ++ [k] = [] ++ [n] := hm
        obtain ⟨hm, hk⟩ := List.append_inj' hm rfl
        exact ⟨hm, List.singleton_inj.mp hk⟩
      rw [List.append_nil]
      exact ⟨e, hg, hlink⟩
  | @down links here slash n rest p t a hpass hn he hne _ ih =>
    intro m k hup
    cases m with
    | nil =>
      obtain ⟨rfl, -⟩ := List.cons_prefix_cons.mp hup
      have hg := glance_of_taken hpass hn he (hlen [k] (List.prefix_append [k] rest))
      rw [List.append_nil]
      exact ⟨_, hg, rfl⟩
    | cons n' m =>
      obtain ⟨rfl, hrest⟩ := List.cons_prefix_cons.mp hup
      have hnext := ih ha (fun q hq => hproper q (List.mem_cons_of_mem _ hq)) ?_ ?_ m k hrest
      · rw [List.append_assoc] at hnext
        exact hnext
      · intro m n e hmn he
        rw [List.append_assoc] at he
        exact hlinks (_ :: m) n e (List.cons_prefix_cons.mpr ⟨rfl, hmn⟩) he
      · intro m hm
        rw [List.append_assoc]
        exact hlen (_ :: m) (List.cons_prefix_cons.mpr ⟨rfl, hm⟩)

/-- **What is found where no link is on the way** is firm. -/
theorem firm_of_lookup (hl : Location.Proper l)
    (hlinks : ∀ m n e, m ++ [n] <+: l → h.entryAt? (m ++ [n]) = some e → e.isLink = false)
    {r : Location × Entry} (hlookup : h.lookup .entry (.ofLocation l) = .ok r) :
    0 ∉ (Path.ofLocation l).text ∧ h.Firm l := by
  obtain ⟨⟨hnul, hlen⟩, hw⟩ := (arrive_ofLocation hl).mp (lookup_eq_ok_iff.mp hlookup)
  exact ⟨hnul, hw.firm rfl hl hlinks fun m hm => (writable_above hm hnul hlen).2⟩

/-! ## 3. Canonical once more -/

/-- What holds of every host: its tree is one, no name in it holds a NUL byte, and the working
directory can be reached from the top. -/
structure Orderly (h : Host) : Prop where
  tree : h.WellFormed
  written : ∀ {l e}, h.entryAt? l = some e → 0 ∉ (Path.ofLocation l).text
  home : h.Firm h.cwd

/-- **What is canonical stays so**: its own canonical path is the same. -/
theorem Orderly.canonical (ho : h.Orderly) {p real : Path} (hreal : h.canonicalize p = .ok real) :
    ∃ top, Location.Proper top ∧ real = .ofLocation top ∧ h.canonicalize real = .ok real := by
  obtain ⟨-, top, rfl, ht⟩ := canonicalize_ok hreal
  have hfirm : h.Firm top := by
    intro m n hup
    rcases firm_of_trace _ _ ht m n hup with hstart | hglance
    · split at hstart
      · exact absurd (List.prefix_nil.mp hstart) (by simp)
      · exact ho.home m n hstart
    · exact hglance
  have hwritable : Location.Proper top ∧ 0 ∉ (Path.ofLocation top).text := by
    rcases List.eq_nil_or_concat top with rfl | ⟨m, n, rfl⟩
    · exact ⟨fun n hn => absurd hn List.not_mem_nil, by decide⟩
    · rw [List.concat_eq_append] at hfirm ⊢
      obtain ⟨e, he, -⟩ := hfirm.entry List.prefix_rfl
      exact ⟨ho.tree.proper he, ho.written he⟩
  exact ⟨top, hwritable.1, rfl, (canonicalize_ofLocation_iff hwritable.1).mpr ⟨hwritable.2, hfirm⟩⟩

end Firm

end Host

end Telefile
