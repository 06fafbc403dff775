import Telefile.Proofs.Tree
import Telefile.Scope

/-!
# Where resolved paths lead

A client's path is resolved against a root that is canonical. The check looks at the nearest
ancestor that exists; the operation then looks the path up itself. What the check has seen of an
ancestor settles where the lookup may end, since both take the same way up to there.

* `Host.Rooted` — the root is there, with no link above it;
* `Scope.beneath_of_decide` — an ancestor that leads somewhere leads beneath the root;
* **`Scope.beneath_of_resolve`** — a resolved path leads beneath the root;
* **`Scope.vacant_beneath_of_resolve`** — and what it may create lies in a directory beneath it;
* **`Scope.beneath_of_resolveEntry`** — the entry it names is the root or lies in such a directory.
-/

namespace Telefile

namespace Host

/-! ## 1. Lookups of locations -/

section Locations

variable {h : Host} {last : LastStep} {l : Location} {a : Arrival}

theorem arrive_ofLocation (hl : Location.Proper l) :
    h.arrive last (.ofLocation l) = .ok a ↔
      (0 ∉ (Path.ofLocation l).text ∧ (Path.ofLocation l).text.length ≤ maxPath) ∧
        h.Walks last maxLinks [] (Path.ofLocation l).endsInSlash l a := by
  have hne : (Path.ofLocation l).text ≠ [] := List.cons_ne_nil _ _
  rw [arrive_eq_ok_iff, Path.names_ofLocation hl, Path.isAbsolute_ofLocation, if_pos rfl]
  constructor
  · rintro ⟨⟨hnul, -, hlen⟩, hw⟩
    exact ⟨⟨hnul, hlen⟩, hw⟩
  · rintro ⟨⟨hnul, hlen⟩, hw⟩
    exact ⟨⟨hnul, hne, hlen⟩, hw⟩

/-- A canonical path of a location is that of a location again. -/
theorem trace_of_canonicalize (hl : Location.Proper l) {real : Path}
    (hreal : h.canonicalize (.ofLocation l) = .ok real) :
    ∃ m, real = .ofLocation m ∧
      h.trace maxLinks [] (Path.ofLocation l).endsInSlash l = .ok m := by
  obtain ⟨-, m, hm, ht⟩ := canonicalize_ok hreal
  rw [Path.names_ofLocation hl, Path.isAbsolute_ofLocation, if_pos rfl] at ht
  exact ⟨m, hm, ht⟩

/-- What can be written of a location can be written of the directory above it. -/
theorem writable_of_snoc {n : Name} (hnul : 0 ∉ (Path.ofLocation (l ++ [n])).text)
    (hlen : (Path.ofLocation (l ++ [n])).text.length ≤ maxPath) :
    0 ∉ (Path.ofLocation l).text ∧ (Path.ofLocation l).text.length ≤ maxPath := by
  obtain ⟨more, htext⟩ := Path.text_ofLocation_snoc l n
  rw [htext] at hnul hlen
  rw [List.length_append] at hlen
  refine ⟨fun hmem => hnul (List.mem_append_left more hmem), ?_⟩
  omega

/-- **All names but the last** of a path that leads somewhere lead to a directory, and the last
step is taken from there. -/
theorem lookup_above {n : Name} (hl : Location.Proper (l ++ [n]))
    (ha : h.arrive last (.ofLocation (l ++ [n])) = .ok a) :
    ∃ d left p t, h.lookup .follow (.ofLocation l) = .ok (d, .directory p t) ∧
      h.Walks last left d false [n] a ∧
      ∀ last' b, h.Walks last' left d false [n] b →
        h.arrive last' (.ofLocation (l ++ [n])) = .ok b := by
  have hn : n.Proper := hl n (List.mem_append_right l List.mem_cons_self)
  obtain ⟨⟨hnul, hlen⟩, hw⟩ := (arrive_ofLocation hl).mp ha
  rw [Path.endsInSlash_ofLocation hn] at hw
  obtain ⟨d, left, p, t, hdir, hlast, hback⟩ := hw.snoc rfl hn.not_dot hn.not_dotdot
  refine ⟨d, left, p, t, ?_, hlast, fun last' b hb => ?_⟩
  · rw [lookup_eq_ok_iff, arrive_ofLocation hl.left]
    exact ⟨writable_of_snoc hnul hlen, hdir _⟩
  · rw [arrive_ofLocation hl, Path.endsInSlash_ofLocation hn]
    exact ⟨⟨hnul, hlen⟩, hback last' b hb⟩

/-- The directory at `top` is there, and all above it are directories. -/
structure Rooted (h : Host) (top : Location) : Prop where
  proper : Location.Proper top
  directory : ∀ m, m <+: top → ∃ p t, h.entryAt? m = some (.directory p t)

/-- The path of the root leads to the root. -/
theorem Rooted.arrive {top : Location} (hroot : h.Rooted top)
    (ha : h.arrive last (.ofLocation top) = .ok a) : ∃ p t, a = .found top (.directory p t) :=
  ((arrive_ofLocation hroot.proper).mp ha).2.along hroot.proper hroot.directory

end Locations

end Host

namespace Scope

variable {h : Host} {top : Location}

/-- The scope of a root that has a canonical path. -/
theorem ofRoot_of_canonicalize {root real : Path} (hreal : h.canonicalize root = .ok real) :
    ofRoot h (some root) = beneath real := by
  unfold ofRoot
  dsimp only
  rw [hreal]

/-! ## 2. What the check decides -/

section Decide

variable {l m : Location} {e : Entry} {above : List Path}

/-- An ancestor that the check stops at is canonical beneath the root, or is not there at all. -/
theorem decideBy_cons {root p : Path} (hdecide : decideBy h root (p :: above) = true) :
    (∃ real, h.canonicalize p = .ok real ∧ real.startsWith root = true) ∨
      ((∀ r, h.lookup .entry p ≠ .ok r) ∧ decideBy h root above = true) := by
  unfold decideBy at hdecide
  cases hreal : h.canonicalize p with
  | ok real =>
    rw [hreal] at hdecide
    exact .inl ⟨real, rfl, hdecide⟩
  | error cause =>
    rw [hreal] at hdecide
    dsimp only at hdecide
    cases hl : h.lookup .entry p with
    | ok r =>
      rw [hl] at hdecide
      cases hdecide
    | error cause' =>
      rw [hl] at hdecide
      exact .inr ⟨fun r hr => (by cases hr), hdecide⟩

/-- **An ancestor that leads somewhere decides**: what it leads to lies beneath the root. -/
theorem beneath_of_decide (htop : Location.Proper top) (hl : Location.Proper l)
    (hdecide : decideBy h (.ofLocation top) (.ofLocation l :: above) = true)
    (hlookup : h.lookup .follow (.ofLocation l) = .ok (m, e)) : top <+: m := by
  obtain ⟨hwritable, hw⟩ := (Host.arrive_ofLocation hl).mp (Host.lookup_eq_ok_iff.mp hlookup)
  rcases decideBy_cons hdecide with ⟨real, hreal, hstarts⟩ | ⟨hnone, -⟩
  · obtain ⟨m', rfl, ht⟩ := Host.trace_of_canonicalize hl hreal
    have hmproper : Location.Proper m := hw.proper (fun _ hn => absurd hn List.not_mem_nil)
      fun n hn => ⟨(hl n hn).nonempty, (hl n hn).no_slash⟩
    rcases hw.agree ht with ⟨e', ha⟩ | ⟨hfollows, -⟩
    · cases ha
      exact Path.startsWith_ofLocation hmproper htop hstarts
    · cases hfollows
  · -- what a path leads to is named by it, so the check would have met it
    obtain ⟨m', e', hentry⟩ := hw.entry_of_follow rfl
    have hfound : h.lookup .entry (.ofLocation l) = .ok (m', e') :=
      Host.lookup_eq_ok_iff.mpr ((Host.arrive_ofLocation hl).mpr ⟨hwritable, hentry⟩)
    exact absurd hfound (hnone _)

theorem staysWithin_ofLocation (h : Host) (root : Path) (l : Location) :
    ∃ above, staysWithin h root (.ofLocation l) = decideBy h root (.ofLocation l :: above) :=
  ⟨_, rfl⟩

/-- The check of a path goes on to the directory above it. -/
theorem staysWithin_snoc (h : Host) (root : Path) {n : Name}
    (hl : Location.Proper (l ++ [n])) :
    ∃ above, staysWithin h root (.ofLocation (l ++ [n])) =
      decideBy h root (.ofLocation (l ++ [n]) :: .ofLocation l :: above) := by
  obtain ⟨above, hup⟩ :=
    Path.upwards_of_parent? (Path.parent?_ofLocation hl) (Path.glue (l ++ [n])).length
  refine ⟨above, ?_⟩
  show decideBy h root (Path.upwards ((Path.glue (l ++ [n])).length + 2) _) = _
  rw [hup]

end Decide

/-! ## 3. Resolved paths -/

section Resolve

variable {path : String} {full : Path}

/-- A resolved path is the root, or goes on from it by proper names and has passed the check. -/
theorem resolveWith_beneath (htop : Location.Proper top) {follow : Bool}
    (hres : (beneath (.ofLocation top)).resolveWith h follow path = .ok full) :
    full = .ofLocation top ∨ ∃ l n, Location.Proper (top ++ l ++ [n]) ∧
      full = .ofLocation (top ++ l ++ [n]) ∧
      staysWithin h (.ofLocation top) (if follow then full else .ofLocation (top ++ l)) = true := by
  unfold resolveWith at hres
  dsimp only at hres
  cases hfold : (Path.ofString path).fold? with
  | none =>
    rw [hfold] at hres
    cases hres
  | some names =>
    rw [hfold] at hres
    rcases List.eq_nil_or_concat names with rfl | ⟨l, n, hnames⟩
    · cases hres
      exact .inl rfl
    · rw [List.concat_eq_append] at hnames
      have hproper : Location.Proper (top ++ l ++ [n]) := by
        rw [List.append_assoc, ← hnames]
        exact htop.append (Path.proper_of_fold? hfold)
      have hne : names ≠ [] := by simp [hnames]
      have hfull : (Path.ofLocation top).join names = .ofLocation (top ++ l ++ [n]) := by
        rw [Path.join_ofLocation htop hne, hnames, List.append_assoc]
      have hparent : (Path.ofLocation (top ++ l ++ [n])).parent?.getD (.ofLocation top) =
          .ofLocation (top ++ l) := by
        rw [Path.parent?_ofLocation hproper]
        rfl
      cases names with
      | nil => exact absurd rfl hne
      | cons m rest =>
        dsimp only at hres
        rw [hfull, hparent] at hres
        by_cases hstays : staysWithin h (.ofLocation top)
            (if follow then .ofLocation (top ++ l ++ [n]) else .ofLocation (top ++ l)) = true
        · rw [if_pos hstays] at hres
          cases hres
          exact .inr ⟨l, n, hproper, rfl, hstays⟩
        · rw [if_neg hstays] at hres
          cases hres

/-- **A resolved path leads beneath the root.** -/
theorem beneath_of_resolve (hroot : h.Rooted top)
    (hres : (beneath (.ofLocation top)).resolve h path = .ok full) {m : Location} {e : Entry}
    (hlookup : h.lookup .follow full = .ok (m, e)) : top <+: m := by
  rcases resolveWith_beneath hroot.proper hres with rfl | ⟨l, n, hproper, rfl, hstays⟩
  · obtain ⟨p, t, ha⟩ := hroot.arrive (Host.lookup_eq_ok_iff.mp hlookup)
    cases ha
    exact List.prefix_rfl
  · obtain ⟨above, hdecide⟩ := staysWithin_ofLocation h (.ofLocation top) (top ++ l ++ [n])
    rw [if_pos rfl, hdecide] at hstays
    exact beneath_of_decide hroot.proper hproper hstays hlookup

/-- **What a resolved path may create** lies in a directory beneath the root. -/
theorem vacant_beneath_of_resolve (hroot : h.Rooted top)
    (hres : (beneath (.ofLocation top)).resolve h path = .ok full) {exclusive : Bool}
    {dir : Location} {q : Name} (harrive : h.arrive (.create exclusive) full = .ok (.vacant dir q)) :
    top <+: dir := by
  rcases resolveWith_beneath hroot.proper hres with rfl | ⟨l, n, hproper, rfl, hstays⟩
  · obtain ⟨p, t, ha⟩ := hroot.arrive harrive
    cases ha
  · obtain ⟨above, hdecide⟩ := staysWithin_snoc h (.ofLocation top) hproper
    rw [if_pos rfl, hdecide] at hstays
    obtain ⟨d, left, p, t, habove, hstep, hback⟩ := Host.lookup_above hproper harrive
    have hn : n.Proper := hproper n (List.mem_append_right _ List.mem_cons_self)
    rcases decideBy_cons hstays with ⟨real, hreal, -⟩ | ⟨hnone, hdecide'⟩
    · -- a vacant name has no canonical path
      obtain ⟨m, -, ht⟩ := Host.trace_of_canonicalize hproper hreal
      rcases ((Host.arrive_ofLocation hproper).mp harrive).2.agree ht with ⟨e, ha⟩ | ⟨-, m', _, _, ha⟩
      · cases ha
      · cases ha
    · have hd := beneath_of_decide hroot.proper hproper.left hdecide' habove
      cases hstep with
      | dot _ _ => exact absurd rfl hn.not_dot
      | up _ _ => exact absurd rfl hn.not_dotdot
      | vacant _ _ _ => exact hd
      | link hpass hn' he _ _ =>
        -- a link that leads nowhere is there itself, and the check has met it
        have hlink := hback .entry _ (.stop hpass (hn'.change rfl _ _) he rfl)
        exact absurd (Host.lookup_eq_ok_iff.mpr hlink) (hnone _)
      | down _ _ _ hne _ => exact absurd rfl hne

/-- **The entry that a resolved path names** is the root, or lies in a directory beneath it. -/
theorem beneath_of_resolveEntry (hroot : h.Rooted top)
    (hres : (beneath (.ofLocation top)).resolveEntry h path = .ok full) {m : Location} {e : Entry}
    (hlookup : h.lookup .entry full = .ok (m, e)) :
    (m = top ∧ e.isDir = true) ∨ ∃ d n, m = d ++ [n] ∧ top <+: d := by
  rcases resolveWith_beneath hroot.proper hres with rfl | ⟨l, n, hproper, rfl, hstays⟩
  · obtain ⟨p, t, ha⟩ := hroot.arrive (Host.lookup_eq_ok_iff.mp hlookup)
    cases ha
    exact .inl ⟨rfl, rfl⟩
  · obtain ⟨above, hdecide⟩ := staysWithin_ofLocation h (.ofLocation top) (top ++ l)
    rw [if_neg Bool.false_ne_true, hdecide] at hstays
    obtain ⟨d, left, p, t, habove, hstep, -⟩ :=
      Host.lookup_above hproper (Host.lookup_eq_ok_iff.mp hlookup)
    have hn : n.Proper := hproper n (List.mem_append_right _ List.mem_cons_self)
    have hd := beneath_of_decide hroot.proper hproper.left hstays habove
    cases hstep with
    | dot _ _ => exact absurd rfl hn.not_dot
    | up _ _ => exact absurd rfl hn.not_dotdot
    | stop _ _ _ _ => exact .inr ⟨d, n, rfl, hd⟩
    | link _ _ _ hgo _ => exact absurd ⟨rfl, rfl, rfl⟩ hgo
    | reach _ _ _ _ _ => exact .inr ⟨d, n, rfl, hd⟩
    | down _ _ _ hne _ => exact absurd rfl hne

end Resolve

end Scope

end Telefile
