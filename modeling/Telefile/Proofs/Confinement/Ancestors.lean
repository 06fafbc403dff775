import Mathlib
import Telefile.Proofs.Confinement.Detours
import Telefile.Proofs.Confinement.Roots

/-!
# The ancestor that decides

The check goes up from a path to the first ancestor that has a canonical path or can be looked up. A
parent is shorter than its path, so that is the longest one. It is accepted if its canonical path
begins with the root. An ancestor that has a canonical path and cannot be looked up decides as well;
where there is none, the longest that can be looked up decides.

* `Path.HasAncestor`, **`Path.mem_ancestors_iff`** — the ancestors of a path, and no end before them;
* `Path.Longest`, `longest_iff_of_holds`, `longest_iff_of_not` — the longest ancestor of a kind;
* `Scope.staysWithin_of_met`, `staysWithin_of_not_met` — one round of the check;
* **`Scope.staysWithin_eq_true_iff`** — all of them;
* **`Scope.longest_ancestor_decides`** — which ancestor decides, and how.
-/

namespace Telefile

namespace Path

variable {p q r above : Path} {k : Nat}

/-! ## 1. Parents are shorter -/

theorem trimEnd_isPrefix (parts : List Name) : trimEnd parts <+: parts :=
  List.rdropWhile_prefix _ parts

/-- What is left at the end is a component. -/
theorem getLast_trimEnd_ne_nil {parts : List Name} (h : trimEnd parts ≠ []) :
    (trimEnd parts).getLast h ≠ [] := by
  have hlast := List.rdropWhile_last_not (fun n => n == [] || n == dot) parts h
  intro hnil
  refine hlast ?_
  change ((trimEnd parts).getLast h == [] || _) = true
  rw [hnil]
  rfl

/-- A parent leaves out something at the end. -/
theorem exists_last_part {parts : List Name} (h : trimEnd parts ≠ []) :
    ∃ more, more ≠ [] ∧ parts = trimEnd (trimEnd parts).dropLast ++ more := by
  have habove := trimEnd_isPrefix (trimEnd parts).dropLast
  obtain ⟨more, hmore⟩ :=
    (habove.trans (List.dropLast_prefix _)).trans (trimEnd_isPrefix parts)
  refine ⟨more, ?_, hmore.symm⟩
  rintro rfl
  rw [List.append_nil] at hmore
  have hle := habove.length_le
  rw [hmore, List.length_dropLast] at hle
  have hle' := (trimEnd_isPrefix parts).length_le
  have hpos := List.length_pos_iff.mpr h
  omega

/-- **A parent is shorter.** -/
theorem length_parent?_lt (h : p.parent? = some above) : above.text.length < p.text.length := by
  have htext := glue_split p.text
  unfold parent? at h
  cases hs : split p.text with
  | nil => exact absurd hs (split_ne_nil p.text)
  | cons first rest =>
    rw [hs] at h htext
    dsimp only at h
    rw [← htext]
    by_cases hbody : trimEnd rest = []
    · rw [if_pos hbody] at h
      split at h
      · cases h
      · next hfirst =>
        cases h
        have hle := length_glue_le (List.cons_sublist_cons.mpr (List.nil_sublist rest) :
          [first].Sublist (first :: rest))
        rw [glue_singleton] at hle
        exact Nat.lt_of_lt_of_le (List.length_pos_iff.mpr hfirst) hle
    rw [if_neg hbody] at h
    split at h
    · next hroot =>
      cases h
      have hmem := (trimEnd_isPrefix rest).subset (List.getLast_mem hbody)
      have hle := length_glue_le (List.singleton_sublist.mpr hmem)
      have hpos := List.length_pos_iff.mpr (getLast_trimEnd_ne_nil hbody)
      rw [glue_singleton] at hle
      rw [hroot.1, glue_cons (List.ne_nil_of_mem hmem), List.nil_append, List.length_cons]
      exact Nat.succ_lt_succ (Nat.lt_of_lt_of_le hpos hle)
    · cases h
      obtain ⟨more, hne, hmore⟩ := exists_last_part hbody
      have hglue : glue (first :: rest) =
          glue (first :: trimEnd (trimEnd rest).dropLast) ++ slash :: glue more := by
        rw [← glue_append (List.cons_ne_nil _ _) hne, List.cons_append, ← hmore]
      show (glue _).length < _
      rw [hglue, List.length_append, List.length_cons]
      omega

/-- What holds of a path if it holds of its parent holds of every path. -/
theorem upward_induction {motive : Path → Prop}
    (step : ∀ p, (∀ above, p.parent? = some above → motive above) → motive p) (p : Path) :
    motive p := by
  induction hlen : p.text.length using Nat.strong_induction_on generalizing p with
  | h n ih =>
    subst hlen
    exact step p fun above habove => ih _ (length_parent?_lt habove) above rfl

/-! ## 2. Ancestors -/

/-- A path, its parent, and so on up. -/
def HasAncestor : Path → Path → Prop :=
  Relation.ReflTransGen fun q above => q.parent? = some above

theorem HasAncestor.cases (h : p.HasAncestor q) :
    q = p ∨ ∃ above, p.parent? = some above ∧ above.HasAncestor q := by
  rcases Relation.ReflTransGen.cases_head h with rfl | ⟨above, habove, hup⟩
  · exact .inl rfl
  · exact .inr ⟨above, habove, hup⟩

theorem HasAncestor.of_parent (habove : p.parent? = some above) (h : above.HasAncestor q) :
    p.HasAncestor q :=
  Relation.ReflTransGen.head habove h

theorem HasAncestor.length_le (h : p.HasAncestor q) : q.text.length ≤ p.text.length := by
  induction h with
  | refl => exact Nat.le_refl _
  | tail _ habove ih => exact Nat.le_trans (Nat.le_of_lt (length_parent?_lt habove)) ih

theorem hasAncestor_of_mem (h : q ∈ upwards k p) : p.HasAncestor q := by
  induction k generalizing p with
  | zero => cases h
  | succ k ih =>
    unfold upwards at h
    rcases List.mem_cons.mp h with rfl | hup
    · exact .refl
    · cases habove : p.parent? with
      | none =>
        rw [habove] at hup
        cases hup
      | some above =>
        rw [habove] at hup
        exact .of_parent habove (ih hup)

/-- More rounds than bytes find nothing more. -/
theorem upwards_of_lt : ∀ {k j : Nat} {p : Path}, p.text.length < k → p.text.length < j →
    upwards k p = upwards j p := by
  intro k
  induction k with
  | zero => exact fun hk => absurd hk (Nat.not_lt_zero _)
  | succ k ih =>
    intro j p hk hj
    obtain ⟨j, rfl⟩ := Nat.exists_eq_succ_of_ne_zero (Nat.ne_zero_of_lt hj)
    unfold upwards
    cases habove : p.parent? with
    | none => rfl
    | some above =>
      have hlt := length_parent?_lt habove
      dsimp only
      rw [ih (by omega : above.text.length < k) (by omega : above.text.length < j)]

/-- The ancestors are the path and those of its parent. -/
theorem ancestors_eq (p : Path) :
    p.ancestors = p :: (p.parent?.map ancestors).getD [] := by
  show upwards (p.text.length + 1) p = _
  unfold upwards
  cases habove : p.parent? with
  | none => rfl
  | some above =>
    show p :: upwards p.text.length above = p :: upwards (above.text.length + 1) above
    rw [upwards_of_lt (length_parent?_lt habove) (Nat.lt_succ_self _)]

/-- **The ancestors are all that can be reached upwards.** -/
theorem mem_ancestors_iff : q ∈ p.ancestors ↔ p.HasAncestor q := by
  refine ⟨hasAncestor_of_mem, fun h => ?_⟩
  induction h using Relation.ReflTransGen.head_induction_on with
  | refl =>
    rw [ancestors_eq]
    exact List.mem_cons_self
  | head habove _ ih =>
    rw [ancestors_eq, habove]
    exact List.mem_cons_of_mem _ ih

/-! ## 3. The longest ancestor of a kind -/

/-- The longest ancestor of which something holds. -/
structure Longest (P : Path → Prop) (p q : Path) : Prop where
  ancestor : p.HasAncestor q
  holds : P q
  longest : ∀ r, p.HasAncestor r → P r → r.text.length ≤ q.text.length

variable {P : Path → Prop}

/-- Of which something holds, a path is its own longest ancestor. -/
theorem longest_iff_of_holds (hp : P p) : p.Longest P q ↔ q = p := by
  constructor
  · intro h
    rcases h.ancestor.cases with rfl | ⟨above, habove, hup⟩
    · rfl
    · have hlt := length_parent?_lt habove
      have hle := hup.length_le
      have hlongest := h.longest p .refl hp
      omega
  · rintro rfl
    exact ⟨.refl, hp, fun r hr _ => hr.length_le⟩

/-- Else the longest ancestor of its parent is that of a path. -/
theorem longest_iff_of_not (hp : ¬ P p) :
    p.Longest P q ↔ ∃ above, p.parent? = some above ∧ above.Longest P q := by
  constructor
  · intro h
    rcases h.ancestor.cases with rfl | ⟨above, habove, hup⟩
    · exact absurd h.holds hp
    · exact ⟨above, habove, hup, h.holds, fun r hr => h.longest r (.of_parent habove hr)⟩
  · rintro ⟨above, habove, h⟩
    refine ⟨.of_parent habove h.ancestor, h.holds, fun r hr hholds => ?_⟩
    rcases hr.cases with rfl | ⟨above', habove', hr'⟩
    · exact absurd hholds hp
    · cases habove.symm.trans habove'
      exact h.longest r hr' hholds

theorem longest_iff_of_parent (hp : ¬ P p) (habove : p.parent? = some above) (hholds : P above) :
    p.Longest P q ↔ q = above := by
  rw [longest_iff_of_not hp, habove]
  simp only [Option.some.injEq, exists_eq_left']
  exact longest_iff_of_holds hholds

/-- There is one longest ancestor at most. -/
theorem Longest.unique (hq : p.Longest P q) (hr : p.Longest P r) : q = r := by
  induction p using upward_induction with
  | step p ih =>
    by_cases hp : P p
    · rw [(longest_iff_of_holds hp).mp hq, (longest_iff_of_holds hp).mp hr]
    · obtain ⟨above, habove, hq'⟩ := (longest_iff_of_not hp).mp hq
      obtain ⟨above', habove', hr'⟩ := (longest_iff_of_not hp).mp hr
      cases habove.symm.trans habove'
      exact ih above habove hq' hr'

/-- Only what holds of the ancestors counts. -/
theorem longest_congr {Q : Path → Prop} (h : ∀ r, p.HasAncestor r → (P r ↔ Q r)) :
    p.Longest P q ↔ p.Longest Q q := by
  constructor
  · intro hq
    exact ⟨hq.ancestor, (h q hq.ancestor).mp hq.holds,
      fun r hr hholds => hq.longest r hr ((h r hr).mpr hholds)⟩
  · intro hq
    exact ⟨hq.ancestor, (h q hq.ancestor).mpr hq.holds,
      fun r hr hholds => hq.longest r hr ((h r hr).mp hholds)⟩

end Path

/-! ## 4. The check, round by round -/

/-- A path at which a lookup finds an entry, links at the end not followed. -/
def Host.Seen (h : Host) (p : Path) : Prop := ∃ found, h.lookup .entry p = .ok found

/-- A path that has a canonical path or can be looked up. -/
def Host.Met (h : Host) (p : Path) : Prop := (∃ real, h.canonicalize p = .ok real) ∨ h.Seen p

theorem Host.not_seen_of_lookup {h : Host} {p : Path} {cause : HostError}
    (hcause : h.lookup .entry p = .error cause) : ¬ h.Seen p := by
  rintro ⟨found, hfound⟩
  rw [hcause] at hfound
  cases hfound

theorem Host.not_met_of_errors {h : Host} {p : Path} {cause cause' : HostError}
    (hcanonical : h.canonicalize p = .error cause) (hlookup : h.lookup .entry p = .error cause') :
    ¬ h.Met p := by
  rintro (⟨real, hreal⟩ | hseen)
  · rw [hcanonical] at hreal
    cases hreal
  · exact not_seen_of_lookup hlookup hseen

/-- What is met and cannot be looked up is too long, or behind a dot that is barred. -/
theorem Host.WellFormed.barred_of_unseen {h : Host} {p : Path} (htree : h.WellFormed)
    (hhome : ∃ perms t, h.entryAt? h.cwd = some (.directory perms t)) (hmet : h.Met p)
    (hunseen : ¬ h.Seen p) : maxPath < p.text.length ∨ h.Barred p := by
  rcases hmet with ⟨real, hreal⟩ | hseen
  · cases hfollow : h.lookup .follow p with
    | ok found =>
      obtain ⟨m, x, hentry⟩ := lookup_entry_of_follow hfollow
      exact absurd ⟨_, hentry⟩ hunseen
    | error cause =>
      rcases (lookup_eq_error_iff_of_canonicalize htree hhome hreal cause).mp hfollow with
        ⟨-, hlong⟩ | ⟨-, -, hbarred⟩
      · exact .inl hlong
      · exact .inr hbarred
  · exact absurd hseen hunseen

namespace Scope

variable {h : Host} {root p q real : Path} {cause : HostError}

theorem staysWithin_eq (h : Host) (root p : Path) :
    staysWithin h root p = decideBy h root (p :: (p.parent?.map Path.ancestors).getD []) :=
  congrArg (decideBy h root) p.ancestors_eq

theorem staysWithin_of_canonicalize (hreal : h.canonicalize p = .ok real) :
    staysWithin h root p = real.startsWith root := by
  rw [staysWithin_eq, decideBy, hreal]

/-- What is there and has no canonical path is refused. -/
theorem staysWithin_of_seen (hcause : h.canonicalize p = .error cause) (hseen : h.Seen p) :
    staysWithin h root p = false := by
  obtain ⟨found, hfound⟩ := hseen
  rw [staysWithin_eq, decideBy, hcause]
  dsimp only
  rw [hfound]

/-- The check goes up from what is not there. -/
theorem staysWithin_of_not_met (hmet : ¬ h.Met p) :
    staysWithin h root p = (p.parent?.map (staysWithin h root)).getD false := by
  obtain ⟨hreal, hseen⟩ := not_or.mp hmet
  rw [staysWithin_eq, decideBy]
  cases hcanonical : h.canonicalize p with
  | ok real => exact absurd ⟨real, hcanonical⟩ hreal
  | error cause =>
    dsimp only
    cases hlookup : h.lookup .entry p with
    | ok found => exact absurd ⟨found, hlookup⟩ hseen
    | error cause' =>
      cases p.parent? <;> rfl

/-- The path that decides is accepted if its canonical path begins with the root. -/
theorem staysWithin_of_met (hmet : h.Met p) :
    staysWithin h root p = true ↔
      ∃ real, h.canonicalize p = .ok real ∧ root.components <+: real.components := by
  cases hreal : h.canonicalize p with
  | ok real =>
    rw [staysWithin_of_canonicalize hreal]
    unfold Path.startsWith
    rw [List.isPrefixOf_iff_prefix]
    simp only [Except.ok.injEq, exists_eq_left']
  | error cause =>
    have hseen : h.Seen p := by
      rcases hmet with ⟨real, hreal'⟩ | hseen
      · cases hreal.symm.trans hreal'
      · exact hseen
    rw [staysWithin_of_seen hreal hseen]
    simp

/-- **The longest ancestor that is met decides**, and none but it. -/
theorem staysWithin_eq_true_iff (h : Host) (root p : Path) :
    staysWithin h root p = true ↔ ∃ q real, p.Longest h.Met q ∧
      h.canonicalize q = .ok real ∧ root.components <+: real.components := by
  induction p using Path.upward_induction with
  | step p ih =>
    by_cases hmet : h.Met p
    · simp only [Path.longest_iff_of_holds hmet, staysWithin_of_met hmet, exists_and_left,
        exists_eq_left]
    simp only [Path.longest_iff_of_not hmet, staysWithin_of_not_met hmet]
    cases habove : p.parent? with
    | none => simp
    | some above =>
      rw [Option.map_some, Option.getD_some, ih above habove]
      simp only [Option.some.injEq, exists_eq_left']

/-- **The check decides by the longest ancestor that is met.** The ancestors are a path, its parent and
so on, each shorter than the one before, so the check ends. It accepts the path exactly if the longest
ancestor that has a canonical path or can be looked up has a canonical path that begins with the root:
not if it cannot be resolved, and not if there is none. Where every ancestor that is met can be looked
up, that is the longest one that can. In a tree, an ancestor that has a canonical path and cannot be
looked up is too long, or a lookup of it comes to a dot in a directory that may not be searched; so a
link that leads nowhere for any other cause is refused. -/
theorem longest_ancestor_decides (h : Host) (root p : Path) :
    (∀ q, q ∈ p.ancestors ↔ p.HasAncestor q) ∧
    (∀ q above : Path, q.parent? = some above → above.text.length < q.text.length) ∧
    (staysWithin h root p = true ↔ ∃ q real, p.Longest h.Met q ∧
      h.canonicalize q = .ok real ∧ root.components <+: real.components) ∧
    (∀ q cause, p.Longest h.Met q → h.canonicalize q = .error cause →
      staysWithin h root p = false) ∧
    ((∀ q, p.HasAncestor q → ¬ h.Met q) → staysWithin h root p = false) ∧
    ((∀ q, p.HasAncestor q → h.Met q → h.Seen q) →
      ∀ q, p.Longest h.Met q ↔ p.Longest h.Seen q) ∧
    (h.WellFormed → (∃ perms t, h.entryAt? h.cwd = some (.directory perms t)) →
      (∀ q, h.Met q → ¬ h.Seen q → Host.maxPath < q.text.length ∨ h.Barred q) ∧
      ∀ q cause, p.Longest h.Met q → h.lookup .follow q = .error cause →
        (cause = .nameTooLong → q.text.length ≤ Host.maxPath) →
        (cause = .permissionDenied → ¬ h.Barred q) → staysWithin h root p = false) := by
  have hrefused : ∀ q cause, p.Longest h.Met q → h.canonicalize q = .error cause →
      staysWithin h root p = false := by
    intro q cause hq hcause
    rw [← Bool.not_eq_true, staysWithin_eq_true_iff]
    rintro ⟨q', real, hq', hreal, -⟩
    rw [hq'.unique hq, hcause] at hreal
    cases hreal
  refine ⟨fun q => Path.mem_ancestors_iff, fun q above => Path.length_parent?_lt,
    staysWithin_eq_true_iff h root p, hrefused, fun hnone => ?_, fun hall q => ?_,
    fun htree hhome => ⟨fun q hmet hunseen => ?_, fun q cause hq hcause hlong hbarred => ?_⟩⟩
  · rw [← Bool.not_eq_true, staysWithin_eq_true_iff]
    rintro ⟨q, real, hq, -, -⟩
    exact hnone q hq.ancestor hq.holds
  · exact Path.longest_congr fun r hr => ⟨hall r hr, .inr⟩
  · exact htree.barred_of_unseen hhome hmet hunseen
  · cases hreal : h.canonicalize q with
    | error cause' => exact hrefused q cause' hq hreal
    | ok real =>
      rcases (Host.lookup_eq_error_iff_of_canonicalize htree hhome hreal cause).mp hcause with
        ⟨hcause, hlong'⟩ | ⟨hcause, -, hbarred'⟩
      · exact absurd (hlong hcause) (Nat.not_le.mpr hlong')
      · exact absurd hbarred' (hbarred hcause)

end Scope

/-! ## 5. Behind a directory that is shut -/

/-- A host whose working directory `srv` has a directory `shut` that grants nothing. By the way back
out of it, a link leads inside and another outside; and one leads nowhere. -/
def Host.roundabout : Host :=
  let srv : Location := [Utf8.encode "srv"]
  let inner := srv ++ [Utf8.encode "inner"]
  let outer : Location := [Utf8.encode "outer"]
  let directory : Entry := .directory .newDirectory ⟨0, 0⟩
  let link (target : String) : Entry := .symlink (Path.ofString target) ⟨0, 0⟩
  let made : List (Location × Entry) :=
    [(srv ++ [Utf8.encode "shut"], .directory ⟨0, true⟩ ⟨0, 0⟩),
      (inner, directory), (inner ++ [Utf8.encode "leave"], link "../../outer"),
      (outer, directory), (outer ++ [Utf8.encode "return"], link "../srv/inner"),
      (srv ++ [Utf8.encode "in"], link "shut/../inner"),
      (srv ++ [Utf8.encode "out"], link "shut/../../outer"),
      (srv ++ [Utf8.encode "lost"], link "nowhere")]
  made.foldl (fun h e => h.setEntry e.1 e.2) (Host.fresh srv ⟨0, 0⟩ none)

namespace Host

/-- The links that lead inside and outside are seen; what lies behind them is not. -/
theorem seen_in : roundabout.Seen (Path.ofString "/srv/in") :=
  ⟨([Utf8.encode "srv", Utf8.encode "in"], .symlink (Path.ofString "shut/../inner") ⟨0, 0⟩), by cbv⟩

theorem seen_out : roundabout.Seen (Path.ofString "/srv/out") :=
  ⟨([Utf8.encode "srv", Utf8.encode "out"], .symlink (Path.ofString "shut/../../outer") ⟨0, 0⟩),
    by cbv⟩

theorem not_seen_leave : ¬ roundabout.Seen (Path.ofString "/srv/in/leave") := by
  have hcause : roundabout.lookup .entry (Path.ofString "/srv/in/leave") =
      .error .permissionDenied := by cbv
  exact not_seen_of_lookup hcause

theorem not_seen_return : ¬ roundabout.Seen (Path.ofString "/srv/out/return") := by
  have hcause : roundabout.lookup .entry (Path.ofString "/srv/out/return") =
      .error .permissionDenied := by cbv
  exact not_seen_of_lookup hcause

theorem canonicalize_leave :
    roundabout.canonicalize (Path.ofString "/srv/in/leave") = .ok (Path.ofString "/outer") := by
  cbv

end Host

namespace Scope

/-- A link that leads nowhere is refused, and so is a relative path of which nothing is there. A path
that cannot be looked up, but has a canonical path, decides for itself. -/
theorem longest_ancestor_decides_roundabout :
    let h := Host.roundabout
    let root := Path.ofString "/srv"
    let lost := Path.ofString "/srv/lost"
    let leave := Path.ofString "/srv/in/leave"
    h.WellFormed ∧ (∃ perms t, h.entryAt? h.cwd = some (.directory perms t)) ∧
      lost.Longest h.Met lost ∧ h.lookup .follow lost = .error .notFound ∧
      staysWithin h root lost = false ∧
      (∀ q, lost.HasAncestor q → h.Met q → h.Seen q) ∧ lost.Longest h.Seen lost ∧
      (∀ q, (Path.ofString "new").HasAncestor q → ¬ h.Met q) ∧
      staysWithin h root (Path.ofString "new") = false ∧
      h.Met leave ∧ ¬ h.Seen leave ∧ h.Barred leave ∧ ¬ staysWithin h root leave = true := by
  intro h root lost leave
  have htree : h.WellFormed := by decide
  have hhome : ∃ perms t, h.entryAt? h.cwd = some (.directory perms t) :=
    ⟨.newDirectory, ⟨0, 0⟩, rfl⟩
  have hfound : h.lookup .entry lost = .ok ([Utf8.encode "srv", Utf8.encode "lost"],
      .symlink (Path.ofString "nowhere") ⟨0, 0⟩) := by cbv
  have hlost : lost.Longest h.Met lost :=
    (Path.longest_iff_of_holds (.inr ⟨_, hfound⟩)).mpr rfl
  have hnowhere : h.lookup .follow lost = .error .notFound := by cbv
  have hseen : ∀ q, lost.HasAncestor q → h.Met q → h.Seen q := by
    have hsrv : h.lookup .entry (Path.ofString "/srv") =
        .ok ([Utf8.encode "srv"], .directory .newDirectory ⟨0, 0⟩) := by cbv
    have htop : h.lookup .entry (Path.ofString "/") = .ok ([], .directory .system ⟨0, 0⟩) := by cbv
    have hancestors : lost.ancestors = [lost, Path.ofString "/srv", Path.ofString "/"] := by decide
    intro q hq _
    rw [← Path.mem_ancestors_iff, hancestors, List.mem_cons, List.mem_pair] at hq
    rcases hq with rfl | rfl | rfl
    · exact ⟨_, hfound⟩
    · exact ⟨_, hsrv⟩
    · exact ⟨_, htop⟩
  have hnone : ∀ q, (Path.ofString "new").HasAncestor q → ¬ h.Met q := by
    have hnew : h.canonicalize (Path.ofString "new") = .error .notFound := by cbv
    have hnew' : h.lookup .entry (Path.ofString "new") = .error .notFound := by cbv
    have hancestors : (Path.ofString "new").ancestors = [Path.ofString "new", ⟨[]⟩] := by decide
    intro q hq
    rw [← Path.mem_ancestors_iff, hancestors, List.mem_pair] at hq
    rcases hq with rfl | rfl
    · exact Host.not_met_of_errors hnew hnew'
    · exact Host.not_met_of_errors rfl rfl
  have hleave : h.Met leave := .inl ⟨_, Host.canonicalize_leave⟩
  have hbarred : h.Barred leave := by
    obtain ⟨-, -, -, -, -, -, htrees⟩ := longest_ancestor_decides h root leave
    have hshort : leave.text.length ≤ Host.maxPath := by decide
    exact ((htrees htree hhome).1 leave hleave Host.not_seen_leave).resolve_left
      (Nat.not_lt.mpr hshort)
  refine ⟨htree, hhome, hlost, hnowhere, ?_, hseen, ?_, hnone, ?_, hleave, Host.not_seen_leave, hbarred,
    ?_⟩
  · obtain ⟨-, -, -, -, -, -, htrees⟩ := longest_ancestor_decides h root lost
    exact (htrees htree hhome).2 lost _ hlost hnowhere (fun hcause => by cases hcause)
      (fun hcause => by cases hcause)
  · obtain ⟨-, -, -, -, -, hlongest, -⟩ := longest_ancestor_decides h root lost
    exact (hlongest hseen lost).mp hlost
  · obtain ⟨-, -, -, -, hrefused, -⟩ := longest_ancestor_decides h root (Path.ofString "new")
    exact hrefused hnone
  · obtain ⟨-, -, hdecides, -⟩ := longest_ancestor_decides h root leave
    rw [hdecides]
    rintro ⟨q, real, hq, hreal, hstarts⟩
    obtain rfl := (Path.longest_iff_of_holds hleave).mp hq
    cases Host.canonicalize_leave.symm.trans hreal
    exact absurd hstarts (by decide)

/-- **The longest ancestor that can be looked up need not decide.** Behind a link that leads inside by
way of a directory that is shut, a path that leads outside is refused; and behind one that leads
outside, a path that leads inside is accepted. -/
theorem seen_ancestor_does_not_decide :
    let h := Host.roundabout
    let root := Path.ofString "/srv"
    let accepted (p : Path) : Prop := ∃ q real, p.Longest h.Seen q ∧
      h.canonicalize q = .ok real ∧ root.components <+: real.components
    (accepted (Path.ofString "/srv/in/leave") ∧
      staysWithin h root (Path.ofString "/srv/in/leave") = false) ∧
    (¬ accepted (Path.ofString "/srv/out/return") ∧
      staysWithin h root (Path.ofString "/srv/out/return") = true) := by
  intro h root accepted
  have hin : h.canonicalize (Path.ofString "/srv/in") = .ok (Path.ofString "/srv/inner") := by cbv
  have hout : h.canonicalize (Path.ofString "/srv/out") = .ok (Path.ofString "/outer") := by cbv
  have hreturn : h.canonicalize (Path.ofString "/srv/out/return") =
      .ok (Path.ofString "/srv/inner") := by cbv
  have hinside : root.components <+: (Path.ofString "/srv/inner").components := by decide
  have houtside : ¬ root.components <+: (Path.ofString "/outer").components := by decide
  refine ⟨⟨?_, ?_⟩, ?_, ?_⟩
  · exact ⟨_, _, (Path.longest_iff_of_parent Host.not_seen_leave (by decide) Host.seen_in).mpr rfl, hin,
      hinside⟩
  · rw [staysWithin_of_canonicalize Host.canonicalize_leave]
    decide
  · rintro ⟨q, real, hq, hreal, hstarts⟩
    obtain rfl :=
      (Path.longest_iff_of_parent Host.not_seen_return (by decide) Host.seen_out).mp hq
    cases hout.symm.trans hreal
    exact houtside hstarts
  · rw [staysWithin_of_canonicalize hreturn]
    decide

end Scope

end Telefile
