import Telefile.Proofs.Confinement.Firm
import Telefile.Proofs.Lookup.Ends
import Telefile.Proofs.Lookup.Failures

/-!
# Canonical paths of what cannot be looked up

A lookup and the search for a canonical path go the same way, name by name, but not by the same rules.
A lookup asks for search in every directory that it reads a name in, dots included, and it takes no path
that is too long. So a path may have a canonical path and still not be looked up: then, and only then,
it is too long, or a dot is read in a directory that may not be searched.

* `Host.trace_of_advances` — a step of the lookup keeps the canonical path;
* `Host.Barred` — a lookup comes to a dot in a directory that may not be searched;
* `Host.barred_of_stuck` — where a lookup is stuck although there is a canonical path;
* **`Host.lookup_eq_error_iff_of_canonicalize`** — when a lookup fails although there is a canonical
  path, and with which cause.
-/

namespace Telefile

namespace Host

variable {h : Host} {links : Nat} {here l : Location} {slash : Bool} {n : Name} {rest : List Name}

/-! ## 1. Where a canonical path leads on -/

/-- Dots lead nowhere. -/
theorem trace_dropWhile (h : Host) (links : Nat) (here : Location) (slash : Bool)
    (names : List Name) :
    h.trace links here slash names =
      h.trace links here slash (names.dropWhile fun n => n == Path.dot) := by
  induction names with
  | nil => rfl
  | cons n rest ih =>
    by_cases hdot : n = Path.dot
    · subst hdot
      rw [trace_dot, ih]
      rfl
    · rw [List.dropWhile_cons_of_neg (by simpa using hdot)]

theorem mayPrecede_of_trace {e : Entry} (hdot : n ≠ Path.dot) (hdotdot : n ≠ Path.dotdot)
    (he : h.entryAt? (here ++ [n]) = some e) (hlink : e.isLink = false)
    (ht : h.trace links here slash (n :: rest) = .ok l) :
    mayPrecede (here ++ [n]) e rest slash = .ok () := by
  obtain ⟨e', he', hg⟩ := glance_of_trace hdot hdotdot ht
  obtain rfl := Option.some.inj (he.symm.trans he')
  rw [trace.eq_def] at ht
  simp only [if_neg hdot, if_neg hdotdot, hg] at ht
  cases e with
  | symlink target t => cases hlink
  | _ =>
    dsimp only at ht
    split at ht
    · cases ht
    · next hmay => exact hmay

theorem isDir_of_mayPrecede {e : Entry} (hmay : mayPrecede here e rest slash = .ok ())
    (hleaves : leavesDirectory rest slash = true) : e.isDir = true := by
  unfold mayPrecede at hmay
  rw [hleaves] at hmay
  by_contra hfile
  rw [Bool.not_eq_true] at hfile
  rw [hfile] at hmay
  cases hmay

/-- Where no directory is asked for, the path ends or a name comes next. -/
theorem leavesDirectory_eq_false_cases (hleaves : leavesDirectory rest slash = false) :
    (rest = [] ∧ slash = false) ∨ ∃ m more, (rest.dropWhile fun n => n == Path.dot) = m :: more ∧
      m ≠ Path.dot ∧ m ≠ Path.dotdot := by
  unfold leavesDirectory at hleaves
  cases hdrop : rest.dropWhile fun n => n == Path.dot with
  | nil =>
    rw [hdrop] at hleaves
    exact .inl (by simpa using hleaves)
  | cons m more =>
    rw [hdrop] at hleaves
    have hhead := List.head?_dropWhile_not (fun n => n == Path.dot) rest
    rw [hdrop] at hhead
    exact .inr ⟨m, more, rfl, by simpa using hhead, by simpa using hleaves⟩

/-- Before more names, or a slash, stands a directory. -/
theorem isDir_of_trace {e : Entry} (hdot : n ≠ Path.dot) (hdotdot : n ≠ Path.dotdot)
    (he : h.entryAt? (here ++ [n]) = some e) (hlink : e.isLink = false)
    (ht : h.trace links here slash (n :: rest) = .ok l)
    (hneeded : ¬ (rest = [] ∧ slash = false)) : e.isDir = true := by
  cases hleaves : leavesDirectory rest slash with
  | true => exact isDir_of_mayPrecede (mayPrecede_of_trace hdot hdotdot he hlink ht) hleaves
  | false =>
    rcases leavesDirectory_eq_false_cases hleaves with hend | ⟨m, more, hdrop, hm, hm'⟩
    · exact absurd hend hneeded
    · -- the next name is looked at in a directory
      have hnext := trace_of_entry hdot hdotdot he hlink ht
      rw [trace_dropWhile, hdrop] at hnext
      obtain ⟨e', -, hg⟩ := glance_of_trace hm hm' hnext
      obtain ⟨p, t, hdir⟩ := isDirectory_of_pass (glance_eq_ok_iff.mp hg).2.1
      obtain rfl := Option.some.inj (he.symm.trans hdir)
      rfl

/-- **A step of the lookup keeps the canonical path.** -/
theorem trace_of_advances {g g' : LookupState} (hg : h.Advances g g')
    (ht : h.trace g.links g.here g.slash g.names = .ok l) :
    h.trace g'.links g'.here g'.slash g'.names = .ok l := by
  cases hg with
  | dot hpass => exact trace_dot.symm.trans ht
  | up hpass => exact trace_dotdot.symm.trans ht
  | link hpass hn he => exact trace_of_link hn.not_dot hn.not_dotdot he ht
  | down hpass hn he hne => exact trace_of_entry hn.not_dot hn.not_dotdot he rfl ht

/-- In a tree, a lookup goes from directory to directory. -/
theorem directory_of_advances (htree : h.WellFormed) {g g' : LookupState} (hg : h.Advances g g')
    (hdir : ∃ p t, h.entryAt? g.here = some (.directory p t)) :
    ∃ p t, h.entryAt? g'.here = some (.directory p t) := by
  cases hg with
  | dot hpass => exact hdir
  | up hpass => exact htree.directory_of_prefix hdir (List.dropLast_prefix _)
  | link hpass hn he =>
    dsimp only
    split
    · exact htree.directory_of_prefix hdir (List.nil_prefix)
    · exact hdir
  | down hpass hn he hne => exact ⟨_, _, he⟩

/-! ## 2. Where a lookup is stuck -/

/-- A dot or two, to be read in a directory that may not be searched. -/
def DotBarred (h : Host) (g : LookupState) : Prop :=
  ∃ n rest p t, g.names = n :: rest ∧ (n = Path.dot ∨ n = Path.dotdot) ∧
    h.entryAt? g.here = some (.directory p t) ∧ p.allows .search = false

/-- The lookup of a path comes to a dot or two in a directory that may not be searched. -/
def Barred (h : Host) (p : Path) : Prop :=
  ∃ g, Relation.ReflTransGen h.Advances (h.outset p) g ∧ h.DotBarred g

/-- Where a lookup is stuck in a directory although there is a canonical path, it has come to a dot. -/
theorem barred_of_stuck {g : LookupState} {cause : HostError} (hg : h.Stuck g cause)
    (ht : h.trace g.links g.here g.slash g.names = .ok l)
    (hdir : ∃ p t, h.entryAt? g.here = some (.directory p t)) :
    cause = .permissionDenied ∧ h.DotBarred g := by
  obtain ⟨p, t, hhere⟩ := hdir
  cases hg with
  | gone he =>
    rw [he] at hhere
    cases hhere
  | replaced he hfile =>
    rw [he] at hhere
    cases hhere
    cases hfile
  | @barred links here slash n rest p t he hsearch =>
    refine ⟨rfl, n, rest, p, t, rfl, ?_, he, hsearch⟩
    by_contra hname
    obtain ⟨hdot, hdotdot⟩ := not_or.mp hname
    obtain ⟨e, -, hglance⟩ := glance_of_trace hdot hdotdot ht
    have hpass := (glance_eq_ok_iff.mp hglance).2.1
    rw [pass_of_directory he, hsearch] at hpass
    cases hpass
  | long hpass hdot hdotdot hlong =>
    obtain ⟨e, -, hglance⟩ := glance_of_trace hdot hdotdot ht
    exact absurd (glance_eq_ok_iff.mp hglance).2.2.1 (Nat.not_le.mpr hlong)
  | missing hpass hn he =>
    obtain ⟨e, he', -⟩ := glance_of_trace hn.not_dot hn.not_dotdot ht
    rw [he] at he'
    cases he'
  | @loop here slash n rest target t hpass hn he =>
    obtain ⟨e, he', hglance⟩ := glance_of_trace hn.not_dot hn.not_dotdot ht
    obtain rfl := Option.some.inj (he.symm.trans he')
    dsimp only at ht
    rw [trace.eq_def] at ht
    simp only [if_neg hn.not_dot, if_neg hn.not_dotdot, hglance] at ht
    cases ht
  | blocked hpass hn he hlink hfile hneeded =>
    rw [isDir_of_trace hn.not_dot hn.not_dotdot he hlink ht hneeded] at hfile
    cases hfile

/-- A lookup that steps along a canonical path stays on it, and in directories. -/
theorem barred_of_getsStuck (htree : h.WellFormed) {g g' : LookupState} {cause : HostError}
    (hsteps : Relation.ReflTransGen h.Advances g g') (hstuck : h.Stuck g' cause)
    (ht : h.trace g.links g.here g.slash g.names = .ok l)
    (hdir : ∃ p t, h.entryAt? g.here = some (.directory p t)) :
    cause = .permissionDenied ∧ h.DotBarred g' := by
  induction hsteps using Relation.ReflTransGen.head_induction_on with
  | refl => exact barred_of_stuck hstuck ht hdir
  | head hstep _ ih => exact ih (trace_of_advances hstep ht) (directory_of_advances htree hstep hdir)

/-! ## 3. Paths -/

variable {p real : Path}

theorem not_empty_of_canonicalize (hreal : h.canonicalize p = .ok real) : p.text ≠ [] := by
  intro hempty
  unfold canonicalize at hreal
  rw [hempty] at hreal
  cases hreal

theorem lookup_of_long {last : LastStep} (hnul : 0 ∉ p.text) (hlong : maxPath < p.text.length) :
    h.lookup last p = .error .nameTooLong := by
  have hne : p.text ≠ [] := by
    intro hempty
    rw [hempty] at hlong
    cases hlong
  unfold lookup arrive
  rw [if_neg hnul, if_neg hne, if_pos hlong]

/-- The working directory is there. -/
theorem directory_of_outset (htree : h.WellFormed)
    (hhome : ∃ p t, h.entryAt? h.cwd = some (.directory p t)) (p : Path) :
    ∃ q t, h.entryAt? (h.outset p).here = some (.directory q t) := by
  unfold outset
  dsimp only
  split
  · exact htree.directory_of_prefix hhome List.nil_prefix
  · exact hhome

/-- **What has a canonical path can be looked up**, unless the path is too long, or the lookup comes to
a dot in a directory that may not be searched. -/
theorem lookup_eq_error_iff_of_canonicalize (htree : h.WellFormed)
    (hhome : ∃ p t, h.entryAt? h.cwd = some (.directory p t))
    (hreal : h.canonicalize p = .ok real) (cause : HostError) :
    h.lookup .follow p = .error cause ↔
      cause = .nameTooLong ∧ maxPath < p.text.length ∨
      cause = .permissionDenied ∧ p.text.length ≤ maxPath ∧ h.Barred p := by
  obtain ⟨hnul, l, -, ht⟩ := canonicalize_ok hreal
  by_cases hlong : maxPath < p.text.length
  · rw [lookup_of_long hnul hlong, Except.error.injEq]
    simp only [hlong, Nat.not_le.mpr hlong, and_true, false_and, and_false, or_false]
    exact eq_comm
  · have hshort := Nat.le_of_not_lt hlong
    rw [lookup_eq_error_iff ⟨hnul, not_empty_of_canonicalize hreal, hshort⟩]
    simp only [hlong, hshort, and_false, true_and, false_or]
    constructor
    · rintro ⟨g, hsteps, hstuck⟩
      obtain ⟨hcause, hbarred⟩ :=
        barred_of_getsStuck htree hsteps hstuck ht (directory_of_outset htree hhome p)
      exact ⟨hcause, g, hsteps, hbarred⟩
    · rintro ⟨rfl, ⟨links, here, slash, names⟩, hsteps, n, rest, q, t, hnames, -, he, hsearch⟩
      dsimp only at hnames he
      subst hnames
      exact ⟨_, hsteps, .barred he hsearch⟩

end Host

end Telefile
