import Mathlib.Logic.Relation
import Telefile.Proofs.Lookup.Compare

/-!
# Why a lookup fails

A lookup goes on name by name. Wherever it has come to it is through, or takes one more step, or is
stuck; and where it is stuck says why it fails. Here every link is followed, the last one too.

* `LookupState` — how far a lookup has come; `Host.Advances` — the steps;
* `Host.Stuck` — the places where it cannot go on, each with the cause of the failure;
* **`Host.proceeds`** — what is neither through nor stuck takes a step;
* **`Host.finds_eq_error_iff`** — a lookup fails exactly if its steps lead to where it is stuck;
* `Path.Sound`, `Host.GetsStuck`, **`Host.lookup_eq_error_iff`** — the same for the paths that a
  host takes.
-/

namespace Telefile

/-- How far a lookup has come. -/
structure LookupState where
  /-- The links that may still be followed. -/
  links : Nat
  here : Location
  /-- The path ends in a slash. -/
  slash : Bool
  /-- The names that are left. -/
  names : List Name

namespace Host

/-! ## 1. Steps -/

/-- One step of a lookup. -/
inductive Advances (h : Host) : LookupState → LookupState → Prop
  | dot {links here slash rest} (hpass : h.pass here = .ok ()) :
    Advances h ⟨links, here, slash, Path.dot :: rest⟩ ⟨links, here, slash, rest⟩
  | up {links here slash rest} (hpass : h.pass here = .ok ()) :
    Advances h ⟨links, here, slash, Path.dotdot :: rest⟩ ⟨links, here.dropLast, slash, rest⟩
  /-- A link is followed. -/
  | link {links here slash n rest target t} (hpass : h.pass here = .ok ())
    (hn : Taken .follow slash n rest)
    (he : h.entryAt? (here ++ [n]) = some (.symlink target t)) :
    Advances h ⟨links + 1, here, slash, n :: rest⟩
      ⟨links, if target.isAbsolute then [] else here,
        slash || (decide (rest = []) && target.endsInSlash), target.names ++ rest⟩
  /-- A directory on the way. -/
  | down {links here slash n rest p t} (hpass : h.pass here = .ok ())
    (hn : Taken .follow slash n rest) (he : h.entryAt? (here ++ [n]) = some (.directory p t))
    (hne : rest ≠ []) :
    Advances h ⟨links, here, slash, n :: rest⟩ ⟨links, here ++ [n], slash, rest⟩

/-- A lookup cannot go on, and why. -/
inductive Stuck (h : Host) : LookupState → HostError → Prop
  /-- The directory to go on from is gone. -/
  | gone {links here slash names} (he : h.entryAt? here = none) :
    Stuck h ⟨links, here, slash, names⟩ .notFound
  /-- What to go on from is no directory. -/
  | replaced {links here slash n rest e} (he : h.entryAt? here = some e)
    (hdir : e.isDir = false) : Stuck h ⟨links, here, slash, n :: rest⟩ .notADirectory
  /-- The directory may not be searched. -/
  | barred {links here slash n rest p t} (he : h.entryAt? here = some (.directory p t))
    (hsearch : p.allows .search = false) :
    Stuck h ⟨links, here, slash, n :: rest⟩ .permissionDenied
  | long {links here slash n rest} (hpass : h.pass here = .ok ()) (hdot : n ≠ Path.dot)
    (hdotdot : n ≠ Path.dotdot) (hlong : maxName < n.length) :
    Stuck h ⟨links, here, slash, n :: rest⟩ .nameTooLong
  /-- The directory does not hold the name. -/
  | missing {links here slash n rest} (hpass : h.pass here = .ok ())
    (hn : Taken .follow slash n rest) (he : h.entryAt? (here ++ [n]) = none) :
    Stuck h ⟨links, here, slash, n :: rest⟩ .notFound
  /-- One link too many. -/
  | loop {here slash n rest target t} (hpass : h.pass here = .ok ())
    (hn : Taken .follow slash n rest)
    (he : h.entryAt? (here ++ [n]) = some (.symlink target t)) :
    Stuck h ⟨0, here, slash, n :: rest⟩ .tooManyLinks
  /-- A file stands where a directory is needed. -/
  | blocked {links here slash n rest e} (hpass : h.pass here = .ok ())
    (hn : Taken .follow slash n rest) (he : h.entryAt? (here ++ [n]) = some e)
    (hlink : e.isLink = false) (hdir : e.isDir = false) (hneeded : ¬ (rest = [] ∧ slash = false)) :
    Stuck h ⟨links, here, slash, n :: rest⟩ .notADirectory

/-- What a lookup has come to in the end; a name that is not there is no entry. -/
def atEnd : Except HostError Arrival → Except HostError (Location × Entry)
  | .ok (.found l e) => .ok (l, e)
  | .ok (.vacant ..) => .error .notFound
  | .error e => .error e

/-- What is found from here on. -/
def finds (h : Host) (g : LookupState) : Except HostError (Location × Entry) :=
  atEnd (h.walk .follow g.links g.here g.slash g.names)

/-- What becomes of a lookup that has come to `g`. -/
inductive Proceeds (h : Host) (g : LookupState) : Prop
  | through {l e} (hfound : h.finds g = .ok (l, e))
  | stuck {cause} (hstuck : h.Stuck g cause)
  | advances {g'} (hstep : h.Advances g g')

variable {h : Host} {g g' : LookupState} {cause : HostError}

/-! ## 2. What a step comes to -/

/-- A step does not change what is found. -/
theorem finds_of_advances (hg : h.Advances g g') : h.finds g = h.finds g' := by
  refine congrArg atEnd ?_
  cases hg with
  | dot hpass => exact walk_dot hpass
  | up hpass => exact walk_dotdot hpass
  | link hpass hn he =>
    dsimp only
    rw [walk_taken hpass hn, he]
    exact if_neg follow_never_stops
  | down hpass hn he hne =>
    dsimp only
    rw [walk_taken hpass hn, he]
    exact if_neg hne

/-- Where a lookup is stuck, it fails. -/
theorem finds_of_stuck (hg : h.Stuck g cause) : h.finds g = .error cause := by
  unfold finds
  cases hg with
  | @gone links here slash names he =>
    cases names with
    | nil =>
      dsimp only
      rw [walk_nil, he]
      rfl
    | cons n rest => exact congrArg atEnd (walk_of_pass_error (pass_of_gone he))
  | replaced he hdir => exact congrArg atEnd (walk_of_pass_error (pass_of_replaced he hdir))
  | barred he hsearch =>
    have hpass := pass_of_directory he
    rw [hsearch] at hpass
    exact congrArg atEnd (walk_of_pass_error hpass)
  | long hpass hdot hdotdot hlong =>
    dsimp only
    rw [walk.eq_def]
    simp only [hpass, if_neg hdot, if_neg hdotdot, if_neg follow_never_refused, if_pos hlong]
    rfl
  | @missing links here slash n rest hpass hn he =>
    dsimp only
    rw [walk_taken hpass hn, he]
    by_cases hrest : rest = []
    · dsimp only
      rw [if_pos hrest]
      rfl
    · dsimp only
      rw [if_neg hrest]
      rfl
  | loop hpass hn he =>
    dsimp only
    rw [walk_taken hpass hn, he]
    exact congrArg atEnd (if_neg follow_never_stops)
  | @blocked links here slash n rest e hpass hn he hlink hdir hneeded =>
    dsimp only
    rw [walk_taken hpass hn, he]
    cases e with
    | directory p t => cases hdir
    | symlink target t => cases hlink
    | file id => exact congrArg atEnd (if_neg hneeded)
    | device d => exact congrArg atEnd (if_neg hneeded)

/-- At a name that is looked up, its entry decides. -/
theorem proceeds_of_taken (links : Nat) {here : Location} {slash : Bool} {n : Name}
    {rest : List Name} (hpass : h.pass here = .ok ()) (hn : Taken .follow slash n rest) :
    h.Proceeds ⟨links, here, slash, n :: rest⟩ := by
  have hwalk : h.walk .follow links here slash (n :: rest) = _ := walk_taken hpass hn
  rcases he : h.entryAt? (here ++ [n]) with _ | ⟨p, t⟩ | ⟨target, t⟩ | id | d <;> rw [he] at hwalk
  · exact .stuck (.missing hpass hn he)
  · by_cases hrest : rest = []
    · exact .through (congrArg atEnd (hwalk.trans (if_pos hrest)))
    · exact .advances (.down hpass hn he hrest)
  · cases links with
    | zero => exact .stuck (.loop hpass hn he)
    | succ left => exact .advances (.link hpass hn he)
  all_goals
    by_cases hneeded : rest = [] ∧ slash = false
    · exact .through (congrArg atEnd (hwalk.trans (if_pos hneeded)))
    · exact .stuck (.blocked hpass hn he rfl rfl hneeded)

/-- From a directory that may be searched, the next name decides. -/
theorem proceeds_of_pass (links : Nat) {here : Location} {slash : Bool} {n : Name}
    {rest : List Name} (hpass : h.pass here = .ok ()) :
    h.Proceeds ⟨links, here, slash, n :: rest⟩ := by
  by_cases hdot : n = Path.dot
  · subst hdot
    exact .advances (.dot hpass)
  by_cases hdotdot : n = Path.dotdot
  · subst hdotdot
    exact .advances (.up hpass)
  by_cases hlong : maxName < n.length
  · exact .stuck (.long hpass hdot hdotdot hlong)
  · have hn : Taken .follow slash n rest :=
      ⟨hdot, hdotdot, follow_never_refused, Nat.le_of_not_lt hlong⟩
    exact proceeds_of_taken links hpass hn

/-- **What is neither through nor stuck takes a step.** -/
theorem proceeds (h : Host) (g : LookupState) : h.Proceeds g := by
  obtain ⟨links, here, slash, names⟩ := g
  cases hhere : h.entryAt? here with
  | none => exact .stuck (.gone hhere)
  | some e =>
    cases names with
    | nil =>
      have hwalk : h.walk .follow links here slash [] = .ok (.found here e) := by
        rw [walk_nil, hhere]
      exact .through (congrArg atEnd hwalk)
    | cons n rest =>
      cases hdir : e.isDir with
      | false => exact .stuck (.replaced hhere hdir)
      | true =>
        obtain ⟨p, t, rfl⟩ := isDirectory_of_isDir hdir
        have hpass := pass_of_directory hhere
        cases hsearch : p.allows .search with
        | false => exact .stuck (.barred hhere hsearch)
        | true =>
          rw [hsearch] at hpass
          exact proceeds_of_pass links hpass

/-! ## 3. Where lookups fail -/

/-- A step takes a name, or follows a link. -/
theorem Advances.shorter (hg : h.Advances g g') :
    (g'.links = g.links ∧ ∃ n, g.names = n :: g'.names) ∨ g.links = g'.links + 1 := by
  cases hg with
  | link => exact .inr rfl
  | _ => exact .inl ⟨rfl, _, rfl⟩

/-- A lookup that fails has steps that lead to where it is stuck. -/
theorem stuck_of_finds_error : ∀ (links : Nat) (names : List Name) {here : Location} {slash : Bool},
    h.finds ⟨links, here, slash, names⟩ = .error cause →
      ∃ g, Relation.ReflTransGen h.Advances ⟨links, here, slash, names⟩ g ∧ h.Stuck g cause := by
  refine walk_induction fun links names ihnames ihlinks => ?_
  intro here slash herror
  cases h.proceeds ⟨links, here, slash, names⟩ with
  | through hfound =>
    rw [hfound] at herror
    cases herror
  | stuck hstuck =>
    -- the cause is the one that the lookup gives
    rw [finds_of_stuck hstuck] at herror
    cases herror
    exact ⟨_, .refl, hstuck⟩
  | @advances g' hstep =>
    rw [finds_of_advances hstep] at herror
    obtain ⟨g, hsteps, hstuck⟩ : ∃ g, Relation.ReflTransGen h.Advances g' g ∧ h.Stuck g cause := by
      obtain ⟨links', here', slash', names'⟩ := g'
      rcases hstep.shorter with ⟨hlinks, n, hnames⟩ | hlinks
      · cases hlinks
        exact ihnames n names' hnames herror
      · exact ihlinks links' hlinks names' herror
    exact ⟨g, .head hstep hsteps, hstuck⟩

/-- **A lookup fails exactly if its steps lead to where it is stuck.** -/
theorem finds_eq_error_iff : h.finds g = .error cause ↔
    ∃ g', Relation.ReflTransGen h.Advances g g' ∧ h.Stuck g' cause := by
  refine ⟨stuck_of_finds_error g.links g.names, ?_⟩
  rintro ⟨g', hsteps, hstuck⟩
  induction hsteps using Relation.ReflTransGen.head_induction_on with
  | refl => exact finds_of_stuck hstuck
  | head hstep _ ih => rw [finds_of_advances hstep, ih]

end Host

/-! ## 4. Paths -/

/-- A path that a host takes. -/
structure Path.Sound (p : Path) : Prop where
  no_nul : 0 ∉ p.text
  not_empty : p.text ≠ []
  short : p.text.length ≤ Host.maxPath

namespace Host

variable {h : Host} {p : Path} {cause : HostError}

/-- Where the lookup of a path begins. -/
def outset (h : Host) (p : Path) : LookupState :=
  ⟨maxLinks, if p.isAbsolute then [] else h.cwd, p.endsInSlash, p.names⟩

/-- The lookup of a path gets stuck. -/
def GetsStuck (h : Host) (p : Path) (cause : HostError) : Prop :=
  ∃ g, Relation.ReflTransGen h.Advances (h.outset p) g ∧ h.Stuck g cause

theorem sound_of_lookup {last : LastStep} {l : Location} {e : Entry}
    (hl : h.lookup last p = .ok (l, e)) : p.Sound := by
  obtain ⟨⟨hnul, hempty, hshort⟩, -⟩ := arrive_eq_ok_iff.mp (lookup_eq_ok_iff.mp hl)
  exact ⟨hnul, hempty, hshort⟩

/-- **The lookup of a path fails exactly if it gets stuck**, if a host takes the path. -/
theorem lookup_eq_error_iff (hp : p.Sound) :
    h.lookup .follow p = .error cause ↔ h.GetsStuck p cause := by
  have hfinds : h.lookup .follow p = h.finds (h.outset p) := by
    show atEnd (h.arrive .follow p) = _
    unfold arrive
    rw [if_neg hp.no_nul, if_neg hp.not_empty, if_neg (Nat.not_lt.mpr hp.short)]
    rfl
  rw [hfinds]
  exact finds_eq_error_iff

end Host

end Telefile
