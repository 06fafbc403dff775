import Telefile.Host.Lookup

/-!
# Ways through the tree

A lookup that arrives has taken a way: a chain of steps, one for each name, with the names of a
link's target in the place of the link. `Host.Walks` says which ways there are, one constructor for
each kind of step, and facts about lookups are shown by induction on the way.

* `Taken` — a name that is looked up as an entry;
* `Host.Walks` — the ways;
* **`Host.walk_eq_ok_iff`** — a lookup arrives exactly where a way leads.
-/

namespace Telefile

/-- The name `n`, with the names `rest` behind it, is looked up as an entry. -/
structure Taken (last : LastStep) (slash : Bool) (n : Name) (rest : List Name) : Prop where
  not_dot : n ≠ Path.dot
  not_dotdot : n ≠ Path.dotdot
  not_refused : ¬ (rest = [] ∧ slash = true ∧ last.creates = true)
  short : n.length ≤ Host.maxName

/-- Whether the entry is a link. -/
def Entry.isLink : Entry → Bool
  | symlink .. => true
  | directory .. | file _ | device _ => false

/-- The ways from the directory at `here` through names, with some links left to follow. -/
inductive Host.Walks (h : Host) (last : LastStep) :
    Nat → Location → Bool → List Name → Arrival → Prop
  /-- No name is left. -/
  | done {links here slash e} (he : h.entryAt? here = some e) :
    Walks h last links here slash [] (.found here e)
  | dot {links here slash rest a} (hpass : h.pass here = .ok ())
    (hrest : Walks h last links here slash rest a) :
    Walks h last links here slash (Path.dot :: rest) a
  | up {links here slash rest a} (hpass : h.pass here = .ok ())
    (hrest : Walks h last links here.dropLast slash rest a) :
    Walks h last links here slash (Path.dotdot :: rest) a
  /-- The last name is not there. -/
  | vacant {links here slash n} (hpass : h.pass here = .ok ()) (hn : Taken last slash n [])
    (he : h.entryAt? (here ++ [n]) = none) :
    Walks h last links here slash [n] (.vacant here n)
  /-- The last name is a link that is not followed. -/
  | stop {links here n target t} (hpass : h.pass here = .ok ()) (hn : Taken last false n [])
    (he : h.entryAt? (here ++ [n]) = some (.symlink target t)) (hlast : last.follows = false) :
    Walks h last links here false [n] (.found (here ++ [n]) (.symlink target t))
  /-- A link is followed. -/
  | link {links here slash n rest target t a} (hpass : h.pass here = .ok ())
    (hn : Taken last slash n rest) (he : h.entryAt? (here ++ [n]) = some (.symlink target t))
    (hgo : ¬ (rest = [] ∧ slash = false ∧ last.follows = false))
    (hrest : Walks h last links (if target.isAbsolute then [] else here)
      (slash || (decide (rest = []) && target.endsInSlash)) (target.names ++ rest) a) :
    Walks h last (links + 1) here slash (n :: rest) a
  /-- The last name is no link. -/
  | reach {links here slash n e} (hpass : h.pass here = .ok ()) (hn : Taken last slash n [])
    (he : h.entryAt? (here ++ [n]) = some e) (hlink : e.isLink = false)
    (hdir : e.isDir = true ∨ slash = false) :
    Walks h last links here slash [n] (.found (here ++ [n]) e)
  /-- A directory on the way. -/
  | down {links here slash n rest p t a} (hpass : h.pass here = .ok ())
    (hn : Taken last slash n rest) (he : h.entryAt? (here ++ [n]) = some (.directory p t))
    (hne : rest ≠ []) (hrest : Walks h last links (here ++ [n]) slash rest a) :
    Walks h last links here slash (n :: rest) a

namespace Host

variable {h : Host} {last : LastStep}

/-! ## 1. The equations of a lookup -/

section Pass

variable {here : Location}

theorem pass_of_gone (he : h.entryAt? here = none) : h.pass here = .error .notFound := by
  unfold pass
  rw [he]

theorem pass_of_directory {p : Perms} {t : Timestamp}
    (he : h.entryAt? here = some (.directory p t)) :
    h.pass here = if p.allows .search then .ok () else .error .permissionDenied := by
  unfold pass
  rw [he]

/-- Directories with the same permissions are passed alike. -/
theorem pass_congr {h' : Host} {there : Location} {p : Perms} {t t' : Timestamp}
    (he : h.entryAt? here = some (.directory p t))
    (he' : h'.entryAt? there = some (.directory p t')) : h.pass here = h'.pass there := by
  rw [pass_of_directory he, pass_of_directory he']

theorem pass_of_replaced {e : Entry} (he : h.entryAt? here = some e) (hdir : e.isDir = false) :
    h.pass here = .error .notADirectory := by
  unfold pass
  rw [he]
  cases e with
  | directory p t => cases hdir
  | _ => rfl

end Pass

section Equations

variable {links : Nat} {here : Location} {slash : Bool} {n : Name} {rest : List Name}

theorem walk_nil : h.walk last links here slash [] =
    match h.entryAt? here with
    | some e => .ok (.found here e)
    | none => .error .notFound := by
  have hstep := walk.eq_def h last links here slash []
  exact hstep

theorem walk_of_pass_error {e : HostError} (hpass : h.pass here = .error e) :
    h.walk last links here slash (n :: rest) = .error e := by
  rw [walk.eq_def]
  simp only [hpass]

theorem walk_dot (hpass : h.pass here = .ok ()) :
    h.walk last links here slash (Path.dot :: rest) = h.walk last links here slash rest := by
  rw [walk.eq_def]
  simp only [hpass, if_true]

theorem walk_dotdot (hpass : h.pass here = .ok ()) :
    h.walk last links here slash (Path.dotdot :: rest) =
      h.walk last links here.dropLast slash rest := by
  have hne : Path.dotdot ≠ Path.dot := by decide
  rw [walk.eq_def]
  simp only [hpass, if_neg hne, if_true]

/-- Where links are followed, one at the end is followed too. -/
theorem follow_never_stops : ¬ (rest = [] ∧ slash = false ∧ LastStep.follow.follows = false) :=
  fun hand => Bool.noConfusion hand.2.2

/-- Where links are followed, nothing is created. -/
theorem follow_never_refused : ¬ (rest = [] ∧ slash = true ∧ LastStep.follow.creates = true) :=
  fun hand => Bool.noConfusion hand.2.2

/-- What is met at a name that is looked up decides. -/
theorem walk_taken (hpass : h.pass here = .ok ()) (hn : Taken last slash n rest) :
    h.walk last links here slash (n :: rest) =
      match h.entryAt? (here ++ [n]) with
      | none => if rest = [] then .ok (.vacant here n) else .error .notFound
      | some (.symlink target t) =>
        if rest = [] ∧ slash = false ∧ last.follows = false then
          .ok (.found (here ++ [n]) (.symlink target t))
        else
          match links with
          | 0 => .error .tooManyLinks
          | left + 1 =>
            h.walk last left (if target.isAbsolute then [] else here)
              (slash || (decide (rest = []) && target.endsInSlash)) (target.names ++ rest)
      | some (.directory p t) =>
        if rest = [] then .ok (.found (here ++ [n]) (.directory p t))
        else h.walk last links (here ++ [n]) slash rest
      | some e =>
        if rest = [] ∧ slash = false then .ok (.found (here ++ [n]) e)
        else .error .notADirectory := by
  have hstep := walk.eq_def h last links here slash (n :: rest)
  simp only [hpass, if_neg hn.not_dot, if_neg hn.not_dotdot, if_neg hn.not_refused,
    if_neg (Nat.not_lt.mpr hn.short)] at hstep
  exact hstep

/-- A lookup that arrives has taken its first name, or that is a dot or two. -/
theorem taken_of_walk {a : Arrival} (hw : h.walk last links here slash (n :: rest) = .ok a)
    (hdot : n ≠ Path.dot) (hdotdot : n ≠ Path.dotdot) : Taken last slash n rest := by
  cases hpass : h.pass here with
  | error e =>
    rw [walk_of_pass_error hpass] at hw
    cases hw
  | ok _ =>
    rw [walk.eq_def] at hw
    simp only [hpass, if_neg hdot, if_neg hdotdot] at hw
    split at hw
    · cases hw
    · next hrefused =>
      split at hw
      · cases hw
      · next hshort => exact ⟨hdot, hdotdot, hrefused, Nat.le_of_not_lt hshort⟩

theorem pass_of_walk {a : Arrival} (hw : h.walk last links here slash (n :: rest) = .ok a) :
    h.pass here = .ok () := by
  cases hpass : h.pass here with
  | error e =>
    rw [walk_of_pass_error hpass] at hw
    cases hw
  | ok _ => rfl

end Equations

/-! ## 2. Lookups and ways -/

/-- Lookups are explained by shorter ones: with fewer links left, or with as many and fewer names
to go. -/
theorem walk_induction {P : Nat → List Name → Prop}
    (step : ∀ links names, (∀ n rest, names = n :: rest → P links rest) →
      (∀ left, links = left + 1 → ∀ ms, P left ms) → P links names) :
    ∀ links names, P links names := by
  intro links
  induction links with
  | zero =>
    intro names
    induction names with
    | nil => exact step 0 [] (fun _ _ h => by cases h) (fun _ h => by cases h)
    | cons n rest ih =>
      refine step 0 (n :: rest) (fun _ _ h => ?_) (fun _ h => by cases h)
      cases h
      exact ih
  | succ left ihl =>
    intro names
    have hfewer : ∀ k, left + 1 = k + 1 → ∀ ms, P k ms := by
      intro k hk
      cases hk
      exact ihl
    induction names with
    | nil => exact step (left + 1) [] (fun _ _ h => by cases h) hfewer
    | cons n rest ih =>
      refine step (left + 1) (n :: rest) (fun _ _ h => ?_) hfewer
      cases h
      exact ih

/-- From a name that is taken, a way goes on where the lookup does. -/
theorem walks_of_taken {links : Nat} {here : Location} {slash : Bool} {n : Name} {rest : List Name}
    {a : Arrival} (hpass : h.pass here = .ok ()) (hn : Taken last slash n rest)
    (hw : h.walk last links here slash (n :: rest) = .ok a)
    (hdown : h.walk last links (here ++ [n]) slash rest = .ok a →
      h.Walks last links (here ++ [n]) slash rest a)
    (hlink : ∀ {left : Nat} {here : Location} {slash : Bool} {ms : List Name}, links = left + 1 →
      h.walk last left here slash ms = .ok a → h.Walks last left here slash ms a) :
    h.Walks last links here slash (n :: rest) a := by
  rw [walk_taken hpass hn] at hw
  rcases he : h.entryAt? (here ++ [n]) with _ | ⟨p, t⟩ | ⟨target, t⟩ | id | d
  · rw [he] at hw
    dsimp only at hw
    split at hw
    · next hrest =>
      subst hrest
      cases hw
      exact .vacant hpass hn he
    · cases hw
  · rw [he] at hw
    dsimp only at hw
    split at hw
    · next hrest =>
      subst hrest
      cases hw
      exact .reach hpass hn he rfl (.inl rfl)
    · next hrest => exact .down hpass hn he hrest (hdown hw)
  · rw [he] at hw
    dsimp only at hw
    split at hw
    · next hstop =>
      obtain ⟨rfl, rfl, hlast⟩ := hstop
      cases hw
      exact .stop hpass hn he hlast
    · next hgo =>
      cases links with
      | zero => cases hw
      | succ left => exact .link hpass hn he hgo (hlink rfl hw)
  all_goals
    rw [he] at hw
    dsimp only at hw
    split at hw
    · next hend =>
      obtain ⟨rfl, hslash⟩ := hend
      cases hw
      exact .reach hpass hn he rfl (.inr hslash)
    · cases hw

theorem walks_of_walk : ∀ (links : Nat) (names : List Name) {here : Location} {slash : Bool}
    {a : Arrival}, h.walk last links here slash names = .ok a →
      h.Walks last links here slash names a := by
  refine walk_induction fun links names ihnames ihlinks => ?_
  intro here slash a hw
  cases names with
  | nil =>
    rw [walk_nil] at hw
    cases he : h.entryAt? here with
    | none =>
      rw [he] at hw
      cases hw
    | some e =>
      rw [he] at hw
      cases hw
      exact .done he
  | cons n rest =>
    have hpass := pass_of_walk hw
    by_cases hdot : n = Path.dot
    · subst hdot
      rw [walk_dot hpass] at hw
      exact .dot hpass (ihnames _ _ rfl hw)
    by_cases hdotdot : n = Path.dotdot
    · subst hdotdot
      rw [walk_dotdot hpass] at hw
      exact .up hpass (ihnames _ _ rfl hw)
    have hn := taken_of_walk hw hdot hdotdot
    exact walks_of_taken hpass hn hw (ihnames _ _ rfl) fun hleft => ihlinks _ hleft _

theorem walk_of_walks {links : Nat} {here : Location} {slash : Bool} {names : List Name}
    {a : Arrival} (hw : h.Walks last links here slash names a) :
    h.walk last links here slash names = .ok a := by
  induction hw with
  | done he => rw [walk_nil, he]
  | dot hpass _ ih => rw [walk_dot hpass, ih]
  | up hpass _ ih => rw [walk_dotdot hpass, ih]
  | vacant hpass hn he => rw [walk_taken hpass hn, he, if_pos rfl]
  | stop hpass hn he hlast =>
    rw [walk_taken hpass hn, he]
    exact if_pos ⟨rfl, rfl, hlast⟩
  | link hpass hn he hgo _ ih =>
    rw [walk_taken hpass hn, he]
    dsimp only
    rw [if_neg hgo]
    exact ih
  | @reach links here slash n e hpass hn he hlink hdir =>
    rw [walk_taken hpass hn, he]
    cases e with
    | directory p t => rfl
    | symlink target t => cases hlink
    | file id =>
      rcases hdir with hdir | hslash
      · cases hdir
      · exact if_pos ⟨rfl, hslash⟩
    | device d =>
      rcases hdir with hdir | hslash
      · cases hdir
      · exact if_pos ⟨rfl, hslash⟩
  | down hpass hn he hne _ ih =>
    rw [walk_taken hpass hn, he]
    dsimp only
    rw [if_neg hne]
    exact ih

/-- **A lookup arrives exactly where a way leads.** -/
theorem walk_eq_ok_iff {links : Nat} {here : Location} {slash : Bool} {names : List Name}
    {a : Arrival} : h.walk last links here slash names = .ok a ↔
      h.Walks last links here slash names a :=
  ⟨walks_of_walk links names, walk_of_walks⟩

end Host

end Telefile
