import Mathlib.Logic.Relation
import Telefile.Proofs.Paths

/-!
# What a path folds to

Folding a path keeps the names that are left so far. What comes of it can be said without that: every
`..` cancels with the name that then stands before it, and what cancels no further is left. It fails
at the first `..` that finds nothing to cancel, whatever comes behind.

* `Component.Cancels` — one cancellation; **`Path.fold?_eq_some_iff`** — the names that are left;
* **`Path.fold?_eq_none_iff`** — a path that climbs too far has a beginning with more `..` than names;
* `Path.ofNames` — the path of the names that are left, which is its own normal form
  (`components_ofNames`, `fold?_ofNames`);
* **`Path.fold?_behind`** — a path behind another folds from where the first has led.
-/

namespace Telefile

/-! ## 1. Cancelling -/

namespace Component

/-- One component falls away that leads nowhere, or a name with the `..` behind it. -/
inductive Cancels : List Component → List Component → Prop
  | root (front back) : Cancels (front ++ .root :: back) (front ++ back)
  | here (front back) : Cancels (front ++ .here :: back) (front ++ back)
  | name (front : List Component) (n : Name) (back) :
    Cancels (front ++ .name n :: .parent :: back) (front ++ back)

/-- Whether the component is a name. -/
def isName : Component → Bool
  | name _ => true
  | root | here | parent => false

end Component

namespace Path

open Component Relation

section Cancelling

variable {names left : List Name} {cs ds : List Component}

theorem foldlM_names (ns names : List Name) :
    (ns.map Component.name).foldlM foldStep names = some (names ++ ns) := by
  induction ns generalizing names with
  | nil => exact congrArg some (List.append_nil names).symm
  | cons n ns ih =>
    show (ns.map Component.name).foldlM foldStep (names ++ [n]) = _
    rw [ih, List.append_assoc, List.singleton_append]

/-- A `..` takes the last name away, if there is one. -/
theorem foldlM_parent (hne : names ≠ []) (cs : List Component) :
    (Component.parent :: cs).foldlM foldStep names = cs.foldlM foldStep names.dropLast := by
  rw [List.foldlM_cons]
  show ((if names = [] then none else some names.dropLast) >>= _) = _
  rw [if_neg hne]
  rfl

/-- A cancellation changes nothing of what comes out. -/
theorem foldlM_of_cancels (h : Cancels cs ds) (names : List Name) :
    cs.foldlM foldStep names = ds.foldlM foldStep names := by
  cases h with
  | root front back =>
    rw [List.foldlM_append, List.foldlM_append]
    rfl
  | here front back =>
    rw [List.foldlM_append, List.foldlM_append]
    rfl
  | name front n back =>
    rw [List.foldlM_append, List.foldlM_append]
    refine congrArg _ (funext fun ms => ?_)
    show (Component.parent :: back).foldlM foldStep (ms ++ [n]) = _
    rw [foldlM_parent (List.append_ne_nil_of_right_ne_nil ms (List.cons_ne_nil n [])),
      List.dropLast_concat]

theorem foldlM_of_cancelled (h : ReflTransGen Cancels cs ds) (names : List Name) :
    cs.foldlM foldStep names = ds.foldlM foldStep names := by
  induction h with
  | refl => rfl
  | tail _ hstep ih => rw [ih, foldlM_of_cancels hstep]

/-- **What a fold leaves is left by cancelling.** -/
theorem cancelled_of_foldlM (cs : List Component) :
    ∀ {names left : List Name}, cs.foldlM foldStep names = some left →
      ReflTransGen Cancels (names.map .name ++ cs) (left.map .name) := by
  induction cs with
  | nil =>
    intro names left h
    cases h
    rw [List.append_nil]
  | cons c cs ih =>
    intro names left h
    rw [List.foldlM_cons] at h
    obtain ⟨next, hstep, hrest⟩ := Option.bind_eq_some_iff.mp h
    have hnext := ih hrest
    cases c with
    | root =>
      cases hstep
      exact .head (.root _ _) hnext
    | here =>
      cases hstep
      exact .head (.here _ _) hnext
    | parent =>
      have hparent : (if names = [] then none else some names.dropLast) = some next := hstep
      split at hparent
      · cases hparent
      · next hne =>
        cases hparent
        rcases List.eq_nil_or_concat names with hnil | ⟨ms, n, rfl⟩
        · exact absurd hnil hne
        · rw [List.concat_eq_append] at hnext ⊢
          rw [List.dropLast_concat] at hnext
          rw [List.map_append, List.append_assoc]
          exact .head (.name _ n cs) hnext
    | name n =>
      cases hstep
      rw [List.map_append, List.append_assoc] at hnext
      exact hnext

end Cancelling

/-- **A path folds to the names that are left** when every `..` has cancelled with the name before
it. -/
theorem fold?_eq_some_iff {p : Path} {names : List Name} :
    p.fold? = some names ↔ ReflTransGen Cancels p.components (names.map .name) := by
  constructor
  · exact fun h => cancelled_of_foldlM p.components h
  · intro h
    unfold fold?
    rw [foldlM_of_cancelled h, foldlM_names, List.nil_append]

/-! ## 2. Climbing too far -/

/-- The empty beginning does not hold more `..` than names. -/
theorem exists_front_cons {c : Component} {cs : List Component} {k : Nat} :
    (∃ front, front <+: c :: cs ∧ k + front.countP isName < front.count .parent) ↔
      ∃ front, front <+: cs ∧ k + (c :: front).countP isName < (c :: front).count .parent := by
  constructor
  · rintro ⟨front, hfront, hlt⟩
    cases front with
    | nil => exact absurd hlt (Nat.not_lt_zero _)
    | cons d front =>
      obtain ⟨rfl, htail⟩ := List.cons_prefix_cons.mp hfront
      exact ⟨front, htail, hlt⟩
  · rintro ⟨front, hfront, hlt⟩
    exact ⟨c :: front, List.cons_prefix_cons.mpr ⟨rfl, hfront⟩, hlt⟩

/-- A fold fails if some beginning holds more `..` than names, those that were there counted. -/
theorem foldlM_eq_none_iff (cs : List Component) :
    ∀ {names : List Name}, cs.foldlM foldStep names = none ↔
      ∃ front, front <+: cs ∧ names.length + front.countP isName < front.count .parent := by
  induction cs with
  | nil =>
    intro names
    refine ⟨fun h => (by cases h), ?_⟩
    rintro ⟨front, hfront, hlt⟩
    rw [List.prefix_nil.mp hfront] at hlt
    exact absurd hlt (Nat.not_lt_zero _)
  | cons c cs ih =>
    intro names
    rw [exists_front_cons]
    cases c with
    | root => exact ih
    | here => exact ih
    | name n =>
      refine Iff.trans ih (exists_congr fun front => and_congr_right fun _ => ?_)
      rw [List.countP_cons_of_pos rfl, List.count_cons_of_ne (by simp), List.length_append,
        List.length_singleton]
      omega
    | parent =>
      by_cases hnames : names = []
      · subst hnames
        refine ⟨fun _ => ⟨[], List.nil_prefix, Nat.zero_lt_one⟩, fun _ => rfl⟩
      · have hpos := List.length_pos_iff.mpr hnames
        rw [foldlM_parent hnames]
        refine Iff.trans ih (exists_congr fun front => and_congr_right fun _ => ?_)
        rw [List.countP_cons_of_neg (by simp [isName]), List.count_cons_self, List.length_dropLast]
        omega

/-- **A path climbs too far** if it has a beginning with more `..` than names. -/
theorem fold?_eq_none_iff {p : Path} :
    p.fold? = none ↔
      ∃ front, front <+: p.components ∧ front.countP isName < front.count .parent := by
  unfold fold?
  rw [foldlM_eq_none_iff]
  simp only [List.length_nil, Nat.zero_add]

/-! ## 3. Normal forms -/

/-- The path of names, one behind the other. -/
def ofNames (names : List Name) : Path := ⟨glue names⟩

/-- **Nothing but names is in a normal form**: no leading slash, no dots. -/
theorem components_ofNames {names : List Name} (h : Location.Proper names) :
    (ofNames names).components = names.map .name := by
  cases names with
  | nil => rfl
  | cons n names =>
    have hn := h n List.mem_cons_self
    unfold components ofNames
    rw [split_glue (List.cons_ne_nil n names) fun m hm => (h m hm).no_slash]
    dsimp only
    rw [if_neg hn.nonempty, if_neg hn.not_dot, component?_proper hn,
      filterMap_component? fun m hm => h m (List.mem_cons_of_mem n hm)]
    rfl

theorem fold?_ofNames {names : List Name} (h : Location.Proper names) :
    (ofNames names).fold? = some names := by
  unfold fold?
  rw [components_ofNames h, foldlM_names, List.nil_append]

/-! ## 4. One path behind another -/

/-- The path `q` behind the path `p`, with a slash between them. -/
def behind (p q : Path) : Path := ⟨p.text ++ slash :: q.text⟩

/-- The parts that count for a fold, wherever they stand. -/
def moves (p : Path) : List Component := (split p.text).filterMap component?

theorem moves_behind (p q : Path) : (p.behind q).moves = p.moves ++ q.moves := by
  unfold moves behind
  rw [split_append_slash, List.filterMap_append]

/-- What leads a path leads nowhere, if it is a slash or a dot. -/
theorem foldlM_moves (p : Path) (names : List Name) :
    p.components.foldlM foldStep names = p.moves.foldlM foldStep names := by
  unfold components moves
  cases hs : split p.text with
  | nil => rfl
  | cons first rest =>
    rw [List.filterMap_cons]
    dsimp only
    by_cases hnil : first = []
    · subst hnil
      rw [if_pos rfl]
      by_cases hrest : rest = []
      · subst hrest
        rfl
      · rw [if_neg hrest]
        rfl
    · by_cases hdot : first = dot
      · subst hdot
        rfl
      · rw [if_neg hnil, if_neg hdot]
        cases component? first <;> rfl

/-- **A path behind another** folds from the names that the first has left. -/
theorem fold?_behind (p q : Path) :
    (p.behind q).fold? = p.fold?.bind fun names => ((ofNames names).behind q).fold? := by
  have hfrom : ∀ p : Path, (p.behind q).fold? =
      p.fold?.bind fun names => q.moves.foldlM foldStep names := by
    intro p
    unfold fold?
    rw [foldlM_moves, foldlM_moves, moves_behind, List.foldlM_append]
    rfl
  rw [hfrom]
  cases hp : p.fold? with
  | none => rfl
  | some names =>
    show _ = ((ofNames names).behind q).fold?
    rw [hfrom, fold?_ofNames (proper_of_fold? hp)]

end Path

end Telefile
