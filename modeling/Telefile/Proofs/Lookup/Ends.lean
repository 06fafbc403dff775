import Telefile.Proofs.Lookup.Ways

/-!
# The entry at the end of a way

An exclusive creation follows no link at its end, and neither does a look at the entry that a path
names. So both end at the last name of the path, in the same directory, as long as the directories
and links that the first passed are there for the second.

* `Walks.last_name` — the name that is created is the last one of the path;
* **`Walks.same_end`** — the entry that a path names lies where the path creates;
* `location_of_vacant` — the same of paths.
-/

namespace Telefile

namespace Host

section Ends

variable {h h' : Host} {links : Nat} {here : Location} {slash : Bool} {names : List Name}
  {a : Arrival} {dir : Location} {n : Name}

/-- What an exclusive creation finds vacant is the last name. -/
theorem Walks.last_name (hw : h.Walks (.create true) links here slash names a)
    (ha : a = .vacant dir n) : names.getLast? = some n := by
  -- a name before the last one does not matter
  have hcons : ∀ {m : Name} {rest : List Name}, rest.getLast? = some n →
      (m :: rest).getLast? = some n := by
    intro m rest hrest
    rw [List.getLast?_cons, hrest]
    rfl
  induction hw with
  | done _ => cases ha
  | dot _ _ ih => exact hcons (ih ha)
  | up _ _ ih => exact hcons (ih ha)
  | vacant _ _ _ =>
    cases ha
    rfl
  | stop _ _ _ _ => cases ha
  | @link links here slash m rest target t a _ hn _ hgo _ ih =>
    have hne : rest ≠ [] := by
      rintro rfl
      cases hs : slash with
      | false => exact hgo ⟨rfl, hs, rfl⟩
      | true => exact hn.not_refused ⟨rfl, hs, rfl⟩
    have hrest := ih ha
    rw [List.getLast?_append] at hrest
    cases hlast : rest.getLast? with
    | none => exact absurd (List.getLast?_eq_none_iff.mp hlast) hne
    | some k =>
      rw [hlast] at hrest
      exact hcons (hlast.trans hrest)
  | reach _ _ _ _ _ => cases ha
  | down _ _ _ _ _ ih => exact hcons (ih ha)

/-- **The entry that a path names lies where the path creates**, if the directories and links that
the creation passes were there already. -/
theorem Walks.same_end (hways : h'.WaysIn h)
    (hw : h'.Walks (.create true) links here slash names a) (ha : a = .vacant dir n) {m : Location}
    {x : Entry} (hm : h.walk .entry links here slash names = .ok (.found m x)) :
    m = dir ++ [n] := by
  induction hw with
  | done _ => cases ha
  | dot hpass _ ih =>
    rw [walk_dot (hways.pass hpass)] at hm
    exact ih ha hm
  | up hpass _ ih =>
    rw [walk_dotdot (hways.pass hpass)] at hm
    exact ih ha hm
  | @vacant links here slash n hpass hn _ =>
    cases ha
    have hslash : slash = false := by
      cases hs : slash with
      | false => rfl
      | true => exact absurd ⟨rfl, hs, rfl⟩ hn.not_refused
    subst hslash
    rw [walk_taken (hways.pass hpass) (hn.change rfl _ _)] at hm
    rcases he : h.entryAt? (dir ++ [n]) with _ | ⟨p, t⟩ | ⟨target, t⟩ | id | d <;> rw [he] at hm <;>
      cases hm <;> rfl
  | stop _ _ _ _ => cases ha
  | @link links here slash n rest target t a hpass hn he hgo _ ih =>
    have hgo : ¬ (rest = [] ∧ slash = false ∧ LastStep.entry.follows = false) := hgo
    rw [walk_taken (hways.pass hpass) (hn.change rfl _ _), hways.link he] at hm
    dsimp only at hm
    rw [if_neg hgo] at hm
    exact ih ha hm
  | reach _ _ _ _ _ => cases ha
  | down hpass hn he hne _ ih =>
    obtain ⟨t', he'⟩ := hways.directory he
    rw [walk_taken (hways.pass hpass) (hn.change rfl _ _), he'] at hm
    dsimp only at hm
    rw [if_neg hne] at hm
    exact ih ha hm

/-! ## Paths -/

variable {p : Path}

theorem lookup_entry_of_follow {l : Location} {e : Entry} (hl : h.lookup .follow p = .ok (l, e)) :
    ∃ m x, h.lookup .entry p = .ok (m, x) := by
  obtain ⟨hwritable, hw⟩ := arrive_eq_ok_iff.mp (lookup_eq_ok_iff.mp hl)
  obtain ⟨m, x, hm⟩ := hw.entry_of_follow rfl
  exact ⟨m, x, lookup_eq_ok_iff.mpr (arrive_eq_ok_iff.mpr ⟨hwritable, hm⟩)⟩

/-- What a path named lies where the path creates later on. -/
theorem location_of_vacant (hways : h'.WaysIn h) (hcwd : h'.cwd = h.cwd)
    (harrive : h'.arrive (.create true) p = .ok (.vacant dir n)) {m : Location} {x : Entry}
    (hl : h.lookup .entry p = .ok (m, x)) : p.names.getLast? = some n ∧ m = dir ++ [n] := by
  obtain ⟨-, hw⟩ := arrive_eq_ok_iff.mp harrive
  obtain ⟨-, hm⟩ := arrive_eq_ok_iff.mp (lookup_eq_ok_iff.mp hl)
  rw [hcwd] at hw
  exact ⟨hw.last_name rfl, hw.same_end hways rfl (walk_of_walks hm)⟩

end Ends

end Host

end Telefile
