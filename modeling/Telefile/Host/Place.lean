import Telefile.Path

/-!
# Places in a tree

The host keys its entries by place: a location told from the entry upwards, with its depth. Two
places mostly differ in their depth or in the name of the entry, so comparing them is short, though
locations share long beginnings.

* `Place.ofLocation` and `Place.location` are inverse to each other;
* `Place.nameIn?` is the name of an entry in a directory (`nameIn?_eq_some_iff`).
-/

namespace Telefile

/-- A location, told from its last name up to its first. -/
structure Place where
  depth : Nat
  upward : List Name
  depth_eq : depth = upward.length
  deriving DecidableEq, Repr

namespace Place

/-- The place at a location. -/
def ofLocation (l : Location) : Place := ⟨l.length, l.reverse, by simp⟩

/-- Where a place is. -/
def location (p : Place) : Location := p.upward.reverse

@[simp] theorem location_ofLocation (l : Location) : (ofLocation l).location = l := by
  simp [location, ofLocation]

@[simp] theorem ofLocation_location (p : Place) : ofLocation p.location = p := by
  cases p
  simp_all [location, ofLocation]

/-- Locations are equal if their places are. -/
@[simp] theorem ofLocation_inj {l m : Location} : ofLocation l = ofLocation m ↔ l = m :=
  ⟨fun h => by simpa using congrArg location h, congrArg ofLocation⟩

/-- The name of a place in the directory at `dir`, if it lies directly in it. -/
def nameIn? (dir p : Place) : Option Name :=
  match p.upward with
  | [] => none
  | n :: above => if p.depth = dir.depth + 1 ∧ above = dir.upward then some n else none

/-- What has a name in a directory lies there under that name. -/
theorem nameIn?_eq_some_iff {dir p : Place} {n : Name} :
    dir.nameIn? p = some n ↔ p.location = dir.location ++ [n] := by
  obtain ⟨d, up, rfl⟩ := dir
  obtain ⟨e, _ | ⟨m, above⟩, rfl⟩ := p
  · simp [nameIn?, location]
  · simp only [nameIn?, location, Option.ite_none_right_eq_some, Option.some.injEq,
      List.reverse_cons]
    constructor
    · rintro ⟨⟨-, rfl⟩, rfl⟩
      rfl
    · intro h
      obtain ⟨hup, hn⟩ := List.append_inj' h rfl
      obtain rfl := List.reverse_inj.1 hup
      exact ⟨⟨rfl, rfl⟩, List.singleton_inj.1 hn⟩

end Place

end Telefile
