import Telefile.Text.Utf8

/-!
# Paths as written

A path is a byte string. Its text is kept as it was written, since answers and messages show it;
what it means is read off its components.

* `components` — a leading slash, a leading dot, names and `..`; empty parts and inner dots are not
  components;
* `fold?` — the names left when every `..` cancels the name before it, if it never climbs above
  the start;
* `parent?`, `ancestors` — the path without its last component, and so on up;
* `join`, `startsWith` — names put under a path, and the component-wise comparison.
-/

namespace Telefile

/-- The name of a directory entry. -/
abbrev Name := List UInt8

/-- Where an entry is: the names from the top of the tree down to it, no links among them. -/
abbrev Location := List Name

/-- A path as written. -/
structure Path where
  text : List UInt8
  deriving DecidableEq, Repr

/-- What a path is made of. -/
inductive Component
  /-- A leading slash. -/
  | root
  /-- A leading dot. -/
  | here
  | parent
  | name (n : Name)
  deriving DecidableEq, Repr

namespace Path

/-! ## 1. Text -/

/-- The byte `/`. -/
def slash : UInt8 := 0x2F

/-- The name `.` -/
def dot : Name := [0x2E]

/-- The name `..` -/
def dotdot : Name := [0x2E, 0x2E]

/-- The path that a text writes. -/
def ofString (s : String) : Path := ⟨Utf8.encode s⟩

/-- The path as text, for messages. -/
def display (p : Path) : String := Utf8.decodeLossy p.text

/-- The parts between slashes, empty ones included; there is always at least one. -/
def split : List UInt8 → List Name
  | [] => [[]]
  | b :: rest =>
    if b = slash then [] :: split rest
    else
      match split rest with
      | [] => [[b]]
      | part :: parts => (b :: part) :: parts

/-- Parts with slashes between them. -/
def glue (parts : List Name) : List UInt8 := List.intercalate [slash] parts

/-- Whether the path starts at the top of the tree. -/
def isAbsolute (p : Path) : Bool := p.text.head? == some slash

/-- Whether the path ends in a slash. -/
def endsInSlash (p : Path) : Bool := p.text.getLast? == some slash

/-- The parts that are looked up one after the other, `.` and `..` included. -/
def names (p : Path) : List Name := (split p.text).filter fun n => !n.isEmpty

/-- The path of a location. -/
def ofLocation (l : Location) : Path := ⟨slash :: glue l⟩

/-! ## 2. Components -/

/-- The component of an inner part, if it is one. -/
def component? (part : Name) : Option Component :=
  if part = [] ∨ part = dot then none
  else if part = dotdot then some .parent
  else some (.name part)

/-- The components of a path. -/
def components (p : Path) : List Component :=
  match split p.text with
  | [] => []
  | first :: rest =>
    let lead : Option Component :=
      if first = [] then if rest = [] then none else some .root
      else if first = dot then some .here
      else component? first
    lead.toList ++ rest.filterMap component?

/-- One component onto the names that are left so far. -/
def foldStep (names : List Name) : Component → Option (List Name)
  | .root | .here => some names
  | .name n => some (names ++ [n])
  | .parent => if names = [] then none else some names.dropLast

/-- The names left when each `..` cancels the name before it; nothing if one climbs too far. -/
def fold? (p : Path) : Option (List Name) := p.components.foldlM foldStep []

/-- Whether the components of `base` are the first ones of `p`. -/
def startsWith (p base : Path) : Bool := base.components.isPrefixOf p.components

/-! ## 3. Upwards -/

/-- Parts without the ones at the end that are no components. -/
def trimEnd (parts : List Name) : List Name :=
  (parts.reverse.dropWhile fun n => n == [] || n == dot).reverse

/-- The path without its last component; nothing above a lone slash and the empty path. -/
def parent? (p : Path) : Option Path :=
  match split p.text with
  | [] => none
  | first :: rest =>
    let body := trimEnd rest
    if body = [] then if first = [] then none else some ⟨[]⟩
    else
      let above := trimEnd body.dropLast
      if first = [] ∧ above = [] then some ⟨[slash]⟩ else some ⟨glue (first :: above)⟩

/-- The path, its parent, and so on, at most `n` of them. -/
def upwards : Nat → Path → List Path
  | 0, _ => []
  | n + 1, p => p :: match p.parent? with
    | none => []
    | some q => upwards n q

/-- The path, its parent, and so on up. A parent is shorter, so there are no more of them than
bytes in the path, and one. -/
def ancestors (p : Path) : List Path := upwards (p.text.length + 1) p

/-! ## 4. Downwards -/

/-- The names put under a path. -/
def join (p : Path) (names : List Name) : Path :=
  ⟨p.text ++ (if p.text = [] ∨ p.endsInSlash then [] else [slash]) ++ glue names⟩

end Path

end Telefile
