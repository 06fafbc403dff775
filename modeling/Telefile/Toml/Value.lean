import Telefile.Toml.Moment
import Telefile.Toml.Number

/-!
# TOML documents as values

A document is a table of values. While it is read, every table remembers how it came to be, since
that decides whether a later line may add to it:

* a table with a header of its own is complete, except for tables below it;
* a table that only lies on the way to a longer header may still get a header;
* a table made by a dotted key takes further dotted keys, and never a header;
* the last element of an array of tables is the one that longer headers lead through.

`Builder.header`, `Builder.element` and `Builder.assign` are the three kinds of line; each refuses
a line that defines something twice.
-/

namespace Telefile.Toml

/-- A value. -/
inductive Value
  | text (s : String)
  | integer (i : Int)
  | real (r : Real)
  | boolean (b : Bool)
  | moment (m : Moment)
  | array (items : List Value)
  | table (entries : List (String × Value))

instance : Inhabited Value := ⟨.boolean false⟩

/-- The first value under a key. -/
def entry? (entries : List (String × Value)) (key : String) : Option Value :=
  (entries.find? fun e => e.1 == key).map Prod.snd

/-! ## 1. Tables that are being read -/

/-- How a table came to be. -/
inductive Origin
  /-- By a header of its own; also the document, and the elements of arrays of tables. -/
  | header
  /-- On the way to a longer header. -/
  | implied
  /-- By a dotted key. -/
  | dotted
  deriving DecidableEq, Repr

/-- What a key stands for while the document is read. -/
inductive Node
  | value (v : Value)
  | table (origin : Origin) (entries : List (String × Node))
  /-- An array of tables; the last one is open. -/
  | tables (elements : List (List (String × Node)))

mutual

/-- The value of a node. -/
def Node.toValue : Node → Value
  | .value v => v
  | .table _ es => .table (entriesToValues es)
  | .tables els => .array (elementsToValues els)

/-- The values of entries. -/
def entriesToValues : List (String × Node) → List (String × Value)
  | [] => []
  | (k, n) :: es => (k, n.toValue) :: entriesToValues es

/-- The values of the elements of an array of tables. -/
def elementsToValues : List (List (String × Node)) → List Value
  | [] => []
  | es :: els => .table (entriesToValues es) :: elementsToValues els

end

/-! ## 2. Changing a table -/

namespace Builder

/-- The entries of a table that is being read. -/
abbrev Entries := List (String × Node)

/-- Puts what `f` makes of the node under a key in its place. -/
def alter (key : String) (f : Option Node → Option Node) : Entries → Option Entries
  | [] => (f none).map fun n => [(key, n)]
  | (k, n) :: es =>
    if k = key then (f (some n)).map fun n => (k, n) :: es
    else (alter key f es).map fun es => (k, n) :: es

/-- Changes the last of several tables. -/
def alterLast (f : Entries → Option Entries) : List Entries → Option (List Entries)
  | [] => none
  | [es] => (f es).map fun es => [es]
  | es :: els => (alterLast f els).map fun els => es :: els

/-- Changes the table at the end of a path, making the tables on the way that are missing. A path
of dotted keys passes no table with a header. -/
def descend (dotted : Bool) (f : Origin → Entries → Option Entries) :
    List String → Origin → Entries → Option Entries
  | [], origin, es => f origin es
  | key :: path, _, es =>
    alter key
      (fun
        | none =>
          let origin : Origin := if dotted then .dotted else .implied
          (descend dotted f path origin []).map (.table origin)
        | some (.value _) => none
        | some (.table origin below) =>
          if dotted ∧ origin = .header then none
          else (descend dotted f path origin below).map (.table origin)
        | some (.tables els) => (alterLast (descend dotted f path .header) els).map .tables)
      es

/-- Gives a dotted key a value in a table. The last key is new; behind other keys it belongs to a
table that dotted keys made. -/
def assignIn (path : List String) (key : String) (v : Value) (origin : Origin) (es : Entries) :
    Option Entries :=
  descend true
    (fun origin es =>
      if !path.isEmpty ∧ origin ≠ .dotted then none
      else
        alter key
          (fun
            | none => some (.value v)
            | some _ => none)
          es)
    path origin es

/-- Gives a dotted key a value in the table that the last header opened. -/
def assign (current path : List String) (key : String) (v : Value) (es : Entries) :
    Option Entries :=
  descend false (assignIn path key v) current .header es

/-- Opens a table by a header. -/
def header (path : List String) (key : String) (es : Entries) : Option Entries :=
  descend false
    (fun _ es =>
      alter key
        (fun
          | none => some (.table .header [])
          | some (.table .implied below) => some (.table .header below)
          | some _ => none)
        es)
    path .header es

/-- Opens one more element of an array of tables. -/
def element (path : List String) (key : String) (es : Entries) : Option Entries :=
  descend false
    (fun _ es =>
      alter key
        (fun
          | none => some (.tables [[]])
          | some (.tables els) => some (.tables (els ++ [[]]))
          | some _ => none)
        es)
    path .header es

end Builder

end Telefile.Toml
