import Telefile.Toml.Text
import Telefile.Toml.Value

/-!
# Reading a TOML document

* `value` — a value; arrays may be broken into lines, inline tables may not;
* `line` — an empty line, a comment, a header, or a definition; `Draft.add` is what it does to the
  document;
* **`parse`** — the entries of a whole document, or nothing if it is no TOML.
-/

namespace Telefile.Toml

/-! ## 1. Values -/

/-- A truth value. -/
def boolean : Scan Bool :=
  ((fun _ => true) <$> Scan.word ['t', 'r', 'u', 'e']).or
    ((fun _ => false) <$> Scan.word ['f', 'a', 'l', 's', 'e'])

/-- A value that is neither an array nor a table. -/
def scalar : Scan Value :=
  (.text <$> quotedText).or
    ((.boolean <$> boolean).or
      ((.moment <$> Moment.scan).or ((.real <$> real).or (.integer <$> integer))))

/-- An array whose items are read by `item`; a comma may follow the last one. -/
def arrayOf (item : Scan Value) : Scan Value := do
  let spaced : Scan Value := do
    gaps
    let v ← item
    gaps
    pure v
  Scan.char '['
  let items ← Scan.optional do
    let vs ← Scan.separated spaced (Scan.char ',')
    let _ ← Scan.optional (Scan.char ',')
    pure vs
  gaps
  Scan.char ']'
  pure (.array (items.getD []))

/-- A definition: a dotted key and its value. -/
structure Definition where
  path : List String
  key : String
  value : Value

/-- A definition whose value is read by `item`. -/
def definition (item : Scan Value) : Scan Definition := do
  let (path, key) ← dottedKey
  Scan.char '='
  blanks
  let v ← item
  pure ⟨path, key, v⟩

/-- The table that definitions make. -/
def tableOf? (ds : List Definition) : Option Value :=
  (ds.foldlM (fun es d => Builder.assign [] d.path d.key d.value es) []).map fun es =>
    .table (entriesToValues es)

/-- An inline table whose values are read by `item`. -/
def inlineTableOf (item : Scan Value) : Scan Value := do
  let spaced : Scan Definition := do
    let d ← definition item
    blanks
    pure d
  Scan.char '\x7b'
  let ds ← Scan.optional (Scan.separated spaced (Scan.char ','))
  blanks
  Scan.char '\x7d'
  Scan.filterMap tableOf? (pure (ds.getD []))

/-- A value with at most `depth` arrays and inline tables around one another. -/
def valueWithin : Nat → Scan Value
  | 0 => scalar
  | depth + 1 =>
    scalar.or ((arrayOf (valueWithin depth)).or (inlineTableOf (valueWithin depth)))

/-- A value. -/
def value : Scan Value := valueWithin (depthLimit - 1)

/-! ## 2. Lines -/

/-- A line of a document. -/
inductive Line
  /-- Blanks, perhaps a comment. -/
  | empty
  /-- The header of a table: the keys of the tables it leads through, and its own. -/
  | header (path : List String) (key : String)
  /-- The header of one more element of an array of tables. -/
  | element (path : List String) (key : String)
  | definition (d : Definition)

/-- A dotted key between opening and closing brackets. -/
def bracketed (brackets : List Char × List Char) : Scan (List String × String) := do
  blanks
  Scan.word brackets.1
  let k ← dottedKey
  Scan.word brackets.2
  lineEnd
  pure k

/-- A line with its end. -/
def line : Scan Line :=
  ((fun _ => .empty) <$> lineEnd).or
    (((fun k => .element k.1 k.2) <$> bracketed (['[', '['], [']', ']'])).or
      (((fun k => .header k.1 k.2) <$> bracketed (['['], [']'])).or
        (do
          let d ← definition value
          lineEnd
          pure (.definition d))))

/-- The lines of a document; a byte order mark may come first. -/
def lines : Scan (List Line) := do
  let _ ← Scan.optional (Scan.char '\uFEFF')
  let ls ← Scan.many line
  blanks
  Scan.atEnd
  pure ls

/-! ## 3. Documents -/

/-- A document that is being read: the table that the last header opened, and the entries so far. -/
structure Draft where
  current : List String
  entries : Builder.Entries

/-- What a line does to a document. -/
def Draft.add (d : Draft) : Line → Option Draft
  | .empty => some d
  | .header path key =>
    (Builder.header path key d.entries).map fun entries => ⟨path ++ [key], entries⟩
  | .element path key =>
    (Builder.element path key d.entries).map fun entries => ⟨path ++ [key], entries⟩
  | .definition f =>
    (Builder.assign d.current f.path f.key f.value d.entries).map fun entries => { d with entries }

/-- **The entries of a document.** -/
def parse (text : String) : Option (List (String × Value)) := do
  let ls ← Scan.whole lines text
  let d ← ls.foldlM Draft.add ⟨[], []⟩
  pure (entriesToValues d.entries)

end Telefile.Toml
