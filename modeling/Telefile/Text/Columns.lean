import Telefile.Text.Terminal

/-!
# Text in columns

A text is laid out in a column of a given width beside what stands to its left.

* `words` — a word takes the spaces behind it along;
* `Layout.line` — a line ends before the first word that does not fit, and the new one starts with
  the indent of the old;
* `wrap` lays out a whole text, in which hidden parts take no room;
* `indent` puts spaces in front of every line but the first.
-/

namespace Telefile.Columns

/-! ## 1. Words -/

/-- Whether a character is white space. -/
def isSpace (c : Char) : Bool :=
  let n := c.toNat
  (9 ≤ n && n ≤ 13) || n == 0x20 || n == 0x85 || n == 0xA0 || n == 0x1680 ||
    (0x2000 ≤ n && n ≤ 0x200A) || n == 0x2028 || n == 0x2029 || n == 0x202F || n == 0x205F ||
    n == 0x3000

/-- A text without the white space at its end. -/
def trimEnd (cs : List Char) : List Char := (cs.reverse.dropWhile isSpace).reverse

/-- The lines of a text, each with the line feed that ends it. -/
def lines (cs : List Char) : List (List Char) := cs.splitBy fun a _ => a != '\n'

/-- The words of a line, each with the spaces behind it; spaces in front of the first are a word. -/
def words (cs : List Char) : List (List Char) := cs.splitBy fun a b => a != ' ' || b == ' '

/-- The columns that a text takes. A control character hides what follows it up to an `m`. -/
def width (hidden : Bool) : List Char → Nat
  | [] => 0
  | c :: rest =>
    if c < ' ' ∨ c = '\x7f' then width true rest
    else if hidden then width (c != 'm') rest
    else width false rest + 1

/-- The bytes that a text takes. -/
def bytes (cs : List Char) : Nat := (String.ofList cs).utf8ByteSize

/-- How far a word moves the place behind it: its columns, and the bytes of its spaces. -/
def advance (w : List Char) : Nat := width false (trimEnd w) + (bytes w - bytes (trimEnd w))

/-! ## 2. Lines -/

/-- A layout under way: how much of the line is used, and the indent of new lines, which the first
word decides. -/
structure Layout where
  used : Nat
  indent : Option (List Char)
  deriving DecidableEq, Repr

namespace Layout

/-- An empty line. -/
def start : Layout := ⟨0, none⟩

/-- Puts words behind the word `before` and says how much of the line is used in the end. -/
def after (limit : Nat) (indent : List Char) (used : Nat) (before : List Char) :
    List (List Char) → List Char × Nat
  | [] => (before, used)
  | w :: rest =>
    if limit < used + width false (trimEnd w) then
      let r := after limit indent (bytes indent + advance w) w rest
      (trimEnd before ++ '\n' :: indent ++ r.1, r.2)
    else
      let r := after limit indent (used + advance w) w rest
      (before ++ r.1, r.2)

/-- Lays out the words of a line, or of what is shown of it. -/
def line (limit : Nat) (l : Layout) : List (List Char) → List Char × Layout
  | [] => ([], l)
  | w :: rest =>
    let indent := l.indent.getD (if w.all isSpace then w else [])
    let r := after limit indent (l.used + advance w) w rest
    (r.1, ⟨r.2, some indent⟩)

/-- Lays out lines, each on a line of its own. -/
def linesAfter (limit : Nat) (l : Layout) : List (List Char) → List Char × Layout
  | [] => ([], l)
  | [cs] => l.line limit (words cs)
  | cs :: rest =>
    let r := linesAfter limit start rest
    ((l.line limit (words cs)).1 ++ r.1, r.2)

/-- Lays out parts, of which the hidden ones take no room. -/
def parts (limit : Nat) (l : Layout) : List Terminal.Part → List Char
  | [] => []
  | p :: rest =>
    if p.shown then
      let r := l.linesAfter limit (lines p.chars)
      r.1 ++ parts limit r.2 rest
    else p.chars ++ parts limit l rest

end Layout

/-! ## 3. Texts -/

/-- A text laid out in `limit` columns. -/
def wrap (limit : Nat) (s : String) : String :=
  String.ofList (Layout.start.parts limit (Terminal.parts s.toList))

/-- A text with `n` spaces in front of every line but the first. -/
def indent (n : Nat) (s : String) : String :=
  String.ofList (s.toList.flatMap fun c => if c = '\n' then c :: List.replicate n ' ' else [c])

end Telefile.Columns
