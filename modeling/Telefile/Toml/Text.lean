import Telefile.Text.Scan

/-!
# Texts, keys and blanks of TOML

* a basic text stands between double quotes and has escapes, a literal text stands between single
  quotes and has none; three quotes make a text of several lines;
* no text holds a control character other than a tab, and a line ends in a line feed or in a
  carriage return with a line feed;
* inside three quotes, one or two quotes are text, also right before the end.
-/

namespace Telefile.Toml

/-! ## 1. Blanks -/

/-- A blank within a line. -/
def isBlank (c : Char) : Bool := c == ' ' || c == '\t'

/-- A character of a comment or a text: not a control character, but for the tab. -/
def isPlain (c : Char) : Bool := c == '\t' || (' ' ≤ c && c ≠ '\x7f')

/-- Blanks within a line. -/
def blanks : Scan Unit := (fun _ => ()) <$> Scan.run isBlank

/-- The end of a line. -/
def newline : Scan Unit := (Scan.char '\n').or (Scan.word ['\r', '\n'])

/-- A comment, up to the end of its line. -/
def comment : Scan Unit := do
  Scan.char '#'
  let _ ← Scan.run isPlain

/-- Blanks, ends of lines, and comments. -/
def gaps : Scan Unit := do
  let _ ← Scan.many (((fun _ => ()) <$> Scan.run1 isBlank).or (newline.or comment))

/-- What may follow on the line of a definition: a comment, and the end of the line. -/
def lineEnd : Scan Unit := do
  blanks
  let _ ← Scan.optional comment
  newline.or Scan.atEnd

/-! ## 2. Escapes -/

/-- A character written by `n` hexadecimal digits. -/
def codePoint (n : Nat) : Scan Char :=
  (Scan.exactly (Scan.digit 16) n).filterMap fun ds =>
    let code := Scan.valueOf 16 ds
    if code.isValidChar then some (Char.ofNat code) else none

/-- What a backslash and the character after it stand for. -/
def escape : Scan (List Char) := do
  Scan.char '\\'
  match ← Scan.one fun _ => true with
  | 'b' => pure ['\x08']
  | 't' => pure ['\t']
  | 'n' => pure ['\n']
  | 'f' => pure ['\x0c']
  | 'r' => pure ['\r']
  | '"' => pure ['"']
  | '\\' => pure ['\\']
  | 'u' => (fun c => [c]) <$> codePoint 4
  | 'U' => (fun c => [c]) <$> codePoint 8
  | _ => Scan.refuse

/-- A backslash at the end of a line, with the blanks and line ends that follow: no text. -/
def lineContinuation : Scan (List Char) := do
  Scan.char '\\'
  blanks
  newline
  let _ ← Scan.many (((fun _ => ()) <$> Scan.run1 isBlank).or newline)
  pure []

/-! ## 3. Texts -/

/-- Plain characters other than the quote, and than the backslash if it escapes. -/
def plain (quote : Char) (escapes : Bool) : Scan (List Char) :=
  Scan.run1 fun c => isPlain c && c != quote && !(escapes && c == '\\')

/-- A piece of a text within one line. -/
def piece (quote : Char) (escapes : Bool) : Scan (List Char) :=
  (plain quote escapes).or (if escapes then escape else Scan.refuse)

/-- A text within one line. -/
def lineText (quote : Char) (escapes : Bool) : Scan (List Char) := do
  Scan.char quote
  let parts ← Scan.many (piece quote escapes)
  Scan.char quote
  pure parts.flatten

/-- A piece of a text of several lines. -/
def blockPiece (quote : Char) (escapes : Bool) : Scan (List Char) :=
  (plain quote escapes).or
    (((fun _ => ['\n']) <$> newline).or
      (if escapes then lineContinuation.or escape else Scan.refuse))

/-- One or two quotes with a piece behind them. -/
def innerQuotes (quote : Char) (escapes : Bool) : Scan (List Char) :=
  let before (n : Nat) : Scan (List Char) := do
    Scan.word (List.replicate n quote)
    let p ← blockPiece quote escapes
    pure (List.replicate n quote ++ p)
  (before 2).or (before 1)

/-- The quotes at the end of a text of several lines: three, with up to two that are text. -/
def lastQuotes (quote : Char) : Scan (List Char) :=
  let ending (n : Nat) : Scan (List Char) := do
    Scan.word (List.replicate (n + 3) quote)
    pure (List.replicate n quote)
  (ending 2).or ((ending 1).or (ending 0))

/-- A text of several lines; a line end right behind the opening quotes is no part of it. -/
def blockText (quote : Char) (escapes : Bool) : Scan (List Char) := do
  Scan.word [quote, quote, quote]
  let _ ← Scan.optional newline
  let parts ← Scan.many ((blockPiece quote escapes).or (innerQuotes quote escapes))
  let last ← lastQuotes quote
  pure (parts.flatten ++ last)

/-- A text of any of the four kinds. -/
def quotedText : Scan String :=
  String.ofList <$>
    (blockText '"' true).or
      ((lineText '"' true).or ((blockText '\'' false).or (lineText '\'' false)))

/-! ## 4. Keys -/

/-- A character of a key without quotes. -/
def isBare (c : Char) : Bool := c.isAlphanum || c == '-' || c == '_'

/-- One key. -/
def simpleKey : Scan String :=
  String.ofList <$> (lineText '"' true).or ((lineText '\'' false).or (Scan.run1 isBare))

/-- No dotted key has as many parts as this, and no value has as many arrays and inline tables
around it. -/
def depthLimit : Nat := 80

/-- A dotted key: the keys of the tables it leads through, and the last one. -/
def dottedKey : Scan (List String × String) :=
  let part : Scan String := do
    blanks
    let k ← simpleKey
    blanks
    pure k
  (Scan.separated part (Scan.char '.')).filterMap fun ks =>
    if depthLimit ≤ ks.length then none else ks.getLast?.map fun k => (ks.dropLast, k)

end Telefile.Toml
