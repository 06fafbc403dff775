/-!
# What a terminal shows

A terminal shows printing characters and breaks; control characters and control sequences steer it
and are not shown themselves. A text that is no terminal's input is written without them.

* `Place.step` reads one character: which construct the reader is in afterwards, and whether the
  character is shown;
* `parts` cuts a text into shown and hidden parts;
* `visible` is the text that is shown;
* `guarded` is a text for a terminal's log: what could steer the terminal is written as an escape.
-/

namespace Telefile.Terminal

/-- The character that starts an escape sequence. -/
def escape : Char := '\x1b'

/-- Whether a character goes on with the text in another place: a tab, a line feed, a form feed, a
carriage return. A vertical tab is not shown. -/
def isBreak (c : Char) : Bool := c == '\t' || c == '\n' || c == '\x0c' || c == '\x0d'

/-- Whether a character of plain text is shown. -/
def isShown (c : Char) : Bool := isBreak c || (decide (' ' ≤ c) && c != '\x7f')

/-! ## 1. Reading character by character -/

/-- The construct that a reader is in. -/
inductive Place
  | text
  /-- Behind the escape character. -/
  | escape
  /-- In an escape sequence, behind a character that does not end it. -/
  | intermediate
  /-- In a control sequence, which a letter ends. -/
  | control
  /-- In a command, which a bell ends. -/
  | command
  /-- In a string, which only a terminator, another escape or a cancellation ends. -/
  | string
  deriving DecidableEq, Repr

/-- Whether a character ends a string: one of its bytes is the eight-bit terminator. -/
def endsString (c : Char) : Bool := (String.utf8EncodeChar c).contains 0x9C

/-- What a character begins that stands behind the escape character. -/
def Place.behindEscape (c : Char) : Place :=
  if c = '[' then .control
  else if c = ']' then .command
  else if c = 'P' ∨ c = 'X' ∨ c = '^' ∨ c = '_' then .string
  else if c < '0' then .intermediate
  else if c < '\x7f' then .text
  else .escape

/-- The place after a character, and whether it is shown. Breaks are shown even in an escape or a
control sequence, which goes on behind them. -/
def Place.step (p : Place) (c : Char) : Place × Bool :=
  if c = Terminal.escape then (.escape, false)
  else if c = '\x18' ∨ c = '\x1a' then (.text, false)
  else
    match p with
    | .text => (.text, isShown c)
    | .command => (if c = '\x07' then .text else .command, false)
    | .string => (if endsString c then .text else .string, false)
    | .escape => if c < ' ' then (.escape, isBreak c) else (behindEscape c, false)
    | .intermediate =>
      if c < ' ' then (.intermediate, isBreak c)
      else (if '0' ≤ c ∧ c < '\x7f' then .text else .intermediate, false)
    | .control =>
      if c < ' ' then (.control, isBreak c)
      else (if '@' ≤ c ∧ c < '\x7f' then .text else .control, false)

/-! ## 2. Parts -/

/-- The characters of a text, each with whether it is shown. What a shown character interrupts is
given up. -/
def marks : Place → List Char → List (Char × Bool)
  | _, [] => []
  | p, c :: rest =>
    let (q, shown) := p.step c
    (c, shown) :: marks (if shown then .text else q) rest

/-- A part of a text, shown or hidden as a whole. -/
structure Part where
  shown : Bool
  chars : List Char
  deriving DecidableEq, Repr

/-- The shown and the hidden parts of a text, in turn. -/
def parts (cs : List Char) : List Part :=
  ((marks .text cs).splitBy fun a b => a.2 == b.2).map fun run =>
    ⟨run.any Prod.snd, run.map Prod.fst⟩

/-! ## 3. The text that is shown -/

/-- The shown characters of a text. A sequence that breaks interrupt is remembered while text is
shown, and goes on at the next hidden character, unless a character beyond ASCII was shown in
between. -/
def visibleFrom (p : Place) (showing : Bool) : List Char → List Char
  | [] => []
  | c :: rest =>
    if showing && isShown c then c :: visibleFrom (if c.toNat < 128 then p else .text) true rest
    else
      let (q, shown) := p.step c
      if shown then c :: visibleFrom q true rest else visibleFrom q false rest

/-- The characters of a text that a terminal shows. -/
def visible (s : String) : String := String.ofList (visibleFrom .text true s.toList)

/-! ## 4. Texts for a log -/

/-- What stands for a character in a log. The control characters that steer a terminal are written
by their code point, in two digits up to DEL and between braces beyond. -/
def guard (c : Char) : List Char :=
  if c = escape ∨ c = '\x07' ∨ c = '\x08' ∨ c = '\x0c' ∨ c = '\x7f' then
    ['\\', 'x', (c.toNat / 16).digitChar, (c.toNat % 16).digitChar]
  else if 0x80 ≤ c.toNat ∧ c.toNat < 0xA0 then
    ['\\', 'u', '\x7b'] ++ Nat.toDigits 16 c.toNat ++ ['\x7d']
  else [c]

/-- A text for a terminal's log. -/
def guarded (s : String) : String := String.ofList (s.toList.flatMap guard)

end Telefile.Terminal
