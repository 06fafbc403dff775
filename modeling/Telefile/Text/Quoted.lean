import Telefile.Text.Unprintable

/-!
# Quoted text

Log lines and messages show a text between double quotes. A quote and a backslash are escaped, a
tab, a line feed, a carriage return and a NUL have escapes of their own, and other characters
without a shape are written by their code point in hexadecimal.
-/

namespace Telefile.Quoted

/-- The hexadecimal digits of `n`, lower case and without leading zeros. -/
def hex (n : Nat) : List Char := Nat.toDigits 16 n

/-- Whether a character is written by its code point. -/
def isHidden (c : Char) : Bool :=
  if c.toNat < 0x80 then c.toNat < 0x20 || c.toNat = 0x7F else Unprintable.contains c

/-- What stands for a character between quotes. -/
def escape (c : Char) : List Char :=
  if c = '"' then ['\\', '"']
  else if c = '\\' then ['\\', '\\']
  else if c = '\t' then ['\\', 't']
  else if c = '\n' then ['\\', 'n']
  else if c = '\r' then ['\\', 'r']
  else if c = Char.ofNat 0 then ['\\', '0']
  else if isHidden c then ['\\', 'u', '\x7b'] ++ hex c.toNat ++ ['\x7d']
  else [c]

/-- A text between quotes. -/
def text (s : String) : String := String.ofList ('"' :: s.toList.flatMap escape ++ ['"'])

/-- An optional value: its form after `Some`, or `None`. -/
def optional {α : Type} (form : α → String) : Option α → String
  | none => "None"
  | some a => s!"Some({form a})"

end Telefile.Quoted
