/-!
# UTF-8, strict and lossy

Names and paths of the host are byte strings; messages carry text. This module fixes how the one
becomes the other.

* `encode` gives the bytes of a text, `decode?` reads them back and refuses ill-formed bytes;
* `decodeLossy` shows any bytes as text: every maximal ill-formed part becomes one U+FFFD.
-/

namespace Telefile.Utf8

/-! ## 1. Strict -/

/-- The UTF-8 bytes of `s`. -/
def encode (s : String) : List UInt8 := s.toByteArray.data.toList

/-- The text whose bytes are `b`, if `b` is well-formed UTF-8. -/
def decode? (b : List UInt8) : Option String := String.fromUTF8? ⟨b.toArray⟩

@[simp] theorem decode?_encode (s : String) : decode? (encode s) = some s := by
  have h : (⟨s.toByteArray.data.toList.toArray⟩ : ByteArray) = s.toByteArray := by simp
  unfold decode? encode String.fromUTF8?
  rw [h, dif_pos s.isValidUTF8]
  rfl

theorem encode_of_decode? {b : List UInt8} {s : String} (h : decode? b = some s) :
    encode s = b := by
  unfold decode? String.fromUTF8? at h
  split at h
  · simp only [Option.some.injEq] at h
    subst h
    rfl
  · simp at h

/-! ## 2. Lossy -/

/-- The character that stands for what cannot be read. -/
def replacement : Char := '\uFFFD'

/-- A sequence that has begun: the code point so far, how many bytes it lacks, and the range in
which the next of them must lie. -/
structure Pending where
  code : Nat
  lacking : Nat
  low : UInt8
  high : UInt8

/-- What a byte begins when no sequence is open: a character, a sequence, or nothing. -/
inductive Lead
  | char (c : Char)
  | opens (p : Pending)
  | illFormed

/-- The lead bytes of well-formed UTF-8; overlong forms, surrogates and code points above U+10FFFF
are excluded by the range of the second byte. -/
def lead (b : UInt8) : Lead :=
  if b < 0x80 then .char (Char.ofNat b.toNat)
  else if b < 0xC2 then .illFormed
  else if b < 0xE0 then .opens ⟨b.toNat - 0xC0, 1, 0x80, 0xBF⟩
  else if b = 0xE0 then .opens ⟨0, 2, 0xA0, 0xBF⟩
  else if b = 0xED then .opens ⟨0xD, 2, 0x80, 0x9F⟩
  else if b < 0xF0 then .opens ⟨b.toNat - 0xE0, 2, 0x80, 0xBF⟩
  else if b = 0xF0 then .opens ⟨0, 3, 0x90, 0xBF⟩
  else if b < 0xF4 then .opens ⟨b.toNat - 0xF0, 3, 0x80, 0xBF⟩
  else if b = 0xF4 then .opens ⟨4, 3, 0x80, 0x8F⟩
  else .illFormed

/-- Reads on with no sequence open (`none`) or one begun. -/
def readLossy : Option Pending → List UInt8 → List Char
  | none, [] => []
  | some _, [] => [replacement]
  | none, b :: rest =>
    match lead b with
    | .char c => c :: readLossy none rest
    | .opens p => readLossy (some p) rest
    | .illFormed => replacement :: readLossy none rest
  | some p, b :: rest =>
    if p.low ≤ b ∧ b ≤ p.high then
      let code := p.code * 64 + (b.toNat - 0x80)
      if p.lacking ≤ 1 then Char.ofNat code :: readLossy none rest
      else readLossy (some ⟨code, p.lacking - 1, 0x80, 0xBF⟩) rest
    else
      match lead b with
      | .char c => replacement :: c :: readLossy none rest
      | .opens q => replacement :: readLossy (some q) rest
      | .illFormed => replacement :: replacement :: readLossy none rest

/-- The text of `b`: as it is if well-formed, else with its ill-formed parts replaced. -/
def decodeLossy (b : List UInt8) : String :=
  match decode? b with
  | some s => s
  | none => String.ofList (readLossy none b)

@[simp] theorem decodeLossy_encode (s : String) : decodeLossy (encode s) = s := by
  simp [decodeLossy]

end Telefile.Utf8
