/-!
# Readers of message bytes

A reader takes the front of a byte string and leaves the rest. Fields are read in order, so the
first defect decides which error is reported.

* `DecodeError` are the causes a body can be refused for, `DecodeError.message` their wording;
* `Reader` composes by `bind`; `byte` and `bytes` are the only readers that look at the input,
  `many` repeats a reader.
-/

namespace Telefile

/-- Why a body is refused. -/
inductive DecodeError
  /-- The body ends inside a field. -/
  | endOfBody
  /-- A varint has more bytes, or a larger last byte, than its width admits. -/
  | longVarint
  /-- An option starts with neither 0 nor 1. -/
  | badOption
  /-- A text field is not UTF-8. -/
  | badText
  /-- A value that no message holds: an unknown variant, or a time out of range. -/
  | noSuchValue
  deriving DecidableEq, Repr

namespace DecodeError

/-- The wording of a refusal. -/
def message : DecodeError → String
  | .endOfBody => "decode failed: Hit the end of buffer, expected more data"
  | .longVarint =>
    "decode failed: Found a varint that didn't terminate. Is the usize too big for this platform?"
  | .badOption => "decode failed: Found an Option discriminant that wasn't 0 or 1"
  | .badText => "decode failed: Tried to parse invalid utf-8"
  | .noSuchValue => "decode failed: Serde Deserialization Error"

end DecodeError

/-- Takes a value off the front of the bytes and leaves the rest. -/
def Reader (α : Type) := List UInt8 → Except DecodeError (α × List UInt8)

namespace Reader

variable {α β : Type}

/-! ## 1. Composition -/

/-- Reads nothing. -/
def done (a : α) : Reader α := fun b => .ok (a, b)

/-- Refuses whatever follows. -/
def refuse (e : DecodeError) : Reader α := fun _ => .error e

/-- Reads with `r`, then with what `f` makes of its value. -/
def andThen (r : Reader α) (f : α → Reader β) : Reader β := fun b =>
  match r b with
  | .ok (a, rest) => f a rest
  | .error e => .error e

instance : Monad Reader where
  pure := done
  bind := andThen

theorem bind_apply (r : Reader α) (f : α → Reader β) (b : List UInt8) :
    (r >>= f) b = match r b with
      | .ok (a, rest) => f a rest
      | .error e => .error e := rfl

theorem map_apply (f : α → β) (r : Reader α) (b : List UInt8) :
    (f <$> r) b = match r b with
      | .ok (a, rest) => .ok (f a, rest)
      | .error e => .error e := rfl

/-! ## 2. Bytes -/

/-- The next byte. -/
def byte : Reader UInt8
  | [] => .error .endOfBody
  | b :: rest => .ok (b, rest)

/-- The next `n` bytes. -/
def bytes (n : Nat) : Reader (List UInt8) := fun b =>
  if b.length < n then .error .endOfBody else .ok (b.take n, b.drop n)

theorem bytes_append {a b : List UInt8} : bytes a.length (a ++ b) = .ok (a, b) := by
  simp [bytes]

/-! ## 3. Repetition -/

/-- `n` values, one after the other. -/
def many (item : Reader α) : Nat → Reader (List α)
  | 0 => done []
  | n + 1 => item.andThen fun a => (many item n).andThen fun as => done (a :: as)

theorem many_succ (item : Reader α) (n : Nat) (b : List UInt8) :
    many item (n + 1) b = match item b with
      | .error e => .error e
      | .ok (a, rest) => match many item n rest with
        | .error e => .error e
        | .ok (as, rest') => .ok (a :: as, rest') := by
  simp only [many, andThen, done]
  rcases item b with e | ⟨a, rest⟩
  · rfl
  · dsimp only
    rcases many item n rest with e | ⟨as, rest'⟩ <;> rfl

end Reader

end Telefile
