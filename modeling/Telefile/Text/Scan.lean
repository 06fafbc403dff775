/-!
# Scanners of text

A scanner takes a value off the front of a text and leaves the rest, or refuses.

* `one`, `char`, `word`, `run` look at characters; `optional`, `many`, `separated` and `exactly`
  repeat a scanner, `or` tries a second one from the same place;
* `many` goes on as long as each turn takes something, so it ends on every text;
* `Scan.whole` reads a text that holds nothing else.
-/

namespace Telefile

/-- Takes a value off the front of a text and leaves the rest. -/
def Scan (α : Type) := List Char → Option (α × List Char)

namespace Scan

variable {α β : Type}

/-! ## 1. Composition -/

/-- Takes nothing. -/
def done (a : α) : Scan α := fun cs => some (a, cs)

/-- Refuses whatever follows. -/
def refuse : Scan α := fun _ => none

/-- Scans with `s`, then with what `f` makes of its value. -/
def andThen (s : Scan α) (f : α → Scan β) : Scan β := fun cs =>
  match s cs with
  | some (a, rest) => f a rest
  | none => none

instance : Monad Scan where
  pure := done
  bind := andThen

/-- Scans with `s`, or from the same place with `t` if `s` refuses. -/
def or (s t : Scan α) : Scan α := fun cs =>
  match s cs with
  | some r => some r
  | none => t cs

/-- The value of a scanner, if it is one that `f` takes. -/
def filterMap (f : α → Option β) (s : Scan α) : Scan β :=
  s.andThen fun a =>
    match f a with
    | some b => done b
    | none => refuse

/-- The value of a scanner, if `p` holds of it. -/
def check (p : α → Bool) (s : Scan α) : Scan α := s.filterMap fun a => if p a then some a else none

/-! ## 2. Characters -/

/-- A character of a class. -/
def one (p : Char → Bool) : Scan Char
  | [] => none
  | c :: rest => if p c then some (c, rest) else none

/-- The character `c`. -/
def char (c : Char) : Scan Unit := (fun _ => ()) <$> one fun d => d == c

/-- The characters `w`, one after the other. -/
def word : List Char → Scan Unit
  | [] => done ()
  | c :: w => (char c).andThen fun _ => word w

/-- The longest run of characters of a class. -/
def run (p : Char → Bool) : Scan (List Char) := fun cs => some (cs.takeWhile p, cs.dropWhile p)

/-- The longest run of characters of a class, which must not be empty. -/
def run1 (p : Char → Bool) : Scan (List Char) := (run p).check fun w => !w.isEmpty

/-- The end of the text. -/
def atEnd : Scan Unit
  | [] => some ((), [])
  | _ :: _ => none

/-! ## 3. Repetition -/

/-- A value, or nothing if `s` refuses. -/
def optional (s : Scan α) : Scan (Option α) := (some <$> s).or (done none)

/-- The values that `s` takes, turn after turn, until it refuses or takes no character. -/
def turns (s : Scan α) (cs : List Char) : List α × List Char :=
  match s cs with
  | none => ([], cs)
  | some (a, rest) =>
    if rest.length < cs.length then
      let r := turns s rest
      (a :: r.1, r.2)
    else ([], cs)
termination_by cs.length

/-- Any number of values. -/
def many (s : Scan α) : Scan (List α) := fun cs => some (turns s cs)

/-- At least one value. -/
def many1 (s : Scan α) : Scan (List α) := do
  let a ← s
  let as ← many s
  pure (a :: as)

/-- At least one value, with separators between them. -/
def separated (item : Scan α) (sep : Scan Unit) : Scan (List α) := do
  let a ← item
  let as ← many (sep.andThen fun _ => item)
  pure (a :: as)

/-- Exactly `n` values. -/
def exactly (s : Scan α) : Nat → Scan (List α)
  | 0 => done []
  | n + 1 => s.andThen fun a => (exactly s n).andThen fun as => done (a :: as)

/-! ## 4. Digits and whole texts -/

/-- The value of a digit. -/
def digit? (radix : Nat) (c : Char) : Option Nat :=
  let v :=
    if '0' ≤ c ∧ c ≤ '9' then some (c.toNat - 48)
    else if 'a' ≤ c ∧ c ≤ 'f' then some (c.toNat - 87)
    else if 'A' ≤ c ∧ c ≤ 'F' then some (c.toNat - 55)
    else none
  v.filter fun n => n < radix

/-- A digit. -/
def digit (radix : Nat) : Scan Nat := (one fun _ => true).filterMap (digit? radix)

/-- The number that digits write. -/
def valueOf (radix : Nat) (digits : List Nat) : Nat := digits.foldl (fun n d => n * radix + d) 0

/-- A scanner that must take the whole text. -/
def whole (s : Scan α) (text : String) : Option α :=
  match s text.toList with
  | some (a, []) => some a
  | _ => none

end Scan

end Telefile
