import Telefile.Text.Scan

/-!
# Numbers of TOML

* digits may have single underscores between them; a decimal number has no leading zeros;
* an integer fits a signed word of 64 bits; only decimal ones have a sign;
* a float has a fraction or an exponent, or is an infinity or no number. One whose nearest double
  would be the positive infinity is refused.
-/

namespace Telefile.Toml

/-- Digits with single underscores between them. -/
def digits (radix : Nat) : Scan (List Nat) := do
  let d ← Scan.digit radix
  let ds ← Scan.many ((Scan.digit radix).or (do
    Scan.char '_'
    Scan.digit radix))
  pure (d :: ds)

/-- A sign; `true` is minus. -/
def sign : Scan Bool :=
  ((fun _ => true) <$> Scan.char '-').or
    (((fun _ => false) <$> Scan.char '+').or (pure false))

/-- The digits of a decimal number: a zero, or digits that do not start with one. -/
def decimalDigits : Scan (List Nat) := fun cs =>
  match Scan.digit 10 cs with
  | some (0, rest) => some ([0], rest)
  | _ => digits 10 cs

/-! ## 1. Integers -/

/-- The value of an integer, if it fits 64 bits. -/
def signedWord? (minus : Bool) (n : Nat) : Option Int :=
  if minus then if n ≤ 1 <<< 63 then some (-n) else none
  else if n < 1 <<< 63 then some n else none

/-- A number behind `0x`, `0o` or `0b`. -/
def radixInteger (mark : Char) (radix : Nat) : Scan Int :=
  ((Scan.word ['0', mark]).andThen fun _ => digits radix).filterMap fun ds =>
    signedWord? false (Scan.valueOf radix ds)

/-- A decimal integer. -/
def decimalInteger : Scan Int :=
  (do
    let minus ← sign
    let ds ← decimalDigits
    pure (signedWord? minus (Scan.valueOf 10 ds))).filterMap id

/-- An integer. -/
def integer : Scan Int :=
  (radixInteger 'x' 16).or ((radixInteger 'o' 8).or ((radixInteger 'b' 2).or decimalInteger))

/-! ## 2. Floats -/

/-- A number with a fraction or an exponent: its sign, its digits without the point, how many of
them follow the point, and the exponent. -/
structure Decimal where
  minus : Bool
  digits : List Nat
  places : Nat
  exponent : Int
  deriving DecidableEq, Repr

/-- A float. -/
inductive Real
  | finite (d : Decimal)
  | infinity (minus : Bool)
  | notANumber
  deriving DecidableEq, Repr

/-- Half a unit above the largest finite double. -/
def overflowBound : Nat := (1 <<< 1024) - (1 <<< 970)

/-- Whether the nearest double of a number without its sign is infinite. The decimal place of the
first digit decides, unless it is the last one that doubles reach. -/
def Decimal.overflows (d : Decimal) : Bool :=
  let ds := d.digits.dropWhile fun x => x == 0
  let power := d.exponent - d.places
  let top := power + ds.length
  if ds.isEmpty ∨ top < 309 then false
  else if 309 < top then true
  else
    let n := Scan.valueOf 10 ds
    if 0 ≤ power then overflowBound ≤ n * Nat.pow 10 power.toNat
    else overflowBound * Nat.pow 10 (-power).toNat ≤ n

/-- A point and the digits of a fraction. -/
def fraction : Scan (List Nat) := (Scan.char '.').andThen fun _ => digits 10

/-- The exponent of a float. -/
def exponent : Scan Int := do
  (Scan.char 'e').or (Scan.char 'E')
  let minus ← sign
  let ds ← digits 10
  let n : Int := Scan.valueOf 10 ds
  pure (if minus then -n else n)

/-- A decimal number with a fraction, an exponent, or both. -/
def decimal : Scan Decimal := do
  let minus ← sign
  let ds ← decimalDigits
  match ← Scan.optional fraction with
  | some fs =>
    let e ← Scan.optional exponent
    pure ⟨minus, ds ++ fs, fs.length, e.getD 0⟩
  | none =>
    let e ← exponent
    pure ⟨minus, ds, 0, e⟩

/-- A float that is written as a word. -/
def realWord : Scan Real := do
  let minus ← sign
  ((fun _ => .infinity minus) <$> Scan.word ['i', 'n', 'f']).or
    ((fun _ => .notANumber) <$> Scan.word ['n', 'a', 'n'])

/-- A float. -/
def real : Scan Real :=
  (.finite <$> decimal.check fun d => d.minus || !d.overflows).or realWord

end Telefile.Toml
