import Telefile.Text.Scan

/-!
# Dates and times of TOML

A moment is a date, a time of day, or both with a `T` or a space between them; a moment with both
may have an offset. Dates are those of the calendar, and a minute may have a leap second.
-/

namespace Telefile.Toml

/-- A date of the calendar. -/
structure Date where
  year : Nat
  month : Nat
  day : Nat
  deriving DecidableEq, Repr

/-- A time of day; the fraction of a second is kept as written. -/
structure TimeOfDay where
  hour : Nat
  minute : Nat
  second : Nat
  fraction : List Nat
  deriving DecidableEq, Repr

/-- A date, a time of day, or both; with both, an offset in minutes may be given. -/
structure Moment where
  date : Option Date
  time : Option TimeOfDay
  offset : Option Int
  deriving DecidableEq, Repr

namespace Moment

/-- A number of exactly `n` digits, from `low` to `high`. -/
def field (n low high : Nat) : Scan Nat :=
  (Scan.exactly (Scan.digit 10) n).filterMap fun ds =>
    let v := Scan.valueOf 10 ds
    if low ≤ v ∧ v ≤ high then some v else none

/-- Whether a year has a leap day. -/
def isLeap (year : Nat) : Bool := year % 4 = 0 && (year % 100 ≠ 0 || year % 400 = 0)

/-- The number of days of a month. -/
def daysOf (year month : Nat) : Nat :=
  if month = 2 then if isLeap year then 29 else 28
  else if month ∈ [4, 6, 9, 11] then 30
  else 31

/-- A date. -/
def scanDate : Scan Date := do
  let year ← field 4 0 9999
  Scan.char '-'
  let month ← field 2 1 12
  Scan.char '-'
  let day ← field 2 1 (daysOf year month)
  pure ⟨year, month, day⟩

/-- A time of day. -/
def scanTime : Scan TimeOfDay := do
  let hour ← field 2 0 23
  Scan.char ':'
  let minute ← field 2 0 59
  Scan.char ':'
  let second ← field 2 0 60
  let fraction ← Scan.optional do
    Scan.char '.'
    Scan.many1 (Scan.digit 10)
  pure ⟨hour, minute, second, fraction.getD []⟩

/-- An offset: `Z`, or hours and minutes with a sign. -/
def scanOffset : Scan Int :=
  ((fun _ => 0) <$> Scan.one fun c => c == 'Z' || c == 'z').or do
    let sign ← Scan.one fun c => c == '+' || c == '-'
    let hours ← field 2 0 23
    Scan.char ':'
    let minutes ← field 2 0 59
    let total : Int := hours * 60 + minutes
    pure (if sign = '-' then -total else total)

/-- A time of day behind the mark that separates it from a date, and its offset. -/
def timeBehindDate : Scan (TimeOfDay × Option Int) := do
  let _ ← Scan.one fun c => c == 'T' || c == 't' || c == ' '
  let t ← scanTime
  let o ← Scan.optional scanOffset
  pure (t, o)

/-- A moment that starts with a date. -/
def scanDated : Scan Moment := do
  let d ← scanDate
  match ← Scan.optional timeBehindDate with
  | some (t, o) => pure ⟨some d, some t, o⟩
  | none => pure ⟨some d, none, none⟩

/-- A moment. -/
def scan : Scan Moment := scanDated.or ((fun t => ⟨none, some t, none⟩) <$> scanTime)

end Moment

end Telefile.Toml
