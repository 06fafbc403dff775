import Telefile.Wire.Reader

/-!
# Varints

An unsigned integer is written in groups of seven bits, the least significant first, each byte but
the last with its high bit set. A width allows a number of groups, and what the last of them may
hold: five groups and 15 for 32 bits, ten groups and 1 for 64 bits. Overlong forms within that are
read. A signed integer is folded into an unsigned one first, so that small magnitudes stay short.

* `Varint.encode`, `Varint.decode` and the two widths `Width.word32` and `Width.word64`;
* `zigzag` and `unzigzag`.
-/

namespace Telefile

/-- How long a varint may be: its groups, and the largest last one. -/
structure Width where
  groups : Nat
  last : Nat
  deriving DecidableEq, Repr

namespace Width

/-- Values below 2^32. -/
def word32 : Width := ⟨5, 15⟩

/-- Values below 2^64. -/
def word64 : Width := ⟨10, 1⟩

end Width

namespace Varint

/-! ## 1. Unsigned -/

/-- The groups of `n`, at most `k` of them. -/
def groups : Nat → Nat → List UInt8
  | 0, _ => []
  | k + 1, n =>
    if n < 128 then [UInt8.ofNat n]
    else UInt8.ofNat (n % 128 + 128) :: groups k (n / 128)

/-- The shortest form of `n`. -/
def encode (w : Width) (n : Nat) : List UInt8 := groups w.groups n

/-- Reads at most `k` groups, the last of which may be `last` at most when it is the `k`-th. -/
def readGroups (last : Nat) : Nat → Reader Nat
  | 0, _ => .error .longVarint
  | _ + 1, [] => .error .endOfBody
  | k + 1, b :: rest =>
    if b < 128 then
      if k = 0 ∧ last < b.toNat then .error .longVarint else .ok (b.toNat, rest)
    else
      match readGroups last k rest with
      | .ok (n, rest') => .ok (b.toNat - 128 + 128 * n, rest')
      | .error e => .error e

/-- Reads a varint of width `w`, overlong forms included. -/
def decode (w : Width) : Reader Nat := readGroups w.last w.groups

/-! ## 2. Signed -/

/-- Folds the integers onto the naturals: 0, -1, 1, -2, 2, … -/
def zigzag : Int → Nat
  | .ofNat n => 2 * n
  | .negSucc n => 2 * n + 1

/-- Unfolds `zigzag`. -/
def unzigzag (n : Nat) : Int :=
  if n % 2 = 0 then .ofNat (n / 2) else .negSucc (n / 2)

@[simp] theorem unzigzag_zigzag (i : Int) : unzigzag (zigzag i) = i := by
  cases i with
  | ofNat n => simp [zigzag, unzigzag]
  | negSucc n =>
    have h1 : (2 * n + 1) % 2 ≠ 0 := by omega
    have h2 : (2 * n + 1) / 2 = n := by omega
    simp [zigzag, unzigzag, h2]

@[simp] theorem zigzag_unzigzag (n : Nat) : zigzag (unzigzag n) = n := by
  unfold unzigzag
  split
  · simp only [zigzag]; omega
  · simp only [zigzag]; omega

end Varint

end Telefile
