import Mathlib.Algebra.Group.Nat.Defs
import Telefile.Text.Utf8

/-!
# The order of texts is the order of their bytes

Names are compared as texts, character by character. UTF-8 keeps that order: at the first character
where two texts differ, the bytes of the smaller one are smaller, whatever follows them.

* `utf8EncodeChar_eq` — the bytes of a character: a first one, which tells how many follow, and the
  digits to the base 64;
* `utf8EncodeChar_lt` — one character against another;
* **`encode_le_iff`** — one text against another;
* `pairwise_mergeSort` — what is sorted by its name is in the byte order of the names.
-/

namespace Telefile.Utf8

/-! ## 1. The bytes of a character -/

/-- How many bytes follow the first one of a code point. -/
def following (v : Nat) : Nat :=
  if v ≤ 0x7f then 0 else if v ≤ 0x7ff then 1 else if v ≤ 0xffff then 2 else 3

/-- What the first byte says beside its digits: how many bytes follow. -/
def mark : Nat → Nat
  | 0 => 0
  | 1 => 0xc0
  | 2 => 0xe0
  | _ => 0xf0

/-- The first byte of a code point. -/
def first (v : Nat) : Nat := v / 64 ^ following v + mark (following v)

/-- The last `k` digits of a code point to the base 64, as bytes. -/
def digits : Nat → Nat → List UInt8
  | 0, _ => []
  | k + 1, v => UInt8.ofNat (v / 64 ^ k % 64 + 0x80) :: digits k v

theorem code_lt (c : Char) : c.val.toNat < 0x110000 := by
  rcases c.valid with h | h
  · exact Nat.lt_trans h (by decide)
  · exact h.2

theorem utf8EncodeChar_eq (c : Char) :
    String.utf8EncodeChar c =
      UInt8.ofNat (first c.val.toNat) :: digits (following c.val.toNat) c.val.toNat := by
  have hvalid := code_lt c
  unfold String.utf8EncodeChar first following
  generalize c.val.toNat = v at hvalid ⊢
  dsimp only
  by_cases h1 : v ≤ 0x7f
  · simp only [if_pos h1, mark, digits, Nat.pow_zero, Nat.div_one, Nat.add_zero]
  by_cases h2 : v ≤ 0x7ff
  · have hfirst : v / 64 % 32 = v / 64 := by omega
    simp only [if_neg h1, if_pos h2, mark, digits, hfirst, Nat.pow_zero, Nat.pow_one, Nat.div_one]
  by_cases h3 : v ≤ 0xffff
  · have hfirst : v / 4096 % 16 = v / 4096 := by omega
    simp only [if_neg h1, if_neg h2, if_pos h3, mark, digits, hfirst, Nat.pow_zero, Nat.pow_one,
      Nat.div_one, Nat.reducePow]
  · have hfirst : v / 262144 % 8 = v / 262144 := by omega
    simp only [if_neg h1, if_neg h2, if_neg h3, mark, digits, hfirst, Nat.pow_zero, Nat.pow_one,
      Nat.div_one, Nat.reducePow]

/-! ## 2. One character against another -/

theorem cons_lt_cons_of_nat {a b : Nat} (hb : b < 256) (h : a < b) (s t : List UInt8) :
    UInt8.ofNat a :: s < UInt8.ofNat b :: t := by
  refine List.cons_lt_cons_iff.mpr (.inl (UInt8.lt_iff_toNat_lt.mpr ?_))
  rw [UInt8.toNat_ofNat', UInt8.toNat_ofNat']
  omega

/-- The digits of the smaller number are smaller. -/
theorem digits_lt {v w : Nat} (k : Nat) (h : v % 64 ^ k < w % 64 ^ k) (s t : List UInt8) :
    digits k v ++ s < digits k w ++ t := by
  induction k with
  | zero =>
    rw [Nat.pow_zero, Nat.mod_one, Nat.mod_one] at h
    exact absurd h (Nat.lt_irrefl 0)
  | succ k ih =>
    rw [Nat.mod_pow_succ, Nat.mod_pow_succ] at h
    unfold digits
    rw [List.cons_append, List.cons_append]
    have hrest : w % 64 ^ k < 64 ^ k := Nat.mod_lt w (Nat.pow_pos (by decide))
    rcases Nat.lt_trichotomy (v / 64 ^ k % 64) (w / 64 ^ k % 64) with hless | hsame | hmore
    · exact cons_lt_cons_of_nat (by omega) (by omega) _ _
    · rw [hsame] at h ⊢
      exact List.cons_lt_cons_iff.mpr (.inr ⟨rfl, ih (by omega)⟩)
    · have hdigit : 64 ^ k * (w / 64 ^ k % 64) + 64 ^ k ≤ 64 ^ k * (v / 64 ^ k % 64) :=
        Nat.mul_le_mul_left (64 ^ k) hmore
      omega

/-- The four lengths of a character, with what its first byte is. -/
theorem first_cases (v : Nat) :
    following v = 0 ∧ first v = v ∧ v ≤ 0x7f ∨
    following v = 1 ∧ first v = v / 64 + 0xc0 ∧ 0x7f < v ∧ v ≤ 0x7ff ∨
    following v = 2 ∧ first v = v / 4096 + 0xe0 ∧ 0x7ff < v ∧ v ≤ 0xffff ∨
    following v = 3 ∧ first v = v / 262144 + 0xf0 ∧ 0xffff < v := by
  unfold first following
  by_cases h1 : v ≤ 0x7f
  · rw [if_pos h1]
    exact .inl ⟨rfl, by simp [mark], h1⟩
  by_cases h2 : v ≤ 0x7ff
  · rw [if_neg h1, if_pos h2]
    exact .inr (.inl ⟨rfl, rfl, Nat.lt_of_not_le h1, h2⟩)
  by_cases h3 : v ≤ 0xffff
  · rw [if_neg h1, if_neg h2, if_pos h3]
    exact .inr (.inr (.inl ⟨rfl, rfl, Nat.lt_of_not_le h2, h3⟩))
  · rw [if_neg h1, if_neg h2, if_neg h3]
    exact .inr (.inr (.inr ⟨rfl, rfl, Nat.lt_of_not_le h3⟩))

/-- **The bytes of the smaller character are smaller**, whatever follows them. -/
theorem utf8EncodeChar_lt {c d : Char} (h : c < d) (s t : List UInt8) :
    String.utf8EncodeChar c ++ s < String.utf8EncodeChar d ++ t := by
  have hlt : c.val.toNat < d.val.toNat := h
  have hd : d.val.toNat < 0x110000 := code_lt d
  rw [utf8EncodeChar_eq, utf8EncodeChar_eq]
  generalize c.val.toNat = v at hlt ⊢
  generalize d.val.toNat = w at hlt hd ⊢
  have hv := first_cases v
  have hw := first_cases w
  rw [List.cons_append, List.cons_append]
  by_cases hfirst : first v < first w
  · exact cons_lt_cons_of_nat (by omega) hfirst _ _
  · -- as many bytes follow, and the first ones say the same: the digits decide
    have hsame : following v = following w ∧ first v = first w := by omega
    have hdigits : v % 64 ^ following w < w % 64 ^ following w := by
      have hfront : v / 64 ^ following w = w / 64 ^ following w := by
        have hfirst := hsame.2
        unfold first at hfirst
        rw [hsame.1] at hfirst
        exact Nat.add_right_cancel hfirst
      have hvsplit := Nat.div_add_mod v (64 ^ following w)
      have hwsplit := Nat.div_add_mod w (64 ^ following w)
      rw [hfront] at hvsplit
      omega
    rw [hsame.1, hsame.2]
    exact List.cons_lt_cons_iff.mpr (.inr ⟨rfl, digits_lt _ hdigits s t⟩)

/-! ## 3. One text against another -/

theorem encode_eq (s : String) : encode s = s.toList.flatMap String.utf8EncodeChar := by
  unfold encode
  rw [← String.utf8Encode_toList]
  unfold List.utf8Encode
  rw [List.toList_data_toByteArray]

/-- The first character where two texts differ decides. -/
theorem flatMap_utf8EncodeChar_lt {cs ds : List Char} (h : cs < ds) :
    cs.flatMap String.utf8EncodeChar < ds.flatMap String.utf8EncodeChar := by
  induction List.lex_lt.mpr h with
  | @nil d ds =>
    rw [List.flatMap_cons, utf8EncodeChar_eq]
    exact List.nil_lt_cons _ _
  | @cons c cs ds _ ih =>
    rw [List.flatMap_cons, List.flatMap_cons]
    exact List.append_left_lt (ih ‹_›)
  | @rel c cs d ds hcd =>
    rw [List.flatMap_cons, List.flatMap_cons]
    exact utf8EncodeChar_lt hcd _ _

theorem encode_lt {a b : String} (h : a < b) : encode a < encode b := by
  rw [encode_eq, encode_eq]
  exact flatMap_utf8EncodeChar_lt (String.lt_iff.mp h)

/-- **Texts are in the order of their bytes.** -/
theorem encode_le_iff {a b : String} : encode a ≤ encode b ↔ a ≤ b := by
  rw [← List.not_lt, ← String.not_lt]
  refine not_congr ⟨fun h => ?_, encode_lt⟩
  by_cases hlt : b < a
  · exact hlt
  by_cases hgt : a < b
  · exact absurd h (List.lt_asymm (encode_lt hgt))
  · obtain rfl : a = b := String.le_antisymm (String.not_lt.mp hlt) (String.not_lt.mp hgt)
    exact absurd h (List.lt_irrefl _)

/-- What is sorted by its name is in the byte order of the names. -/
theorem pairwise_mergeSort {α : Type} (name : α → String) (xs : List α) :
    (xs.mergeSort fun a b => decide (name a ≤ name b)).Pairwise
      fun a b => encode (name a) ≤ encode (name b) := by
  have htrans : ∀ a b c : α, decide (name a ≤ name b) = true →
      decide (name b ≤ name c) = true → decide (name a ≤ name c) = true := by
    intro a b c hab hbc
    exact decide_eq_true (String.le_trans (of_decide_eq_true hab) (of_decide_eq_true hbc))
  have htotal : ∀ a b : α, (decide (name a ≤ name b) || decide (name b ≤ name a)) = true := by
    intro a b
    rw [Bool.or_eq_true, decide_eq_true_eq, decide_eq_true_eq]
    exact String.le_total (name a) (name b)
  have hsorted := List.pairwise_mergeSort htrans htotal xs
  exact hsorted.imp fun hle => encode_le_iff.mpr (of_decide_eq_true hle)

end Telefile.Utf8
