import Telefile.Frame

/-!
# Frames arrive as they were sent

A body that a frame carries is what the receiver makes of the frame, and the receiver is then as it
was before: between two frames.

* `length_header` — four bytes say every length up to `Frame.maxLength`;
* **`feed_frame`** — one frame, whole.
-/

namespace Telefile

namespace Frame

/-- The four bytes of a length say that length. -/
theorem length_header {n : Nat} (h : n ≤ maxLength) : length (header n) = n := by
  unfold maxLength at h
  simp only [length, header, List.foldl_cons, List.foldl_nil, UInt8.toNat_ofNat']
  omega

theorem encode_of_carries {limit : Nat} {body : List UInt8} (h : Carries limit body) :
    encode limit body = .ok (header body.length ++ body) := if_pos h

end Frame

namespace FrameState

variable {limit : Nat}

theorem begin_of_pos {n : Nat} (hle : n ≤ limit) (hpos : 0 < n) :
    begin limit n = (body n [], none) := by
  unfold begin
  rw [if_neg (by omega), if_neg (by omega)]

/-- Four bytes between two frames begin a body. -/
theorem foldl_header (n : Nat) (log : List FrameEvent) :
    (Frame.header n).foldl (stepLog limit) (fresh, log) =
      ((begin limit (Frame.length (Frame.header n))).1,
        (begin limit (Frame.length (Frame.header n))).2.toList ++ log) := by
  have hstep : ∀ b, step limit (head [UInt8.ofNat (n / 16777216), UInt8.ofNat (n / 65536),
      UInt8.ofNat (n / 256)]) b =
      begin limit (Frame.length [UInt8.ofNat (n / 16777216), UInt8.ofNat (n / 65536),
        UInt8.ofNat (n / 256), b]) := fun _ => rfl
  show stepLog limit (head [UInt8.ofNat (n / 16777216), UInt8.ofNat (n / 65536),
    UInt8.ofNat (n / 256)], log) (UInt8.ofNat n) = _
  unfold stepLog
  simp only [hstep, Frame.header]
  rcases begin limit _ with ⟨s, _ | e⟩ <;> rfl

/-- The bytes that a body lacks complete it. -/
theorem foldl_body (bytes : List UInt8) :
    ∀ (seen : List UInt8) (log : List FrameEvent), bytes ≠ [] →
      bytes.foldl (stepLog limit) (body bytes.length seen, log) =
        (fresh, .frame (seen.reverse ++ bytes) :: log) := by
  induction bytes with
  | nil => exact fun _ _ h => absurd rfl h
  | cons b bytes ih =>
    intro seen log _
    rw [List.foldl_cons]
    cases bytes with
    | nil => simp [stepLog, step]
    | cons c rest =>
      have hstep : stepLog limit (body (b :: c :: rest).length seen, log) b =
          (body (c :: rest).length (b :: seen), log) := by
        simp [stepLog, step]
      rw [hstep, ih (b :: seen) log (by simp)]
      simp

/-- **A frame gives its body**, and what comes next starts afresh. -/
theorem feed_frame {bytes : List UInt8} (h : Frame.Carries limit bytes) :
    feed limit fresh (Frame.header bytes.length ++ bytes) = (fresh, [.frame bytes]) := by
  unfold feed
  rw [List.foldl_append, foldl_header, Frame.length_header h.2]
  by_cases hb : bytes = []
  · subst hb
    rfl
  · rw [begin_of_pos h.1 (List.length_pos_iff.mpr hb)]
    simp only [Option.toList_none, List.nil_append]
    rw [foldl_body bytes [] [] hb]
    rfl

end FrameState

end Telefile
