import Telefile.Connection
import Telefile.Proofs.Wire.Fields

/-!
# Which replies fit

A response is sent as it is if its body is within the limit, and else its replacement is. How long
bodies are is a matter of their varints: `length_groups_mono` and `length_groups_le` are all that
is used of them.

* `Response.dataLength k` — the length of the body that carries `k` bytes read;
* `Request.encode_failure` — every failure has a body, of 13 bytes at most;
* `encodeReply` — the bytes that are due; `fitReply_of_le`, `fitReply_of_lt` — a response within the
  limit, and one over it;
* **`fitReply_failure_eq_none_iff`** — when nothing can be sent.
-/

namespace Telefile

/-! ## 1. The length of a body -/

theorem Varint.length_groups_mono (k : Nat) :
    ∀ {m n : Nat}, m ≤ n → (groups k m).length ≤ (groups k n).length := by
  induction k with
  | zero => intros; simp [groups]
  | succ k ih =>
    intro m n h
    unfold groups
    split
    · split <;> simp
    · next hm =>
      rw [if_neg (by omega : ¬ n < 128)]
      have := ih (Nat.div_le_div_right (c := 128) h)
      simp only [List.length_cons]
      omega

theorem Wire.length_nat64_mono {m n : Nat} (h : m ≤ n) : (nat64 m).length ≤ (nat64 n).length :=
  Varint.length_groups_mono _ h

theorem Wire.length_int64_mono {m n : Nat} (h : m ≤ n) :
    (int64 (m : Int)).length ≤ (int64 (n : Int)).length :=
  Varint.length_groups_mono _ (Nat.mul_le_mul_left 2 h)

/-- The length of the body that carries `k` bytes read: an index, the result, the number of bytes,
and the bytes. -/
def Response.dataLength (k : Nat) : Nat :=
  1 + (Wire.int64 k).length + (Wire.nat64 k).length + k

namespace Response

theorem encode_data (b : List UInt8) :
    ∃ body, (data b.length b).encode = .ok body ∧ body.length = dataLength b.length := by
  refine ⟨_, rfl, ?_⟩
  simp only [Wire.blob, List.length_cons, List.length_append, dataLength]
  omega

theorem dataLength_mono {m n : Nat} (h : m ≤ n) : dataLength m ≤ dataLength n := by
  have h1 := Wire.length_int64_mono h
  have h2 := Wire.length_nat64_mono h
  unfold dataLength
  omega

theorem dataLength_le (k : Nat) : dataLength k ≤ k + 21 := by
  have h1 : (Wire.int64 k).length ≤ 10 := Varint.length_groups_le _ _
  have h2 : (Wire.nat64 k).length ≤ 10 := Varint.length_groups_le _ _
  unfold dataLength
  omega

end Response

/-! ## 2. Failures -/

/-- The code of a known error takes one byte. -/
theorem length_int64_neg {e : Errno} (h : e ∈ Errno.known) : (Wire.int64 e.neg).length = 1 := by
  simp only [Errno.known, List.mem_cons, List.not_mem_nil, or_false] at h
  rcases h with rfl | rfl | rfl | rfl | rfl | rfl | rfl | rfl | rfl | rfl | rfl <;> rfl

/-- **Every failure has a body, and a short one**, whatever the request echoes in it. -/
theorem Request.encode_failure (q : Request) {e : Errno} (h : e ∈ Errno.known) :
    ∃ body, (q.failure e).encode = .ok body ∧ body.length ≤ 13 := by
  have he := length_int64_neg h
  have hnil : (Wire.nat64 0).length = 1 := rfl
  cases q with
  | listDir fd n base =>
    have hbase : (Wire.nat64 base).length ≤ 10 := Varint.length_groups_le _ _
    refine ⟨_, rfl, ?_⟩
    simp only [Wire.sequence, List.length_nil, List.flatMap_nil, List.append_nil,
      List.length_cons, List.length_append, he, hnil]
    omega
  | _ =>
    refine ⟨_, rfl, ?_⟩
    simp [Wire.blob, Wire.option, he, hnil]

/-! ## 3. The reply -/

/-- The bytes for a response, or for its replacement if the response is over the limit. -/
def encodeReply (limit : Nat) (response fallback : Response) : Except EncodeError (List UInt8) :=
  match response.encode with
  | .error e => .error e
  | .ok body => if body.length ≤ limit then .ok body else fallback.encode

section Fit

variable {limit : Nat} {r fallback : Response} {body short : List UInt8}

theorem encodeReply_of_le (h : r.encode = .ok body) (hle : body.length ≤ limit) :
    encodeReply limit r fallback = .ok body := by
  simp only [encodeReply, h, if_pos hle]

theorem encodeReply_of_lt (h : r.encode = .ok body) (hlt : limit < body.length) :
    encodeReply limit r fallback = fallback.encode := by
  simp only [encodeReply, h, if_neg (Nat.not_le.mpr hlt)]

/-- What is sent are these bytes, if a frame carries them. -/
theorem fitReply_of_encodeReply (h : encodeReply limit r fallback = .ok body) :
    fitReply limit r fallback = sendable limit body := by
  unfold encodeReply at h
  unfold fitReply
  cases hr : r.encode with
  | error e =>
    rw [hr] at h
    cases h
  | ok full =>
    simp only [hr] at h ⊢
    split at h
    · next hle =>
      cases h
      exact if_pos hle
    · next hlt =>
      rw [if_neg hlt, h]

theorem fitReply_of_error {e : EncodeError} (h : r.encode = .error e) :
    fitReply limit r fallback = none := by
  simp only [fitReply, h]

theorem fitReply_of_le (h : r.encode = .ok body) (hle : body.length ≤ limit) :
    fitReply limit r fallback = sendable limit body := by
  simp only [fitReply, h, if_pos hle]

theorem fitReply_of_lt (h : r.encode = .ok body) (hlt : limit < body.length)
    (hf : fallback.encode = .ok short) : fitReply limit r fallback = sendable limit short := by
  simp only [fitReply, h, if_neg (Nat.not_le.mpr hlt), hf]

theorem sendable_of_carries (h : Frame.Carries limit body) : sendable limit body = some body :=
  if_pos h

theorem carries_of_sendable (h : sendable limit body = some short) :
    short = body ∧ Frame.Carries limit body := by
  unfold sendable at h
  split at h
  · next hc =>
    cases h
    exact ⟨rfl, hc⟩
  · cases h

theorem carries_of_fitReply (h : fitReply limit r fallback = some body) :
    Frame.Carries limit body := by
  unfold fitReply at h
  split at h
  · cases h
  · split at h
    · obtain ⟨rfl, hc⟩ := carries_of_sendable h
      exact hc
    · split at h
      · cases h
      · obtain ⟨rfl, hc⟩ := carries_of_sendable h
        exact hc

/-- **What cannot be sent** where every failure can: a response without a body, and one whose
length four bytes cannot say although the limit admits it. -/
theorem fitReply_failure_eq_none_iff (hlimit : 13 ≤ limit) (q : Request) {e : Errno}
    (he : e ∈ Errno.known) :
    fitReply limit r (q.failure e) = none ↔
      (∃ cause, r.encode = .error cause) ∨
        ∃ body, r.encode = .ok body ∧ body.length ≤ limit ∧ Frame.maxLength < body.length := by
  obtain ⟨short, hshort, hlen⟩ := q.encode_failure he
  have hcarries : Frame.Carries limit short := by
    refine ⟨by omega, ?_⟩
    unfold Frame.maxLength
    omega
  cases hr : r.encode with
  | error cause => exact ⟨fun _ => .inl ⟨cause, rfl⟩, fun _ => fitReply_of_error hr⟩
  | ok body =>
    by_cases hle : body.length ≤ limit
    · rw [fitReply_of_le hr hle]
      simp [sendable, Frame.Carries, hle]
    · rw [fitReply_of_lt hr (by omega) hshort, sendable_of_carries hcarries]
      simp [hle]

end Fit

end Telefile
