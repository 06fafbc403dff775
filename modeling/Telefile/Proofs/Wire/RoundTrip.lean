import Telefile.Proofs.Wire.Fields

/-!
# Messages are read back

Every request whose fields lie in their widths is read back from its body, and so is every
response that has one. What follows the body is ignored.

* **`Request.decode_encode`**, **`Response.decode_encode`**.
-/

namespace Telefile

open Reader Wire

/-- A message is read back from its index and its fields. -/
theorem Reader.Reads.fields {α : Type} {r : Nat → Reader α} {i : Nat} {b : List UInt8} {a : α}
    (hi : i < 128) (h : (r i).Reads b a) : (readNat32 >>= r).Reads (UInt8.ofNat i :: b) a := by
  have hi32 : FitsUnsigned 32 i := by unfold FitsUnsigned; omega
  have hb : nat32 i = [UInt8.ofNat i] := by
    unfold nat32 Varint.encode Width.word32 Varint.groups
    rw [if_pos hi]
  have hr := (reads_nat32 hi32).bind h
  rwa [hb] at hr

namespace Request

theorem reads_encode {q : Request} (h : q.Fits) : Request.reader.Reads q.encode q := by
  unfold Request.reader
  cases q with
  | openPath p m =>
    obtain ⟨hp, hm⟩ := h
    exact .fields (i := 0) (by decide)
      ((reads_option fun s hs => reads_text (hp s hs)).bind (reads_nat32 hm).bind_pure)
  | close fd => exact .fields (i := 1) (by decide) ((reads_int32 h).map close)
  | write fd d =>
    obtain ⟨hfd, hd⟩ := h
    exact .fields (i := 2) (by decide) ((reads_int32 hfd).bind (reads_blob hd).bind_pure)
  | read fd c =>
    obtain ⟨hfd, hc⟩ := h
    exact .fields (i := 3) (by decide)
      ((reads_int32 hfd).bind (reads_option fun n hn => reads_nat64 (hc n hn)).bind_pure)
  | seek fd o w =>
    obtain ⟨hfd, ho, hw⟩ := h
    have hr := (reads_int32 hfd).bind (f := fun fd => readInt64 >>= fun o => readNat32 >>= fun w =>
      (pure (seek fd o w) : Reader Request)) ((reads_int64 ho).bind (reads_nat32 hw).bind_pure)
    rw [← List.append_assoc] at hr
    exact .fields (i := 4) (by decide) hr
  | unlink p =>
    exact .fields (i := 5) (by decide)
      ((reads_option fun s hs => reads_text (h s hs)).map unlink)
  | stat p =>
    exact .fields (i := 6) (by decide) ((reads_option fun s hs => reads_text (h s hs)).map stat)
  | listDir fd n b =>
    obtain ⟨hfd, hn, hb⟩ := h
    have hr := (reads_int32 hfd).bind (f := fun fd => readNat64 >>= fun n => readNat64 >>= fun b =>
      (pure (listDir fd n b) : Reader Request)) ((reads_nat64 hn).bind (reads_nat64 hb).bind_pure)
    rw [← List.append_assoc] at hr
    exact .fields (i := 7) (by decide) hr
  | dirTree p =>
    exact .fields (i := 8) (by decide)
      ((reads_option fun s hs => reads_text (h s hs)).map dirTree)

/-- **A request is read back from its body**, whatever follows it. -/
theorem decode_encode_append {q : Request} (h : q.Fits) (rest : List UInt8) :
    Request.decode (q.encode ++ rest) = .ok q := by
  unfold Request.decode
  rw [reads_encode h rest]
  rfl

theorem decode_encode {q : Request} (h : q.Fits) : Request.decode q.encode = .ok q := by
  rw [← List.append_nil q.encode]
  exact decode_encode_append h []

end Request

namespace Response

theorem reads_encode {r : Response} {body : List UInt8} (h : r.Fits) (he : r.encode = .ok body) :
    Response.reader.Reads body r := by
  unfold Response.reader
  cases r with
  | status r =>
    cases he
    exact .fields (i := 0) (by decide) ((reads_int64 h).map status)
  | data r b =>
    obtain ⟨hr, hb⟩ := h
    cases he
    exact .fields (i := 1) (by decide) ((reads_int64 hr).bind (reads_blob hb).bind_pure)
  | attr r a =>
    obtain ⟨hr, ha⟩ := h
    simp only [Response.encode] at he
    split at he
    · cases he
    · next htime =>
      cases he
      have h0 : ∀ x ∈ a, 0 ≤ x.modified.seconds := by
        intro x hx
        obtain rfl : a = some x := hx
        simpa using htime
      exact .fields (i := 2) (by decide)
        ((reads_int64 hr).bind (reads_option fun x hx => reads_attr (ha x hx) (h0 x hx)).bind_pure)
  | entries r b es =>
    obtain ⟨hr, hb, hn, hes⟩ := h
    cases he
    have h := (reads_int64 hr).bind (f := fun r => readNat64 >>= fun b =>
        readSequence readEntry >>= fun es => (pure (entries r b es) : Reader Response))
      ((reads_nat64 hb).bind (reads_sequence hn fun e he => reads_entry (hes e he)).bind_pure)
    rw [← List.append_assoc] at h
    exact .fields (i := 3) (by decide) h
  | tree r t =>
    obtain ⟨hr, ht⟩ := h
    cases he
    exact .fields (i := 4) (by decide)
      ((reads_int64 hr).bind (reads_option fun x hx => reads_tree (ht x hx)).bind_pure)

/-- **A response is read back from its body**, whatever follows it. -/
theorem decode_encode_append {r : Response} {body : List UInt8} (h : r.Fits)
    (he : r.encode = .ok body) (rest : List UInt8) : Response.decode (body ++ rest) = .ok r := by
  unfold Response.decode
  rw [reads_encode h he rest]
  rfl

theorem decode_encode {r : Response} {body : List UInt8} (h : r.Fits) (he : r.encode = .ok body) :
    Response.decode body = .ok r := by
  rw [← List.append_nil body]
  exact decode_encode_append h he []

end Response

end Telefile
