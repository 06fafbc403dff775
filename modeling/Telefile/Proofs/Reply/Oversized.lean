import Telefile.Proofs.Directories.Paging
import Telefile.Proofs.Remote.Calls

/-!
# Replies that are too long

A reply over the frame limit is replaced by the failure of its request, which is never too long. The
client's method takes the failure for what it is: a code, no payload, and the base that was asked
for.

* `Method.failed` — what a method gives of a failure; `Method.take_failure` — and so it takes it;
* `Request.fits_failure` — a failure goes through the wire;
* `exists_encodeReply` — the bytes that are due, and when they are the full reply;
* **`oversized_replies_degrade`** — all of it, up to the client.
-/

namespace Telefile

/-! ## 1. Failures at the client -/

namespace Method

/-- What a method gives of a failure: the code, and no payload. A page says the base that was asked
for. -/
def failed (e : Errno) : (m : Method) → m.Result
  | raw q => q.failure e
  | openPath .. | openRaw .. | close _ | write .. | seek .. | seekRaw .. | unlink _ => e.neg
  | read .. | readInto .. => (e.neg, [])
  | stat _ => (e.neg, none)
  | listDir _ _ base => (e.neg, base, [])
  | dirTree _ => (e.neg, none)

/-- **A method takes the failure of its request.** -/
theorem take_failure (m : Method) (e : Errno) :
    m.call.take (m.request.failure e) = .ok (m.failed e) := by
  have hnarrow : Call.narrow e.neg = e.neg := Call.narrow_of_fits e.fits_neg
  cases m with
  | openPath path mode => exact takeNarrow_status e.fits_neg
  | openRaw path raw => exact takeNarrow_status e.fits_neg
  | close fd => exact takeNarrow_status e.fits_neg
  | unlink path => exact takeNarrow_status e.fits_neg
  | stat path =>
    show Except.ok (Call.narrow e.neg, none) = _
    rw [hnarrow]
    rfl
  | dirTree path =>
    show Except.ok (Call.narrow e.neg, none) = _
    rw [hnarrow]
    rfl
  | _ => rfl

end Method

/-- The failure of a request lies in its widths as the request does. -/
theorem Request.fits_failure {q : Request} (hq : q.Fits) (e : Errno) : (q.failure e).Fits := by
  obtain ⟨hlow, hhigh⟩ := e.fits_neg
  have hcode : FitsSigned 64 e.neg :=
    ⟨Int.le_trans (by decide) hlow, Int.lt_of_lt_of_le hhigh (by decide)⟩
  have hnothing : (0 : Nat) < 2 ^ 64 := by decide
  cases q with
  | read fd capacity => exact ⟨hcode, hnothing⟩
  | stat path => exact ⟨hcode, fun x hx => by cases hx⟩
  | listDir fd nbytes base =>
    obtain ⟨-, -, hbase⟩ := hq
    exact ⟨hcode, hbase, hnothing, fun x hx => absurd hx List.not_mem_nil⟩
  | dirTree path => exact ⟨hcode, fun x hx => by cases hx⟩
  | _ => exact hcode

/-! ## 2. The bytes that are due -/

section Due

variable {limit : Nat} {q : Request} {r : Response} {full : List UInt8}

/-- **Where every failure fits, the bytes that are due fit**: the full reply if it does, and else a
failure. -/
theorem exists_encodeReply (hlimit : 13 ≤ limit) (he : r.encode = .ok full) :
    ∃ out, encodeReply limit r (q.failure .inputOutput) = .ok out ∧ out.length ≤ limit ∧
      (out = full ↔ full.length ≤ limit) ∧
      (limit < full.length →
        (q.failure .inputOutput).encode = .ok out ∧ out.length ≤ 13) := by
  by_cases hle : full.length ≤ limit
  · refine ⟨full, encodeReply_of_le he hle, hle, ⟨fun _ => hle, fun _ => rfl⟩, fun hlt => ?_⟩
    exact absurd hle (Nat.not_le.mpr hlt)
  · have hlt := Nat.lt_of_not_le hle
    obtain ⟨short, hshort, hlength⟩ := q.encode_failure (e := .inputOutput) (by decide)
    have hfits : short.length ≤ limit := Nat.le_trans hlength hlimit
    refine ⟨short, (encodeReply_of_lt he hlt).trans hshort, hfits, ?_, fun _ => ⟨hshort, hlength⟩⟩
    refine ⟨fun hsame => ?_, fun hfull => absurd hfull hle⟩
    rwa [hsame] at hfits

/-- The reply to a request are the bytes that are due, if a frame carries them. -/
theorem replyTo_of_encodeReply {c : Session} {s : Service} {body out : List UInt8}
    (hbody : Request.decode body = .ok q)
    (hout : encodeReply limit (c.answer s q).answer (q.failure .inputOutput) = .ok out) :
    (replyTo limit c s body).answer = sendable limit out ∧
      (replyTo limit c s body).state = (c.answer s q).state := by
  unfold replyTo
  rw [hbody]
  exact ⟨fitReply_of_encodeReply hout, rfl⟩

end Due

/-! ## 3. Up to the client -/

/-- **Oversized replies degrade cleanly.** Under a limit of 13 bytes at least, the bytes that are
due for any request whose response has a body are within the limit. They are the full reply exactly
if that is within the limit, and else they are read as the failure of the request with the code -5.
Any method that makes the request takes that for its failure, without a payload, and a page with the
base that was asked for; and that is what the method gives over a connection, whose session has
done what was asked all the same. -/
theorem oversized_replies_degrade {limit : Nat} (hlimit : 13 ≤ limit) (c : Session) (s : Service)
    {q : Request} (hq : q.Fits) {full : List UInt8}
    (he : (c.answer s q).answer.encode = .ok full) :
    ∃ out, encodeReply limit (c.answer s q).answer (q.failure .inputOutput) = .ok out ∧
      (∀ body, Request.decode body = .ok q →
        (replyTo limit c s body).answer = sendable limit out) ∧
      out.length ≤ limit ∧ (out = full ↔ full.length ≤ limit) ∧
      (limit < full.length →
        Response.decode out = .ok (q.failure .inputOutput) ∧
        (q.failure .inputOutput).result = -5 ∧
        ∀ m : Method, m.request = q →
          m.call.take (q.failure .inputOutput) = .ok (m.failed .inputOutput) ∧
          ∀ (v : Server) (id clientLimit : Nat), v.maxFrame = limit → v.service = s →
            v.connections.get? id = some (Connection.idle c) → 13 ≤ clientLimit →
            Frame.Carries limit q.encode → Frame.Carries clientLimit q.encode →
            remoteCall v id (Client.connect clientLimit) m.call =
              (.ok (m.failed .inputOutput), Client.connect clientLimit, { v with
                service := (c.answer s q).state.2
                connections :=
                  v.connections.insert id (Connection.idle (c.answer s q).state.1) })) := by
  obtain ⟨out, hout, hle, hfull, hover⟩ := exists_encodeReply (q := q) hlimit he
  refine ⟨out, hout, fun body hbody => (replyTo_of_encodeReply hbody hout).1, hle, hfull,
    fun hlt => ?_⟩
  obtain ⟨hshort, hlength⟩ := hover hlt
  have hfits := Request.fits_failure hq .inputOutput
  refine ⟨Response.decode_encode hfits hshort, q.result_failure .inputOutput, ?_⟩
  rintro m rfl
  refine ⟨m.take_failure .inputOutput, ?_⟩
  rintro v id clientLimit rfl rfl hk hclientLimit htaken hsent
  have hmax : 13 ≤ Frame.maxLength := by decide
  obtain ⟨hreply, hstate⟩ := replyTo_of_encodeReply (Request.decode_encode hq) hout
  rw [sendable_of_carries ⟨hle, Nat.le_trans hlength hmax⟩] at hreply
  have hcall := remoteCall_of_reply (m := m.call) hk hsent htaken hfits hshort hreply
    ⟨Nat.le_trans hlength hclientLimit, Nat.le_trans hlength hmax⟩
  rw [show m.call.request = m.request from rfl, hstate, m.take_failure] at hcall
  exact hcall

/-- A page of three entries takes 15 bytes: where frames have 13, a client gets -5 and its base. -/
theorem oversized_replies_degrade_fourBytes :
    let s : Service := { (Service.start .default Host.fourBytes).answer with
      table := DescriptorTable.new.insert 1001 (.directory (Path.ofString ".")) }
    let c : Session := ⟨1, [1001]⟩
    let v : Server := ⟨13, s, Dictionary.empty.insert 1 (Connection.idle c)⟩
    let q : Request := .listDir 1001 100 0
    let full : List UInt8 :=
      [3, 0x90, 0x01, 3, 3, 1, 0x2e, 1, 2, 0x2e, 0x2e, 1, 1, 0x66, 0]
    13 ≤ 13 ∧ q.Fits ∧ (c.answer s q).answer.encode = .ok full ∧
      (∃ out, encodeReply 13 (c.answer s q).answer (q.failure .inputOutput) = .ok out ∧
        out.length ≤ 13 ∧ Response.decode out = .ok (.entries (-5) 0 [])) ∧
      (remoteCall v 1 (Client.connect 13) (Call.listDir 1001 100 0)).1 = .ok (-5, 0, []) := by
  intro s c v q full
  have hlisted : s.listDir 1001 100 0 =
      .ok ⟨72, 3, [⟨".", .directory⟩, ⟨"..", .directory⟩, ⟨"f", .file⟩]⟩ := by
    rw [Service.listDir_of_readsAs (Service.readsAs_fourBytes rfl rfl)]
    rfl
  have hfull : (c.answer s q).answer.encode = .ok full := by
    rw [c.answer_page hlisted]
    rfl
  have hfits : q.Fits := ⟨by decide, by decide, by decide⟩
  obtain ⟨out, hout, -, hle, -, hover⟩ :=
    oversized_replies_degrade (Nat.le_refl 13) c s hfits hfull
  obtain ⟨hdecode, -, hmethod⟩ := hover (by decide)
  obtain ⟨-, hcall⟩ := hmethod (.listDir 1001 100 0) rfl
  have hremote := hcall v 1 13 rfl rfl rfl (Nat.le_refl 13) (by decide) (by decide)
  exact ⟨Nat.le_refl 13, hfits, hfull, ⟨out, hout, hle, hdecode⟩, congrArg Prod.fst hremote⟩

end Telefile
