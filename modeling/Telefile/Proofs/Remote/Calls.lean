import Telefile.Proofs.Frames
import Telefile.Proofs.Remote.Methods
import Telefile.Proofs.Reply.Every
import Telefile.Proofs.Wire.RoundTrip
import Telefile.Remote

/-!
# A call over a connection is the call

A client that waits for nothing sends the frame of a request. The server, between two frames,
answers it with the frame of the response, and the client unwraps that. So the call gives what the
session gives, and both ends are as before, but for the session and the service.

* `Method.Crosses` — the request and the response fit both ends;
* `Server.receive_replied`, `Client.perform_reply` — the two ends of the call;
* **`remoteCall_of_reply`**, `remoteCall_of_crosses` — the call.
-/

namespace Telefile

/-- The request of a method, and the response that a session has for it, lie in the widths of their
fields, have bodies, and fit in the frames of the server and of the client. -/
structure Method.Crosses (m : Method) (serverLimit clientLimit : Nat) (c : Session) (s : Service) :
    Prop where
  request_fits : m.request.Fits
  request_sent : Frame.Carries clientLimit m.request.encode
  request_taken : Frame.Carries serverLimit m.request.encode
  reply_fits : (c.answer s m.request).answer.Fits
  reply_sent : ∃ body, (c.answer s m.request).answer.encode = .ok body ∧
    Frame.Carries serverLimit body ∧ Frame.Carries clientLimit body

/-! ## 1. The server -/

section Server

variable {limit : Nat} {c : Session} {s : Service} {q : Request} {body : List UInt8}

/-- A request whose response has a body that fits is answered by that body. -/
theorem replyTo_of_carries (hq : q.Fits) (he : (c.answer s q).answer.encode = .ok body)
    (hbody : Frame.Carries limit body) :
    (replyTo limit c s q.encode).answer = some body ∧
      (replyTo limit c s q.encode).state = (c.answer s q).state := by
  unfold replyTo
  rw [Request.decode_encode hq]
  dsimp only
  rw [fitReply_of_le he hbody.1, sendable_of_carries hbody]
  exact ⟨rfl, rfl⟩

/-- **The server's end of a call**: one reply, and the connection is served on. -/
theorem Server.receive_replied {v : Server} {id : Nat} {reply : List UInt8}
    (hk : v.connections.get? id = some (Connection.idle c)) (hsent : Frame.Carries v.maxFrame body)
    (hreply : (replyTo v.maxFrame c v.service body).answer = some reply) :
    let after := (replyTo v.maxFrame c v.service body).state
    v.receive id (Frame.header body.length ++ body) =
      ([reply], { v with
        service := after.2
        connections := v.connections.insert id (Connection.idle after.1) }) := by
  unfold Server.receive
  rw [hk]
  dsimp only
  rw [Connection.receive_frame hsent, Connection.act_of_some hreply]
  rfl

/-- A request whose response has a body that fits is replied to by that body. -/
theorem Server.receive_request {v : Server} {id : Nat}
    (hk : v.connections.get? id = some (Connection.idle c)) (hq : q.Fits)
    (hsent : Frame.Carries v.maxFrame q.encode)
    (he : (c.answer v.service q).answer.encode = .ok body)
    (hbody : Frame.Carries v.maxFrame body) :
    v.receive id (Frame.header q.encode.length ++ q.encode) =
      ([body], { v with
        service := (c.answer v.service q).state.2
        connections := v.connections.insert id
          (Connection.idle (c.answer v.service q).state.1) }) := by
  obtain ⟨hanswer, hstate⟩ := replyTo_of_carries hq he hbody
  have hreceive := Server.receive_replied hk hsent hanswer
  rwa [hstate] at hreceive

end Server

/-! ## 2. The client -/

/-- **The client's end of a call**: it unwraps the one reply and waits for nothing. -/
theorem Client.perform_reply {α : Type} {serverLimit clientLimit : Nat} {m : Call α} {r : Response}
    {body : List UInt8} (hsent : Frame.Carries clientLimit m.request.encode) (hr : r.Fits)
    (he : r.encode = .ok body) (hserver : Frame.Carries serverLimit body)
    (hclient : Frame.Carries clientLimit body) :
    (Client.connect clientLimit).perform m (fun _ => (replyBytes serverLimit [body], false)) =
      (m.take r, Client.connect clientLimit) := by
  have hbytes : replyBytes serverLimit [body] = Frame.header body.length ++ body := by
    unfold replyBytes
    rw [List.flatMap_cons, List.flatMap_nil, List.append_nil, Frame.encode_of_carries hserver]
    rfl
  have hsend : (Client.connect clientLimit).send m.request =
      .ok (Frame.header m.request.encode.length ++ m.request.encode) := by
    show (Frame.encode clientLimit m.request.encode).mapError ClientError.transport = _
    rw [Frame.encode_of_carries hsent]
    rfl
  have hhear : (Client.connect clientLimit).hear (Frame.header body.length ++ body) =
      { Client.connect clientLimit with pending := [.frame body] } := by
    unfold Client.hear
    rw [show (Client.connect clientLimit).incoming = .fresh from rfl,
      show (Client.connect clientLimit).limit = clientLimit from rfl, FrameState.feed_frame hclient]
    rfl
  have hnext : ({ Client.connect clientLimit with pending := [.frame body] } : Client).next =
      (.ok r, Client.connect clientLimit) := by
    show ((Response.decode body).mapError ClientError.protocol, Client.connect clientLimit) = _
    rw [Response.decode_encode hr he]
    rfl
  unfold Client.perform
  rw [hsend, hbytes]
  dsimp only
  rw [hhear, if_neg Bool.false_ne_true]
  dsimp only
  rw [hnext]
  rfl

/-! ## 3. The call -/

/-- **A call over a connection** takes the response that the server's one reply says. -/
theorem remoteCall_of_reply {α : Type} {v : Server} {id limit : Nat} {c : Session} {m : Call α}
    {r : Response} {body : List UInt8} (hk : v.connections.get? id = some (Connection.idle c))
    (hsent : Frame.Carries limit m.request.encode)
    (htaken : Frame.Carries v.maxFrame m.request.encode) (hr : r.Fits) (he : r.encode = .ok body)
    (hreply : (replyTo v.maxFrame c v.service m.request.encode).answer = some body)
    (hclient : Frame.Carries limit body) :
    let after := (replyTo v.maxFrame c v.service m.request.encode).state
    remoteCall v id (Client.connect limit) m =
      (m.take r, Client.connect limit, { v with
        service := after.2
        connections := v.connections.insert id (Connection.idle after.1) }) := by
  have hsend : (Client.connect limit).send m.request =
      .ok (Frame.header m.request.encode.length ++ m.request.encode) := by
    show (Frame.encode limit m.request.encode).mapError ClientError.transport = _
    rw [Frame.encode_of_carries hsent]
    rfl
  have hreceive := Server.receive_replied hk htaken hreply
  have hperform := Client.perform_reply hsent hr he (carries_of_replyTo hreply) hclient
  intro after
  have hconnected : ∀ k, (!({ v with
      service := after.2
      connections := v.connections.insert id k } : Server).isConnected id) = false := by
    intro k
    simp [Server.isConnected, Dictionary.contains]
  unfold remoteCall
  rw [hsend]
  dsimp only
  rw [hreceive]
  dsimp only
  rw [hconnected, hperform]

/-- A call whose request and response fit both ends gives what the method's call on the session
gives, and leaves the session and the service as that does. -/
theorem remoteCall_of_crosses {v : Server} {id limit : Nat} {c : Session} {m : Method}
    (hs : v.service.Issued) (hk : v.connections.get? id = some (Connection.idle c))
    (h : m.Crosses v.maxFrame limit c v.service) :
    let r := m.onSession c v.service
    remoteCall v id (Client.connect limit) m.call =
      (.ok r.answer, Client.connect limit, { v with
        service := r.state.2
        connections := v.connections.insert id (Connection.idle r.state.1) }) := by
  obtain ⟨body, he, hserver, hclient⟩ := h.reply_sent
  obtain ⟨hreply, hstate⟩ := replyTo_of_carries h.request_fits he hserver
  have hcall := remoteCall_of_reply (m := m.call) hk h.request_sent h.request_taken h.reply_fits he
    hreply hclient
  intro r
  rw [show m.call.request = m.request from rfl, hstate, m.take_answer c hs,
    m.state_answer c v.service] at hcall
  exact hcall

end Telefile
