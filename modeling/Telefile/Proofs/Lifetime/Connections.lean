import Telefile.Proofs.Lifetime.Descriptors
import Telefile.Proofs.Lifetime.Sessions
import Telefile.Proofs.Remote.Histories

/-!
# What connections hold

A connection's session is a session of the hub behind the server: what arrives on the stream is a
list of requests of that session, and however the stream ends, the session ends with it. So what
holds of sessions holds of connections.

* `Server.Served` — the servers that clients and others bring about;
* `Server.Shows` — a server shows a hub: one service, and a connection for every session;
* `Server.Served.recorded` — behind every server there is a recorded history;
* **`sessions_own_descriptors`** — who owns which descriptor, and that nothing is left behind.
-/

namespace Telefile

/-! ## 1. Servers and hubs -/

namespace Server

/-- The servers that a configuration can come to on `host`: clients connect, send bytes in whatever
chunks and go, and others may change the host. -/
inductive Served (config : ServerConfig) (host : Host) : Server → Prop
  | bind {v} (h : Server.bind config host = .ok v) : Served config host v
  | accept {v} (h : Served config host v) : Served config host v.accept.2
  | receive {v} (id : Nat) (chunk : List UInt8) (h : Served config host v) :
    Served config host (v.receive id chunk).2
  | hangUp {v} (id : Nat) (h : Served config host v) : Served config host (v.hangUp id)
  | outside {v} (other : Host) (h : Served config host v) :
    Served config host { v with service := { v.service with host := other } }

/-- The server has the service of the hub, and a connection for every session that has not ended. -/
structure Shows (v : Server) (b : Hub) : Prop where
  service : v.service = b.service
  sessions : Dictionary.Follows (fun _ => Connection.session) b.sessions v.connections

/-- Connection `id` owns the descriptor `fd`: its session knows to have opened it. -/
def Owns (v : Server) (id : Nat) (fd : Fd) : Prop :=
  ∃ k, v.connections.get? id = some k ∧ fd ∈ k.session.opened

variable {v : Server} {b : Hub} {id : Nat} {fd : Fd}

theorem Shows.owns_iff (h : v.Shows b) : v.Owns id fd ↔ b.Owns id fd := by
  have hid : b.session? id = (v.connections.get? id).map Connection.session := h.sessions id
  unfold Owns Hub.Owns
  rw [hid]
  cases v.connections.get? id <;> simp

theorem Shows.session_eq_none_iff (h : v.Shows b) :
    b.session? id = none ↔ v.isConnected id = false := by
  have hid : b.session? id = (v.connections.get? id).map Connection.session := h.sessions id
  rw [hid]
  unfold isConnected Dictionary.contains
  cases v.connections.get? id <;> simp

end Server

/-! ## 2. A chunk is a list of requests -/

section Chunks

open Connection

variable {settings : Settings} {host : Host} {notes : List Note} {b : Hub} {id limit : Nat}
  {p : Progress}

/-- The connection's session is session `id` of the hub, which has its service. -/
structure Connection.Progress.Shows (p : Progress) (b : Hub) (id : Nat) : Prop where
  service : p.service = b.service
  session : b.session? id = some p.connection.session

/-- What acting on a frame does to session and service is what the reply to it does. -/
theorem Connection.act_frame (limit : Nat) (hlive : p.connection.ended = false)
    (body : List UInt8) :
    (act limit p (.frame body)).service =
        (replyTo limit p.connection.session p.service body).state.2 ∧
      (act limit p (.frame body)).connection.session =
        (replyTo limit p.connection.session p.service body).state.1 := by
  cases hreply : (replyTo limit p.connection.session p.service body).answer with
  | none =>
    rw [act_frame_of_none hlive hreply]
    exact ⟨rfl, rfl⟩
  | some reply =>
    rw [act_frame_of_some hlive hreply]
    exact ⟨rfl, rfl⟩

theorem Connection.act_of_ended (limit : Nat) (hended : p.connection.ended = true)
    (e : FrameEvent) : act limit p e = p := by
  unfold act
  rw [if_pos hended]

theorem Connection.foldl_act_of_ended (limit : Nat) (hended : p.connection.ended = true)
    (events : List FrameEvent) : events.foldl (act limit) p = p := by
  induction events with
  | nil => rfl
  | cons e events ih =>
    rw [List.foldl_cons, act_of_ended limit hended]
    exact ih

/-- An event of the stream is a request of the session, or nothing to it. -/
theorem Hub.Recorded.act (limit : Nat) (h : Recorded settings host notes b) (hp : p.Shows b id)
    (e : FrameEvent) :
    ∃ notes' b', Recorded settings host notes' b' ∧ (act limit p e).Shows b' id ∧
      ∀ i, i ≠ id → b'.session? i = b.session? i := by
  by_cases hended : p.connection.ended = true
  · rw [act_of_ended limit hended]
    exact ⟨notes, b, h, hp, fun _ _ => rfl⟩
  · have hlive : p.connection.ended = false := Bool.eq_false_iff.mpr hended
    cases e with
    | oversized =>
      refine ⟨notes, b, h, ?_, fun _ _ => rfl⟩
      unfold Connection.act
      rw [hlive]
      exact ⟨hp.service, hp.session⟩
    | frame body =>
      obtain ⟨hservice, hsession⟩ := act_frame limit hlive body
      cases hq : Request.decode body with
      | error u =>
        have hstate : (replyTo limit p.connection.session p.service body).state =
            (p.connection.session, p.service) := by
          unfold replyTo
          rw [hq]
        rw [hstate] at hservice hsession
        exact ⟨notes, b, h, ⟨hservice.trans hp.service, by rw [hsession]; exact hp.session⟩,
          fun _ _ => rfl⟩
      | ok q =>
        have hstate : (replyTo limit p.connection.session p.service body).state =
            (p.connection.session.answer b.service q).state := by
          unfold replyTo
          rw [hq, hp.service]
        rw [hstate] at hservice hsession
        refine ⟨_, _, h.event (.call id q), ?_⟩
        rw [Hub.step_call hp.session]
        refine ⟨⟨hservice, ?_⟩, fun i hi => ?_⟩
        · rw [hsession]
          exact Dictionary.get?_insert_self _ _ _
        · show Dictionary.get? _ i = _
          rw [Dictionary.get?_insert, if_neg hi]
          rfl

/-- So are all events of a chunk. -/
theorem Hub.Recorded.acts (limit : Nat) (events : List FrameEvent) :
    ∀ {p : Progress} {notes : List Note} {b : Hub}, Recorded settings host notes b →
      p.Shows b id → ∃ notes' b', Recorded settings host notes' b' ∧
        (events.foldl (Connection.act limit) p).Shows b' id ∧
        ∀ i, i ≠ id → b'.session? i = b.session? i := by
  induction events with
  | nil => exact fun h hp => ⟨_, _, h, hp, fun _ _ => rfl⟩
  | cons e events ih =>
    intro p notes b h hp
    obtain ⟨notes', b', h', hp', hothers⟩ := h.act limit hp e
    obtain ⟨notes'', b'', h'', hp'', hothers'⟩ := ih h' hp'
    exact ⟨notes'', b'', h'', hp'', fun i hi => (hothers' i hi).trans (hothers i hi)⟩

/-- A length over the limit ends the connection, whatever came before it. -/
theorem Connection.ended_of_oversized {events : List FrameEvent} (he : .oversized ∈ events) :
    ∀ p : Progress, (events.foldl (act limit) p).connection.ended = true := by
  induction events with
  | nil => cases he
  | cons e events ih =>
    intro p
    rw [List.foldl_cons]
    rcases List.mem_cons.mp he with rfl | he
    · have hended : (act limit p .oversized).connection.ended = true := by
        unfold act
        split
        · assumption
        · rfl
      rw [foldl_act_of_ended limit hended]
      exact hended
    · exact ih he _

end Chunks

/-! ## 3. Behind every server there is a recorded history -/

namespace Server

variable {config : ServerConfig} {host : Host} {v : Server} {b : Hub} {settings : Settings}
  {notes : List Note}

theorem hangUp_of_connection {k : Connection} {id : Nat} (hk : v.connections.get? id = some k) :
    v.hangUp id = { v with
      service := (k.session.finish v.service).state
      connections := v.connections.erase id } := by
  unfold Server.hangUp
  rw [hk]
  rfl

theorem hangUp_of_none {id : Nat} (hk : v.connections.get? id = none) : v.hangUp id = v := by
  unfold Server.hangUp
  rw [hk]

theorem Shows.hangUp (h : v.Shows b) (id : Nat) : (v.hangUp id).Shows (b.leave id).state := by
  have hid : b.session? id = (v.connections.get? id).map Connection.session := h.sessions id
  cases hk : v.connections.get? id with
  | none =>
    rw [hk] at hid
    rw [hangUp_of_none hk, Hub.leave_of_ended hid]
    exact h
  | some k =>
    rw [hk] at hid
    rw [hangUp_of_connection hk, Hub.leave_of_session hid]
    refine ⟨?_, h.sessions.erase id⟩
    show (k.session.finish v.service).state = _
    rw [h.service]

theorem Shows.receive (h : v.Shows b) (hb : Hub.Recorded settings host notes b) (id : Nat)
    (chunk : List UInt8) : ∃ notes' b', Hub.Recorded settings host notes' b' ∧
      (v.receive id chunk).2.Shows b' := by
  have hid : b.session? id = (v.connections.get? id).map Connection.session := h.sessions id
  unfold Server.receive
  cases hk : v.connections.get? id with
  | none => exact ⟨notes, b, hb, h⟩
  | some k =>
    rw [hk] at hid
    have hstart : Connection.Progress.Shows
        ⟨{ k with incoming := (k.incoming.feed v.maxFrame chunk).1 }, v.service, []⟩ b id :=
      ⟨h.service, hid⟩
    obtain ⟨notes', b', hb', hp, hothers⟩ :=
      Hub.Recorded.acts v.maxFrame (k.incoming.feed v.maxFrame chunk).2 hb hstart
    have hafter : Shows { v with
        service := (k.receive v.maxFrame v.service chunk).service
        connections := v.connections.insert id
          (k.receive v.maxFrame v.service chunk).connection } b' := by
      refine ⟨hp.service, fun i => ?_⟩
      show b'.session? i = _
      rw [Dictionary.get?_insert]
      by_cases hi : i = id
      · rw [if_pos hi, hi]
        exact hp.session
      · rw [if_neg hi, hothers i hi]
        exact h.sessions i
    dsimp only
    split
    · exact ⟨_, _, hb'.event (.leave id), hafter.hangUp id⟩
    · exact ⟨notes', b', hb', hafter⟩

/-- **Behind every server there is a recorded history** of its clients' sessions. -/
theorem Served.recorded (h : Served config host v) :
    ∃ notes b, Hub.Recorded config.service host notes b ∧ v.Shows b := by
  induction h with
  | @bind v h =>
    obtain ⟨hmirrors, -⟩ := RemoteWorld.mirrors_bind h fun _ => 0
    refine ⟨[], _, .start, hmirrors.service, fun i => ?_⟩
    rw [show v.connections.get? i = none from hmirrors.connections i]
    rfl
  | @accept v _ ih =>
    obtain ⟨notes, b, hb, hshows⟩ := ih
    refine ⟨_, _, hb.event .join, ?_⟩
    obtain ⟨limit, s, connections⟩ := v
    obtain ⟨rfl, hsessions⟩ := hshows
    exact ⟨rfl, hsessions.insert b.service.nextSession (.idle ⟨b.service.nextSession, []⟩)⟩
  | receive id chunk _ ih =>
    obtain ⟨notes, b, hb, hshows⟩ := ih
    exact hshows.receive hb id chunk
  | hangUp id _ ih =>
    obtain ⟨notes, b, hb, hshows⟩ := ih
    exact ⟨_, _, hb.event (.leave id), hshows.hangUp id⟩
  | @outside v other _ ih =>
    obtain ⟨notes, b, hb, hshows⟩ := ih
    refine ⟨notes, _, hb.outside other, ?_, hshows.sessions⟩
    show ({ v.service with host := other } : Service) = { b.service with host := other }
    rw [hshows.service]

/-! ## 4. A connection that ends -/

theorem isConnected_hangUp (v : Server) (id : Nat) : (v.hangUp id).isConnected id = false := by
  unfold isConnected Dictionary.contains
  cases hk : v.connections.get? id with
  | none =>
    rw [hangUp_of_none hk, hk]
    rfl
  | some k =>
    rw [hangUp_of_connection hk, Dictionary.get?_erase_self]
    rfl

/-- A length over the limit ends the connection. -/
theorem isConnected_receive {k : Connection} {id : Nat} {chunk : List UInt8}
    (hk : v.connections.get? id = some k)
    (he : .oversized ∈ (k.incoming.feed v.maxFrame chunk).2) :
    (v.receive id chunk).2.isConnected id = false := by
  have hended : (k.receive v.maxFrame v.service chunk).connection.ended = true :=
    Connection.ended_of_oversized he _
  unfold Server.receive
  rw [hk]
  dsimp only
  rw [if_pos hended]
  exact isConnected_hangUp _ id

end Server

/-! ## 5. Who owns what -/

/-- **Sessions own descriptors, and leave none behind.** Where sessions take their descriptors
along, every live descriptor belongs to what exactly one session knows to have opened, the one whose
open returned it; the end of a session removes the descriptors that were issued to it and no other;
and without sessions the table is empty. Where they do not, the end of a session changes nothing. A
session knows the descriptors that were issued to it and that it has not itself closed, in order.

The connections of a server own descriptors in the same way. However the stream of one ends, at
whichever byte or at a length over the limit, it is not served any more; and without connections the
table is empty. -/
theorem sessions_own_descriptors :
    (∀ settings host notes b, Hub.Recorded settings host notes b →
      (settings.closeOnSessionEnd = true →
        (∀ fd, (b.service.table.lookup fd).isSome →
          ∃ id, .issued id fd ∈ effects notes ∧ ∀ i, b.Owns i fd ↔ i = id) ∧
        (∀ id c fd, b.session? id = some c → (b.leave id).state.service.table.lookup fd =
          if .issued id fd ∈ effects notes then none else b.service.table.lookup fd) ∧
        ((∀ id, b.session? id = none) → b.service.table.isEmpty)) ∧
      (settings.closeOnSessionEnd = false → ∀ c : Session, (c.finish b.service).state = b.service) ∧
      ∀ id c, b.session? id = some c →
        c.opened = openedBy id (effects notes) ∧ c.opened.Pairwise (· < ·)) ∧
    (∀ config host v, Server.Served config host v →
      (∀ id, (v.hangUp id).isConnected id = false) ∧
      (∀ id k chunk, v.connections.get? id = some k →
        .oversized ∈ (k.incoming.feed v.maxFrame chunk).2 →
        (v.receive id chunk).2.isConnected id = false) ∧
      (config.service.closeOnSessionEnd = true →
        (∀ fd, (v.service.table.lookup fd).isSome → ∃ id, ∀ i, v.Owns i fd ↔ i = id) ∧
        (∀ id k fd, v.connections.get? id = some k → (v.hangUp id).service.table.lookup fd =
          if fd ∈ k.session.opened then none else v.service.table.lookup fd) ∧
        ((∀ id, v.isConnected id = false) → v.service.table.isEmpty))) := by
  refine ⟨?_, ?_⟩
  · intro settings host notes b h
    refine ⟨fun hcleanup => ⟨fun fd => h.owner hcleanup, fun id c fd hc => ?_, ?_⟩, ?_, ?_⟩
    · exact h.lookup_leave hcleanup hc fd
    · exact h.isEmpty_of_ended hcleanup
    · intro hkeep c
      exact c.finish_of_no_cleanup b.service (h.settings_eq ▸ hkeep)
    · exact fun id c hc => ⟨h.opened_eq hc, h.opened_increasing hc⟩
  · intro config host v h
    obtain ⟨notes, b, hb, hshows⟩ := h.recorded
    refine ⟨v.isConnected_hangUp, fun id k chunk hk => Server.isConnected_receive hk,
      fun hcleanup => ⟨fun fd hlive => ?_, fun id k fd hk => ?_, fun hnone => ?_⟩⟩
    · rw [hshows.service] at hlive
      obtain ⟨id, -, howns⟩ := hb.owner hcleanup hlive
      exact ⟨id, fun i => hshows.owns_iff.trans (howns i)⟩
    · have hsettings : v.service.settings.closeOnSessionEnd = true := by
        rw [hshows.service, hb.settings_eq]
        exact hcleanup
      rw [Server.hangUp_of_connection hk]
      exact (k.session.finish_of_cleanup v.service hsettings).lookup fd
    · rw [hshows.service]
      exact hb.isEmpty_of_ended hcleanup fun id => hshows.session_eq_none_iff.mpr (hnone id)

/-- A configuration under which sessions take their descriptors along. -/
def ServerConfig.cleaning : ServerConfig := ⟨.default, 8, ⟨none, 4, true⟩⟩

/-- A server with two clients, the first of which has opened `f`. -/
def Server.holdingF : Server :=
  let v : Server := ⟨8, (Service.start ServerConfig.cleaning.service Host.fourBytes).answer, .empty⟩
  let v' := v.accept.2.accept.2
  { v' with
    service := v'.service.openedF
    connections := v'.connections.insert 1 (.idle ⟨1, [1001]⟩) }

theorem Server.served_holdingF : Served .cleaning Host.fourBytes holdingF := by
  let v : Server := ⟨8, (Service.start ServerConfig.cleaning.service Host.fourBytes).answer, .empty⟩
  let c : Session := ⟨1, []⟩
  have hbind : Server.bind .cleaning Host.fourBytes = .ok v := rfl
  have hk : v.accept.2.accept.2.connections.get? 1 = some (Connection.idle c) := rfl
  have hlast : v.accept.2.accept.2.service.table.last < maxDescriptor := by decide
  obtain ⟨hanswer, hstate⟩ := c.answer_openF rfl rfl hlast
  have hbody : (c.answer v.accept.2.accept.2.service .openF).answer.encode =
      .ok [0, 0xd2, 0x0f] := by
    have hstatus : (c.answer v.accept.2.accept.2.service .openF).answer = .status 1001 := hanswer
    rw [hstatus]
    rfl
  have hfits : Request.openF.Fits := by
    refine ⟨fun path hpath => ?_, (by decide : FitsUnsigned 32 OpenMode.write.toRaw)⟩
    cases hpath
    unfold FitsText
    decide
  have hreceive := Server.receive_request hk hfits (by decide) hbody (by decide)
  have hserved := (((Served.bind hbind).accept).accept).receive 1
    (Frame.header Request.openF.encode.length ++ Request.openF.encode)
  rw [hreceive, hstate] at hserved
  exact hserved

/-- Session 1 got two descriptors and session 2 closed the first: the other goes with session 1. And
a connection that ends inside a frame, or at a length over the limit, leaves nothing behind. -/
theorem sessions_own_descriptors_reopened :
    let b := Hub.reopened 4 true
    let v := Server.holdingF
    (∃ id, ∀ i, b.Owns i 1002 ↔ i = id) ∧
      (b.leave 1).state.service.table.lookup 1002 = none ∧
      ((b.leave 1).state.leave 2).state.service.table.isEmpty ∧
      (∀ c : Session, (c.finish (Hub.reopened 4 false).service).state =
        (Hub.reopened 4 false).service) ∧
      [1001, 1002] = openedBy 1 (effects (recordOfReopening 4 true)) ∧
      (∃ id, ∀ i, v.Owns i 1001 ↔ i = id) ∧
      (((v.receive 1 [0, 0]).2.hangUp 1).service.table.lookup 1001 = none) ∧
      (v.receive 2 [0, 0, 0, 9]).2.isConnected 2 = false ∧
      ((v.hangUp 1).hangUp 2).service.table.isEmpty := by
  intro b v
  obtain ⟨hhub, hserver⟩ := sessions_own_descriptors
  have hrecorded := recorded_reopening 4 true
  obtain ⟨hcleanup, -, hknown⟩ := hhub _ _ _ _ hrecorded
  obtain ⟨howner, hleave, -⟩ := hcleanup rfl
  obtain ⟨hended, -, -⟩ := hhub _ _ _ _ ((hrecorded.event (.leave 1)).event (.leave 2))
  obtain ⟨-, -, hempty⟩ := hended rfl
  obtain ⟨-, hkept, -⟩ := hhub _ _ _ _ (recorded_reopening 4 false)
  have hserved := Server.served_holdingF
  obtain ⟨-, hoversized, hserves⟩ := hserver _ _ _ hserved
  obtain ⟨hlive, -, -⟩ := hserves rfl
  obtain ⟨-, -, hserves'⟩ := hserver _ _ _ (hserved.receive 1 [0, 0])
  obtain ⟨-, hgone, -⟩ := hserves' rfl
  obtain ⟨-, -, hserves''⟩ := hserver _ _ _ ((hserved.hangUp 1).hangUp 2)
  obtain ⟨-, -, hnone⟩ := hserves'' rfl
  refine ⟨?_, ?_, ?_, hkept rfl, hknown 1 ⟨1, [1001, 1002]⟩ rfl |>.1, hlive 1001 rfl, ?_, ?_, ?_⟩
  · obtain ⟨id, -, hid⟩ := howner 1002 rfl
    exact ⟨id, hid⟩
  · rw [hleave 1 ⟨1, [1001, 1002]⟩ 1002 rfl, effects_reopening]
    rfl
  · refine hempty fun id => ?_
    rfl
  · rw [hgone 1 ⟨⟨1, [1001]⟩, .head [0, 0], false⟩ 1001 rfl]
    rfl
  · exact hoversized 2 (.idle ⟨2, []⟩) [0, 0, 0, 9] rfl (by decide)
  · refine hnone fun id => ?_
    rfl

end Telefile
