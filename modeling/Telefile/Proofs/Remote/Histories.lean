import Telefile.Proofs.Remote.Calls

/-!
# Clients side by side

Clients connect, call and leave, in any order, each with its own limit for frames. As long as every
request and every response fits, they get what sessions side by side get, and leave the service as
those do.

* `RemoteEvent` — what clients do; `RemoteWorld.step` is its effect over connections, and
  `Hub.perform` its effect on sessions of the same service;
* `RemoteWorld.Mirrors` — the world of connections that stands for a hub;
* `RemoteWorld.mirrors_step`, `RemoteWorld.mirrors_run` — an event, and a history, keep it and give
  the same results;
* **`remote_calls_are_local`** — from the start of a server on.
-/

namespace Telefile

/-- What clients do. -/
inductive RemoteEvent
  | connect
  | call (id : Nat) (m : Method)
  | disconnect (id : Nat)
  deriving DecidableEq, Repr

/-- What events give, one after the other, and the state after them. -/
def runEvents {σ ε ρ : Type} (step : σ → ε → ρ × σ) (s : σ) : List ε → List ρ × σ
  | [] => ([], s)
  | e :: es =>
    let (r, s') := step s e
    let (rs, after) := runEvents step s' es
    (r :: rs, after)

/-! ## 1. Dictionaries that follow each other -/

namespace Dictionary

variable {κ α β : Type} [DecidableEq κ]

/-- `d` holds what `f` makes of the values of `e`, under the same keys. -/
def Follows (f : κ → α → β) (d : Dictionary κ β) (e : Dictionary κ α) : Prop :=
  ∀ k, d.get? k = (e.get? k).map (f k)

variable {f : κ → α → β} {d : Dictionary κ β} {e : Dictionary κ α}

theorem Follows.insert (h : Follows f d e) (k : κ) (a : α) :
    Follows f (d.insert k (f k a)) (e.insert k a) := by
  intro q
  rw [get?_insert, get?_insert]
  by_cases hq : q = k
  · rw [if_pos hq, if_pos hq, hq]
    rfl
  · rw [if_neg hq, if_neg hq]
    exact h q

theorem Follows.erase (h : Follows f d e) (k : κ) : Follows f (d.erase k) (e.erase k) := by
  intro q
  rw [get?_erase, get?_erase]
  by_cases hq : q = k
  · rw [if_pos hq, if_pos hq]
    rfl
  · rw [if_neg hq, if_neg hq]
    exact h q

theorem Follows.erase_of_none (h : Follows f d e) {k : κ} (hk : e.get? k = none) :
    Follows f (d.erase k) e := by
  intro q
  rw [get?_erase]
  by_cases hq : q = k
  · rw [if_pos hq, hq, hk]
    rfl
  · rw [if_neg hq]
    exact h q

end Dictionary

/-! ## 2. Over connections -/

/-- A server and the clients that are connected to it, by the numbers of their connections. -/
structure RemoteWorld where
  server : Server
  clients : Dictionary Nat Client

namespace RemoteWorld

/-- What a call gives, with the method. -/
abbrev Outcome := Σ m : Method, Except ClientError m.Result

/-- An event over connections; the client of connection `id` has the limit `limits id`. -/
def step (limits : Nat → Nat) (w : RemoteWorld) : RemoteEvent → Option Outcome × RemoteWorld
  | .connect =>
    let (id, server) := w.server.accept
    (none, ⟨server, w.clients.insert id (Client.connect (limits id))⟩)
  | .call id m =>
    match w.clients.get? id with
    | none => (none, w)
    | some k =>
      let (r, k', server) := remoteCall w.server id k m.call
      (some ⟨m, r⟩, ⟨server, w.clients.insert id k'⟩)
  | .disconnect id => (none, ⟨w.server.hangUp id, w.clients.erase id⟩)

theorem step_call_of_none {limits : Nat → Nat} {w : RemoteWorld} {id : Nat}
    (h : w.clients.get? id = none) (m : Method) : w.step limits (.call id m) = (none, w) := by
  simp only [step, h]

theorem step_call_of_some {limits : Nat → Nat} {w : RemoteWorld} {id : Nat} {k : Client}
    (h : w.clients.get? id = some k) (m : Method) :
    w.step limits (.call id m) =
      (some ⟨m, (remoteCall w.server id k m.call).1⟩,
        ⟨(remoteCall w.server id k m.call).2.2,
          w.clients.insert id (remoteCall w.server id k m.call).2.1⟩) := by
  simp only [step, h]

end RemoteWorld

/-! ## 3. On sessions -/

/-- The event of a hub that stands for what a client does. -/
def RemoteEvent.toHub : RemoteEvent → HubEvent
  | connect => .join
  | call id m => .call id m.request
  | disconnect id => .leave id

namespace Hub

/-- What a call gives, with the method. -/
abbrev Outcome := Σ m : Method, m.Result

/-- An event on the sessions of a hub. -/
def perform (b : Hub) : RemoteEvent → Option Outcome × Hub
  | .connect => (none, b.join.state)
  | .call id m =>
    match b.session? id with
    | none => (none, b)
    | some c =>
      let r := m.onSession c b.service
      (some ⟨m, r.answer⟩, ⟨r.state.2, b.sessions.insert id r.state.1⟩)
  | .disconnect id => (none, (b.leave id).state)

/-- The event's request and its response fit both ends. -/
def Crosses (serverLimit : Nat) (limits : Nat → Nat) (b : Hub) : RemoteEvent → Prop
  | .call id m => ∀ c, b.session? id = some c → m.Crosses serverLimit (limits id) c b.service
  | .connect | .disconnect _ => True

/-- So do those of every event of a history. -/
def AllCross (serverLimit : Nat) (limits : Nat → Nat) (b : Hub) : List RemoteEvent → Prop
  | [] => True
  | e :: es =>
    b.Crosses serverLimit limits e ∧ AllCross serverLimit limits (b.perform e).2 es

theorem perform_call_of_none {b : Hub} {id : Nat} (h : b.session? id = none) (m : Method) :
    b.perform (.call id m) = (none, b) := by
  simp only [perform, h]

theorem perform_call_of_some {b : Hub} {id : Nat} {c : Session} (h : b.session? id = some c)
    (m : Method) :
    b.perform (.call id m) = (some ⟨m, (m.onSession c b.service).answer⟩,
      ⟨(m.onSession c b.service).state.2,
        b.sessions.insert id (m.onSession c b.service).state.1⟩) := by
  simp only [perform, h]

/-- A hub is changed as by the request that the method sends. -/
theorem perform_toHub (b : Hub) (e : RemoteEvent) : (b.perform e).2 = (b.step e.toHub).2 := by
  cases e with
  | connect => rfl
  | disconnect id => rfl
  | call id m =>
    show _ = (b.call id m.request).state
    unfold call
    cases hc : b.session? id with
    | none =>
      rw [perform_call_of_none hc]
      rfl
    | some c =>
      rw [perform_call_of_some hc, ← m.state_answer c b.service]

theorem issued_perform {b : Hub} (h : b.service.Issued) (e : RemoteEvent) :
    (b.perform e).2.service.Issued := by
  rw [perform_toHub]
  exact keeps_step Service.keeps_issued e.toHub h

end Hub

/-! ## 4. One stands for the other -/

namespace RemoteWorld

/-- The world of connections stands for the hub: one service, a connection between two frames for
every session, and a client that waits for nothing for every connection. -/
structure Mirrors (limits : Nat → Nat) (w : RemoteWorld) (b : Hub) : Prop where
  service : w.server.service = b.service
  connections : Dictionary.Follows (fun _ => Connection.idle) w.server.connections b.sessions
  clients : Dictionary.Follows (fun id _ => Client.connect (limits id)) w.clients b.sessions

/-- What a session gives, as a call over a connection gives it. -/
def delivered (o : Hub.Outcome) : Outcome := ⟨o.1, .ok o.2⟩

variable {limits : Nat → Nat} {w : RemoteWorld} {b : Hub}

theorem mirrors_connect (h : w.Mirrors limits b) :
    (w.step limits .connect).2.Mirrors limits (b.perform .connect).2 := by
  obtain ⟨⟨limit, s, connections⟩, clients⟩ := w
  obtain ⟨rfl, hconnections, hclients⟩ := h
  exact ⟨rfl, hconnections.insert _ _, hclients.insert _ _⟩

theorem mirrors_disconnect (h : w.Mirrors limits b) (id : Nat) :
    (w.step limits (.disconnect id)).2.Mirrors limits (b.perform (.disconnect id)).2 := by
  show Mirrors limits ⟨w.server.hangUp id, w.clients.erase id⟩ (b.leave id).state
  have hconnection := h.connections id
  unfold Server.hangUp Hub.leave
  cases hc : b.session? id with
  | none =>
    rw [show b.sessions.get? id = none from hc] at hconnection
    rw [hconnection]
    exact ⟨h.service, h.connections, h.clients.erase_of_none hc⟩
  | some c =>
    rw [show b.sessions.get? id = some c from hc] at hconnection
    rw [hconnection]
    refine ⟨?_, h.connections.erase id, h.clients.erase id⟩
    show (c.finish w.server.service).state = (c.finish b.service).state
    rw [h.service]

/-- A call, with what it gives. -/
theorem mirrors_call (h : w.Mirrors limits b) (hissued : b.service.Issued) (id : Nat) (m : Method)
    (hcross : b.Crosses w.server.maxFrame limits (.call id m)) :
    (w.step limits (.call id m)).1 = (b.perform (.call id m)).1.map delivered ∧
      (w.step limits (.call id m)).2.Mirrors limits (b.perform (.call id m)).2 ∧
      (w.step limits (.call id m)).2.server.maxFrame = w.server.maxFrame := by
  have hconnection := h.connections id
  have hclient := h.clients id
  cases hc : b.session? id with
  | none =>
    rw [show b.sessions.get? id = none from hc] at hclient
    rw [step_call_of_none hclient, Hub.perform_call_of_none hc]
    exact ⟨rfl, h, rfl⟩
  | some c =>
    rw [show b.sessions.get? id = some c from hc] at hconnection hclient
    have hcrosses : m.Crosses w.server.maxFrame (limits id) c w.server.service := by
      rw [h.service]
      exact hcross c hc
    have hcall := remoteCall_of_crosses (by rw [h.service]; exact hissued) hconnection hcrosses
    rw [step_call_of_some hclient, Hub.perform_call_of_some hc, hcall, h.service]
    exact ⟨rfl, ⟨rfl, h.connections.insert id _, h.clients.insert id _⟩, rfl⟩

theorem maxFrame_hangUp (v : Server) (id : Nat) : (v.hangUp id).maxFrame = v.maxFrame := by
  unfold Server.hangUp
  cases v.connections.get? id <;> rfl

/-- **An event** keeps the mirror, and gives what it gives on sessions. -/
theorem mirrors_step (h : w.Mirrors limits b) (hissued : b.service.Issued) (e : RemoteEvent)
    (hcross : b.Crosses w.server.maxFrame limits e) :
    (w.step limits e).1 = (b.perform e).1.map delivered ∧
      (w.step limits e).2.Mirrors limits (b.perform e).2 ∧
      (w.step limits e).2.server.maxFrame = w.server.maxFrame := by
  cases e with
  | connect => exact ⟨rfl, mirrors_connect h, rfl⟩
  | call id m => exact mirrors_call h hissued id m hcross
  | disconnect id => exact ⟨rfl, mirrors_disconnect h id, maxFrame_hangUp w.server id⟩

/-- **A history** keeps the mirror, and gives what it gives on sessions. -/
theorem mirrors_run (events : List RemoteEvent) :
    ∀ {w : RemoteWorld} {b : Hub}, w.Mirrors limits b → b.service.Issued →
      b.AllCross w.server.maxFrame limits events →
      (runEvents (step limits) w events).1 =
        (runEvents Hub.perform b events).1.map (Option.map delivered) ∧
      (runEvents (step limits) w events).2.Mirrors limits (runEvents Hub.perform b events).2 := by
  induction events with
  | nil => exact fun h _ _ => ⟨rfl, h⟩
  | cons e es ih =>
    intro w b h hissued hcross
    obtain ⟨hresult, hmirrors, hlimit⟩ := mirrors_step h hissued e hcross.1
    have hrest : Hub.AllCross (w.step limits e).2.server.maxFrame limits (b.perform e).2 es := by
      rw [hlimit]
      exact hcross.2
    obtain ⟨hresults, hafter⟩ := ih hmirrors (Hub.issued_perform hissued e) hrest
    refine ⟨?_, hafter⟩
    show (w.step limits e).1 :: (runEvents (step limits) (w.step limits e).2 es).1 = _
    rw [hresult, hresults]
    rfl

/-- A server that has just been bound stands for a hub without sessions. -/
theorem mirrors_bind {config : ServerConfig} {host : Host} {v : Server}
    (h : Server.bind config host = .ok v) (limits : Nat → Nat) :
    Mirrors limits ⟨v, .empty⟩ (Hub.start config.service host).answer ∧
      v.maxFrame = config.maxFrame := by
  unfold Server.bind ServerConfig.validate at h
  by_cases hle : config.maxFrame ≤ config.service.maxTransfer
  · rw [if_pos hle] at h
    cases h
  · rw [if_neg hle] at h
    cases h
    exact ⟨⟨rfl, fun _ => rfl, fun _ => rfl⟩, rfl⟩

end RemoteWorld

/-! ## 5. The calls of a server's clients -/

/-- **A remote call is the local call.** In every state that requests lead to, a method over a
connection gives what its call on the session gives, and leaves the service and the session as that
does; a number that names no mode or origin gives -22 and changes nothing. So a history of clients,
from the start of a server on, gives what sessions side by side give, each result unwrapped, and
leaves the service and the sessions as those do. -/
theorem remote_calls_are_local :
    (∀ (settings : Settings) (host : Host) (history : List HubEvent) (v : Server) (id limit : Nat)
      (c : Session) (m : Method), v.service = Hub.serviceAfter settings host history →
      v.connections.get? id = some (Connection.idle c) → m.Crosses v.maxFrame limit c v.service →
      remoteCall v id (Client.connect limit) m.call =
        (.ok (m.onSession c v.service).answer, Client.connect limit, { v with
          service := (m.onSession c v.service).state.2
          connections := v.connections.insert id
            (Connection.idle (m.onSession c v.service).state.1) })) ∧
    (∀ (c : Session) (s : Service) (path : Option String) (fd : Fd) (offset : Int) (raw : Nat),
      (4 ≤ raw → (Method.openRaw path raw).onSession c s = .stay (c, s) (-22 : Int)) ∧
      (3 ≤ raw → (Method.seekRaw fd offset raw).onSession c s = .stay (c, s) (-22 : Int))) ∧
    (∀ (config : ServerConfig) (host : Host) (v : Server) (limits : Nat → Nat)
      (events : List RemoteEvent), Server.bind config host = .ok v →
      (Hub.start config.service host).answer.AllCross config.maxFrame limits events →
      let remote := runEvents (RemoteWorld.step limits) ⟨v, .empty⟩ events
      let hub := runEvents Hub.perform (Hub.start config.service host).answer events
      remote.1 = hub.1.map (Option.map RemoteWorld.delivered) ∧
        remote.2.server.service = hub.2.service ∧ remote.2.Mirrors limits hub.2) := by
  refine ⟨?_, ?_, ?_⟩
  · intro settings host history v id limit c m hservice hconnection hcrosses
    have hissued : v.service.Issued := by
      rw [hservice]
      exact Hub.issued_serviceAfter settings host history
    exact remoteCall_of_crosses hissued hconnection hcrosses
  · intro c s path fd offset raw
    refine ⟨fun hraw => ?_, fun hraw => ?_⟩
    · obtain ⟨n, rfl⟩ := Nat.exists_eq_add_of_le' hraw
      rfl
    · obtain ⟨n, rfl⟩ := Nat.exists_eq_add_of_le' hraw
      rfl
  · intro config host v limits events hbind hcross
    obtain ⟨hmirrors, hlimit⟩ := RemoteWorld.mirrors_bind hbind limits
    rw [← hlimit] at hcross
    have hissued := Hub.issued_serviceAfter config.service host []
    obtain ⟨hresults, hafter⟩ := RemoteWorld.mirrors_run events hmirrors hissued hcross
    exact ⟨hresults, hafter.service, hafter⟩

/-- A client closes a descriptor that was never issued. -/
theorem remote_calls_are_local_close :
    let host := Host.fresh [Utf8.encode "srv"] ⟨0, 0⟩ none
    let v : Server := ⟨defaultMaxFrame, (Service.start .default host).answer, .empty⟩
    let events : List RemoteEvent := [.connect, .call 1 (.close 7)]
    Server.bind .default host = .ok v ∧
      (remoteCall v.accept.2 1 (Client.connect 16) (Method.close 7).call).1 = .ok (-9 : Int) ∧
      (Method.openRaw none 4).onSession ⟨1, []⟩ v.service =
        .stay (⟨1, []⟩, v.service) (-22 : Int) ∧
      (runEvents (RemoteWorld.step fun _ => 16) ⟨v, .empty⟩ events).1 =
        [none, some ⟨.close 7, .ok (-9 : Int)⟩] := by
  intro host v events
  have hbind : Server.bind .default host = .ok v := rfl
  have hcross : (Method.close 7).Crosses defaultMaxFrame 16 ⟨1, []⟩ v.accept.2.service :=
    { request_fits := (by decide : FitsSigned 32 7)
      request_sent := by decide
      request_taken := by decide
      reply_fits := (by decide : FitsSigned 64 (-9))
      reply_sent := ⟨[0, 17], rfl, by decide, by decide⟩ }
  have hall : (Hub.start ServerConfig.default.service host).answer.AllCross defaultMaxFrame
      (fun _ => 16) events := by
    refine ⟨trivial, ?_, trivial⟩
    intro c hc
    cases hc
    exact hcross
  refine ⟨hbind, ?_, (remote_calls_are_local.2.1 ⟨1, []⟩ v.service none 0 0 4).1 (by decide), ?_⟩
  · rw [remote_calls_are_local.1 .default host [.join] v.accept.2 1 16 ⟨1, []⟩ (.close 7) rfl rfl
      hcross]
    rfl
  · rw [(remote_calls_are_local.2.2 .default host v (fun _ => 16) events hbind hall).1]
    rfl

end Telefile
