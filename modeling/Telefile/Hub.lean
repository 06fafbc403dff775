import Telefile.Session

/-!
# Sessions side by side

One service and the sessions that have not ended, by their numbers. A history is a list of events:
clients join, send requests and leave.

* `Hub.join`, `Hub.call`, `Hub.leave` are the events;
* `Hub.run` takes a whole history, and gives the responses; a history may be cut anywhere
  (`run_append`).
-/

namespace Telefile

/-- A service and the sessions that have not ended. -/
structure Hub where
  service : Service
  sessions : Dictionary Nat Session

/-- What happens at a hub. -/
inductive HubEvent
  | join
  /-- A request of session `id`. -/
  | call (id : Nat) (request : Request)
  /-- The client of session `id` is gone. -/
  | leave (id : Nat)
  deriving DecidableEq, Repr

namespace Hub

/-- A new service without sessions. -/
def start (settings : Settings) (host : Host) : Step Host Hub :=
  let r := Service.start settings host
  ⟨⟨r.answer, .empty⟩, r.state, r.log⟩

/-- A new session; its number. -/
def join (b : Hub) : Step Hub Nat :=
  let r := Session.start b.service
  ⟨r.answer.id, ⟨r.state, b.sessions.insert r.answer.id r.answer⟩, r.log⟩

/-- The session with a number, unless it has ended. -/
def session? (b : Hub) (id : Nat) : Option Session := b.sessions.get? id

/-- A request of a session; no response if it has ended. -/
def call (b : Hub) (id : Nat) (q : Request) : Step Hub (Option Response) :=
  match b.session? id with
  | none => .stay b none
  | some c =>
    let r := c.answer b.service q
    ⟨some r.answer, ⟨r.state.2, b.sessions.insert id r.state.1⟩, r.log⟩

/-- The end of a session. -/
def leave (b : Hub) (id : Nat) : Step Hub Unit :=
  match b.session? id with
  | none => .stay b ()
  | some c =>
    let r := c.finish b.service
    ⟨(), ⟨r.state, b.sessions.erase id⟩, r.log⟩

/-- One event, and the response if it was a request. -/
def step (b : Hub) : HubEvent → Option Response × Hub
  | .join => (none, b.join.state)
  | .call id q => let r := b.call id q; (r.answer, r.state)
  | .leave id => (none, (b.leave id).state)

/-- A history: the responses in order, and the hub after it. -/
def run (b : Hub) : List HubEvent → List (Option Response) × Hub
  | [] => ([], b)
  | e :: es =>
    let (r, b') := b.step e
    let (rs, after) := b'.run es
    (r :: rs, after)

/-- **Two histories, one after the other, are run as one.** -/
theorem run_append (b : Hub) (es fs : List HubEvent) :
    b.run (es ++ fs) = ((b.run es).1 ++ ((b.run es).2.run fs).1, ((b.run es).2.run fs).2) := by
  induction es generalizing b with
  | nil => rfl
  | cons e es ih => simp only [List.cons_append, run, ih]

end Hub

end Telefile
