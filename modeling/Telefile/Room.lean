import Telefile.Hub
import Telefile.Remote

/-!
# Room for a read

Before it reads anything a read makes the buffer for its bytes: as long as its client asks for, and
no longer than a transfer. No buffer is longer than `maxBuffer`, and memory may give less, up to
some `room`. A read that gets no buffer breaks off: there is no answer, nothing has changed, and
whoever waits for it breaks off with it. A connection that breaks off is closed behind the replies
it has sent. Its session is not told, and so keeps its descriptors.

* `Service.HasRoom` — whether a request gets the buffer it asks for;
* `Hub.call?`, `Hub.step?`, `Hub.run?` — a call, an event and a history, unless a read breaks off;
* `Connection.receive?`, `Server.receiveIn`, `remoteCallIn` — the same for a chunk of a stream, and
  for a call over a connection.
-/

namespace Telefile

/-- The length of the longest buffer that any memory gives. -/
def maxBuffer : Nat := 9223372036854775807

/-! ## 1. Requests -/

namespace Service

/-- The length of the buffer that a request asks for. Only a read asks for one, and only if it has a
file to read and somewhere to put the bytes. -/
def bufferOf (s : Service) : Request → Nat
  | .read fd (some n) =>
    match s.handle fd with
    | .ok _ => min n s.settings.maxTransfer
    | .error _ => 0
  | _ => 0

/-- Memory with so much room gives the buffer that a request asks for. -/
def HasRoom (room : Nat) (s : Service) (q : Request) : Prop := s.bufferOf q ≤ min room maxBuffer

instance (room : Nat) (s : Service) (q : Request) : Decidable (s.HasRoom room q) :=
  inferInstanceAs (Decidable (_ ≤ _))

end Service

/-! ## 2. Sessions side by side -/

namespace Hub

/-- A request of a session, unless it breaks off. -/
def call? (room : Nat) (b : Hub) (id : Nat) (q : Request) : Option (Step Hub (Option Response)) :=
  match b.session? id with
  | none => some (.stay b none)
  | some _ => if b.service.HasRoom room q then some (b.call id q) else none

/-- One event, unless it breaks off. -/
def step? (room : Nat) (b : Hub) : HubEvent → Option (Option Response × Hub)
  | .call id q => (b.call? room id q).map fun r => (r.answer, r.state)
  | .join => some (b.step .join)
  | .leave id => some (b.step (.leave id))

/-- A history, unless one of its events breaks off. -/
def run? (room : Nat) (b : Hub) : List HubEvent → Option (List (Option Response) × Hub)
  | [] => some ([], b)
  | e :: es =>
    match b.step? room e with
    | none => none
    | some (r, b') => (b'.run? room es).map fun rest => (r :: rest.1, rest.2)

end Hub

/-! ## 3. Connections -/

namespace Connection

/-- The length of the buffer that an event of the stream asks for. -/
def bufferOf (p : Progress) : FrameEvent → Nat
  | .oversized => 0
  | .frame body =>
    match p.connection.ended, Request.decode body with
    | false, .ok q => p.service.bufferOf q
    | _, _ => 0

/-- Acts on one event of the stream; an error if that breaks off, with what was done before. -/
def act? (room limit : Nat) (p : Progress) (e : FrameEvent) : Except Progress Progress :=
  if bufferOf p e ≤ min room maxBuffer then .ok (act limit p e) else .error p

/-- Takes a chunk of the stream, as far as nothing breaks off. -/
def receive? (room limit : Nat) (k : Connection) (s : Service) (chunk : List UInt8) :
    Except Progress Progress :=
  let (incoming, events) := k.incoming.feed limit chunk
  events.foldlM (act? room limit) ⟨{ k with incoming }, s, []⟩

end Connection

/-- Bytes arrive on connection `id`, which may break off. -/
def Server.receiveIn (room : Nat) (v : Server) (id : Nat) (chunk : List UInt8) :
    List (List UInt8) × Server :=
  match v.connections.get? id with
  | none => ([], v)
  | some k =>
    match k.receive? room v.maxFrame v.service chunk with
    | .ok _ => v.receive id chunk
    | .error p =>
      (p.replies, { v with service := p.service, connections := v.connections.erase id })

/-- A call of a client over connection `id`, which may break off. -/
def remoteCallIn {α : Type} (room : Nat) (v : Server) (id : Nat) (c : Client) (m : Call α) :
    Except ClientError α × Client × Server :=
  match c.send m.request with
  | .error e => (.error e, c, v)
  | .ok frame =>
    let (bodies, v') := v.receiveIn room id frame
    let (r, c') := c.perform m fun _ => (replyBytes v.maxFrame bodies, !v'.isConnected id)
    (r, c', v')

end Telefile
