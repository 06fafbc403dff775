import Telefile.Frame
import Telefile.Session
import Telefile.Wire.Message

/-!
# Serving a connection

A connection serves the frames of one byte stream in order. Every body is answered by one reply: a
body that is no request by an invalid-argument status, a request by what its session answers. A
reply that is too long for a frame is replaced by an input/output failure of the same shape. The
connection ends at a length over the limit, at a reply that has no wire form, and at a reply or a
replacement that no frame carries.

* `replyTo` — the reply to one body;
* `Connection.receive` — the replies to a chunk of the stream;
* `Connection.hangUp` — the end, however it comes.
-/

namespace Telefile

/-- A body, if a frame carries it. -/
def sendable (limit : Nat) (body : List UInt8) : Option (List UInt8) :=
  if Frame.Carries limit body then some body else none

/-- The body sent for a response, or for its replacement if it is over the limit; nothing if the
one that is due has no wire form or no frame carries it. -/
def fitReply (limit : Nat) (response fallback : Response) : Option (List UInt8) :=
  match response.encode with
  | .error _ => none
  | .ok body =>
    if body.length ≤ limit then sendable limit body
    else
      match fallback.encode with
      | .error _ => none
      | .ok short => sendable limit short

/-- The answer to a body that is no request. -/
def undecodable : Response := .status Errno.invalid.neg

/-- The reply to one body, if one can be sent. -/
def replyTo (limit : Nat) (c : Session) (s : Service) (body : List UInt8) :
    Step Session.State (Option (List UInt8)) :=
  match Request.decode body with
  | .error _ => ⟨fitReply limit undecodable undecodable, (c, s), []⟩
  | .ok q =>
    let r := c.answer s q
    ⟨fitReply limit r.answer (q.failure .inputOutput), r.state, r.log⟩

/-- A connection: its session, the frame that is coming in, and whether it has ended. -/
structure Connection where
  session : Session
  incoming : FrameState
  ended : Bool
  deriving DecidableEq, Repr

namespace Connection

/-- What a connection works on, and the reply bodies it has sent. -/
structure Progress where
  connection : Connection
  service : Service
  replies : List (List UInt8)

/-- A new connection. -/
def start (s : Service) : Step Service Connection :=
  let r := Session.start s
  ⟨⟨r.answer, .fresh, false⟩, r.state, r.log⟩

/-- Acts on one event of the stream; after the end on none. -/
def act (limit : Nat) (p : Progress) (e : FrameEvent) : Progress :=
  if p.connection.ended then p
  else
    match e with
    | .oversized => { p with connection := { p.connection with ended := true } }
    | .frame body =>
      let r := replyTo limit p.connection.session p.service body
      let connection := { p.connection with session := r.state.1 }
      match r.answer with
      | some reply => ⟨connection, r.state.2, p.replies ++ [reply]⟩
      | none => ⟨{ connection with ended := true }, r.state.2, p.replies⟩

/-- Takes a chunk of the stream. -/
def receive (limit : Nat) (k : Connection) (s : Service) (chunk : List UInt8) : Progress :=
  let (incoming, events) := k.incoming.feed limit chunk
  events.foldl (act limit) ⟨{ k with incoming }, s, []⟩

/-- The end of the connection: its session ends. -/
def hangUp (k : Connection) (s : Service) : Service := (k.session.finish s).state

end Connection

end Telefile
