import Telefile.Config
import Telefile.Connection

/-!
# The server

One service and the connections of its clients. A connection that has ended gives its session back
and is forgotten.
-/

namespace Telefile

/-- A server that listens. -/
structure Server where
  maxFrame : Nat
  service : Service
  connections : Dictionary Nat Connection

namespace Server

/-- A server for a configuration whose limits go together. -/
def bind (config : ServerConfig) (host : Host) : Except FrameTooSmall Server :=
  match config.validate with
  | .error e => .error e
  | .ok c => .ok ⟨c.maxFrame, (Service.start c.service host).answer, .empty⟩

/-- A client connects; its connection goes by the number of its session. -/
def accept (v : Server) : Nat × Server :=
  let r := Connection.start v.service
  let id := r.answer.session.id
  (id, { v with service := r.state, connections := v.connections.insert id r.answer })

/-- The client of connection `id` is gone. -/
def hangUp (v : Server) (id : Nat) : Server :=
  match v.connections.get? id with
  | none => v
  | some k => { v with service := k.hangUp v.service, connections := v.connections.erase id }

/-- Bytes arrive on connection `id`: the reply bodies, and the server after them. -/
def receive (v : Server) (id : Nat) (chunk : List UInt8) : List (List UInt8) × Server :=
  match v.connections.get? id with
  | none => ([], v)
  | some k =>
    let p := k.receive v.maxFrame v.service chunk
    let after :=
      { v with service := p.service, connections := v.connections.insert id p.connection }
    (p.replies, if p.connection.ended then after.hangUp id else after)

/-- Whether connection `id` is served. -/
def isConnected (v : Server) (id : Nat) : Bool := v.connections.contains id

end Server

end Telefile
