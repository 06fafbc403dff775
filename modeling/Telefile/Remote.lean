import Telefile.Client
import Telefile.Server

/-!
# Calls over a connection

A client and a server, and one call between them: the client's frame reaches the server whole and
in order, and so do the server's frames the client.
-/

namespace Telefile

/-- The frames of reply bodies, one after the other. -/
def replyBytes (limit : Nat) (bodies : List (List UInt8)) : List UInt8 :=
  bodies.flatMap fun b => (Frame.encode limit b).toOption.getD []

/-- A call of a client over connection `id`: what it gives, the client, and the server. -/
def remoteCall {α : Type} (v : Server) (id : Nat) (c : Client) (m : Call α) :
    Except ClientError α × Client × Server :=
  match c.send m.request with
  | .error e => (.error e, c, v)
  | .ok frame =>
    let (bodies, v') := v.receive id frame
    let (r, c') := c.perform m fun _ => (replyBytes v.maxFrame bodies, !v'.isConnected id)
    (r, c', v')

end Telefile
