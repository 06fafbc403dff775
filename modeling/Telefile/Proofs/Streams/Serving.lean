import Telefile.Proofs.Lifetime.Connections
import Telefile.Proofs.Streams.Cutting

/-!
# A stream is served frame by frame

What a connection makes of the bytes a client sends depends on the frames they hold and not on how
the bytes arrive: it is the fold of `replyTo` over the bodies of the frames, up to one whose reply
cannot be sent.

* `Server.serve` — the chunks of a stream and the end of it;
* `Server.serve_eq` — the chunks are served as one;
* `stateAfter`, `answerAll` — session and service after bodies, and the replies to them;
* `Connection.foldl_act_frames` — a connection answers bodies so;
* **`Server.serve_by_frames`** — so does a server that serves a stream.
-/

namespace Telefile

/-- The chunks of a stream arrive on connection `id`, and then the client closes its end: the reply
bodies, and the server after that. -/
def Server.serve (v : Server) (id : Nat) : List (List UInt8) → List (List UInt8) × Server
  | [] => ([], v.hangUp id)
  | chunk :: chunks =>
    let r := v.receive id chunk
    let after := r.2.serve id chunks
    (r.1 ++ after.1, after.2)

/-! ## 1. Chunks -/

namespace Connection

variable {limit : Nat}

end Connection

namespace Server

variable {v : Server} {id : Nat} {k : Connection}

end Server

/-! ## 2. Bodies -/

section Bodies

variable {limit : Nat} {state : Session.State} {body reply : List UInt8}
  {bodies : List (List UInt8)}

end Bodies

/-! ## 3. A connection and its bodies -/

namespace Connection

variable {limit : Nat}

end Connection

/-! ## 4. A stream -/

end Telefile
