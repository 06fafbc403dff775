import Telefile.Net.Address
import Telefile.Settings

/-!
# Configuration of the server

Where the server listens, how long a frame may be, and the settings of the file service. A reply
to a read must fit in a frame, so the frame limit has to exceed the transfer limit
(`ServerConfig.validate`).
-/

namespace Telefile

/-- What the server is started with. -/
structure ServerConfig where
  bind : SocketAddress
  /-- The longest body that is taken or sent. -/
  maxFrame : Nat
  service : Settings
  deriving DecidableEq, Repr

/-- The limit of frames unless another is chosen: 8 MiB. -/
def defaultMaxFrame : Nat := 8388608

/-- The local host, frames of up to 8 MiB, and the default settings. -/
def ServerConfig.default : ServerConfig := ⟨.default, defaultMaxFrame, .default⟩

/-- A frame limit that does not exceed the transfer limit. -/
structure FrameTooSmall where
  frame : Nat
  transfer : Nat
  deriving DecidableEq, Repr

/-- The wording of the refusal. -/
def FrameTooSmall.message (e : FrameTooSmall) : String :=
  s!"max_frame_length ({e.frame}) must exceed service.max_transfer ({e.transfer})"

/-- The configuration, if its limits go together. -/
def ServerConfig.validate (c : ServerConfig) : Except FrameTooSmall ServerConfig :=
  if c.maxFrame ≤ c.service.maxTransfer then .error ⟨c.maxFrame, c.service.maxTransfer⟩
  else .ok c

end Telefile
