import Telefile.Config
import Telefile.Host.Calls
import Telefile.Toml.Document

/-!
# Reading a configuration

A configuration is written in TOML. A key that is missing takes its default, a key that is not
known is passed over, and a value of the wrong kind refuses the whole text.

* `bind_addr` is a text, `max_frame_length` a number;
* `service` is a table with `root`, `max_transfer` and `close_on_session_end`, or an array of
  these three in this order, from the front;
* **`ServerConfig.ofText`** reads a text and checks that its limits go together,
  `ServerConfig.ofFile` and `ServerConfig.load` read a file.
-/

namespace Telefile

/-- Why a configuration is refused. -/
inductive ConfigError
  | unreadable (path : Path) (cause : HostError)
  /-- No TOML, or a value of the wrong kind. -/
  | malformed
  | limits (e : FrameTooSmall)
  deriving DecidableEq, Repr

/-- The wording of a refusal. -/
def ConfigError.message : ConfigError → String
  | unreadable path cause => s!"failed to read {path.display}: {cause.message}"
  | malformed => "invalid config: the text is not a configuration"
  | limits e => e.message

namespace ConfigText

/-! ## 1. Kinds of values -/

/-- A text. -/
def text? : Toml.Value → Option String
  | .text s => some s
  | _ => none

/-- A number that is not negative. -/
def size? : Toml.Value → Option Nat
  | .integer i => if 0 ≤ i then some i.toNat else none
  | _ => none

/-- A truth value. -/
def flag? : Toml.Value → Option Bool
  | .boolean b => some b
  | _ => none

/-- A socket address. -/
def address? (v : Toml.Value) : Option SocketAddress := (text? v).bind SocketAddress.ofString?

/-- A value that may be missing: the default then, and otherwise what `read` makes of it. -/
def orDefault {α : Type} (dflt : α) (read : Toml.Value → Option α) :
    Option Toml.Value → Option α
  | none => some dflt
  | some v => read v

/-! ## 2. Tables -/

/-- The settings that three values give. -/
def settingsOf? (root transfer close : Option Toml.Value) : Option Settings := do
  let dflt := Settings.default
  let root ← orDefault dflt.root (fun v => (text? v).map fun s => some (Path.ofString s)) root
  let maxTransfer ← orDefault dflt.maxTransfer size? transfer
  let closeOnSessionEnd ← orDefault dflt.closeOnSessionEnd flag? close
  pure ⟨root, maxTransfer, closeOnSessionEnd⟩

/-- The settings that a value gives. A moment counts as a table without known keys. -/
def settings? : Toml.Value → Option Settings
  | .table es =>
    settingsOf? (Toml.entry? es "root") (Toml.entry? es "max_transfer")
      (Toml.entry? es "close_on_session_end")
  | .array vs => settingsOf? vs[0]? vs[1]? vs[2]?
  | .moment _ => some Settings.default
  | _ => none

/-- The configuration that the entries of a document give. -/
def config? (es : List (String × Toml.Value)) : Option ServerConfig := do
  let dflt := ServerConfig.default
  let bind ← orDefault dflt.bind address? (Toml.entry? es "bind_addr")
  let maxFrame ← orDefault dflt.maxFrame size? (Toml.entry? es "max_frame_length")
  let service ← orDefault dflt.service settings? (Toml.entry? es "service")
  pure ⟨bind, maxFrame, service⟩

end ConfigText

/-! ## 3. Texts and files -/

namespace ServerConfig

/-- **The configuration that a text gives.** -/
def ofText (s : String) : Except ConfigError ServerConfig :=
  match (Toml.parse s).bind ConfigText.config? with
  | none => .error .malformed
  | some c => c.validate.mapError .limits

/-- The configuration that a file gives: its bytes, or why they cannot be had. -/
def ofFile (p : Path) (content : Except HostError (List UInt8)) : Except ConfigError ServerConfig :=
  match content with
  | .error cause => .error (.unreadable p cause)
  | .ok bytes =>
    match Utf8.decode? bytes with
    | none => .error (.unreadable p .notText)
    | some s => ofText s

/-- The configuration in a file of the host. -/
def load (h : Host) (p : Path) : Except ConfigError ServerConfig := ofFile p (h.readFile p)

end ServerConfig

end Telefile
