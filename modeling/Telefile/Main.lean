import Telefile.CommandLine
import Telefile.Host.Arrange
import Telefile.Room

/-!
# The program

Reads the command line, the environment and the configuration file, says what it starts with, and
serves one client on the standard streams from a tree in memory.
-/

namespace Telefile.Program

/-- Why a file cannot be read, as the host tells it. -/
def causeOf : IO.Error → HostError
  | .noFileOrDirectory .. => .notFound
  | .permissionDenied .. => .permissionDenied
  | .inappropriateType .. => .isADirectory
  | e => .other (toString e)

/-- The bytes of a file. -/
def readFile (name : String) : IO (Except HostError (List UInt8)) := do
  try
    let bytes ← IO.FS.readBinFile name
    pure (.ok bytes.toList)
  catch e => pure (.error (causeOf e))

/-- The tree that clients are served from: an empty working directory, its clock at the epoch. -/
def servedHost : Host := Host.fresh [Utf8.encode "srv"] ⟨0, 0⟩ none

/-- Serves connection `id` until the stream or the connection ends. -/
partial def serve (input output : IO.FS.Stream) (v : Server) (id : Nat) : IO Unit := do
  let chunk ← input.read 65536
  if chunk.isEmpty then pure ()
  else
    let (replies, v') := v.receiveIn maxBuffer id chunk.toList
    for body in replies do
      match Frame.encode v.maxFrame body with
      | .ok frame => output.write ⟨frame.toArray⟩
      | .error _ => pure ()
    output.flush
    if v'.isConnected id then serve input output v' id

/-- Starts a server for a configuration and serves one client. -/
def serveOne (c : ServerConfig) : IO UInt32 := do
  match Server.bind c servedHost with
  | .error e =>
    IO.eprintln s!"Server error: {e.message}"
    pure 1
  | .ok v =>
    let (id, v) := v.accept
    serve (← IO.getStdin) (← IO.getStdout) v id
    pure 0

/-- Does what a start comes to, and gives the exit code. -/
def perform : Launch → IO UInt32
  | .help text => do
    IO.print text
    pure 0
  | .usage => do
    IO.eprintln "Usage: remora-server [OPTIONS]\n\nFor more information, try '--help'."
    pure 2
  | .refused started e => do
    if let some text := started then IO.eprintln s!"Starting remora server {text}"
    IO.eprintln s!"Server error: {e.message}"
    pure 1
  | .listening started c => do
    IO.eprintln s!"Starting remora server {started}"
    serveOne c

/-- The configuration file that the arguments name, if they name one. -/
def configFile (port : Option String) (args : List String) : Option Path :=
  match Options.parse port args with
  | .ok o => o.config
  | .error _ => none

end Telefile.Program

/-- The program. -/
def main (args : List String) : IO UInt32 := do
  let port ← IO.getEnv "REMORA_PORT"
  let content ←
    match Telefile.Program.configFile port args with
    | some p => Telefile.Program.readFile p.display
    | none => pure (.ok [])
  Telefile.Program.perform (Telefile.launch port args fun p =>
    Telefile.ServerConfig.ofFile p content)
