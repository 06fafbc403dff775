import Telefile.DescriptorTable
import Telefile.Host.Calls
import Telefile.LogLine
import Telefile.Scope
import Telefile.Settings

/-!
# The file service

One service stands behind all sessions: its settings, the paths it lets clients name, the open
files, and the host. An operation is a `Step`: an answer, the service after it, and what it logs.

* `OpenFile` is what a descriptor stands for: a directory by its path, or a file with a cursor of
  its own;
* `Service.start` makes a service on a host.
-/

namespace Telefile

/-- What an operation gives: an answer, the state after it, and log lines. -/
structure Step (σ α : Type) where
  answer : α
  state : σ
  log : List LogLine

namespace Step

variable {σ α : Type}

/-- An answer that leaves the state as it was and logs nothing. -/
def stay (s : σ) (a : α) : Step σ α := ⟨a, s, []⟩

end Step

/-- The access that a descriptor was opened with. -/
inductive Access
  | readOnly
  | readWrite
  deriving DecidableEq, Repr

/-- A file opened by a descriptor, and where its cursor stands. -/
structure Handle where
  path : Path
  access : Access
  object : FileObject
  cursor : Nat
  deriving DecidableEq, Repr

/-- What a descriptor stands for. -/
inductive OpenFile
  /-- A directory, read anew from its path each time. -/
  | directory (path : Path)
  | file (handle : Handle)
  deriving DecidableEq, Repr

namespace OpenFile

/-- The path the file was opened on. -/
def path : OpenFile → Path
  | directory p => p
  | file h => h.path

/-- Whether the descriptor stands for a directory. -/
def isDir : OpenFile → Bool
  | directory _ => true
  | file _ => false

/-- The handle of a file. -/
def handle? : OpenFile → Option Handle
  | directory _ => none
  | file h => some h

/-- The access the descriptor was opened with; directories are only read. -/
def access : OpenFile → Access
  | directory _ => .readOnly
  | file h => h.access

end OpenFile

/-- The service behind all sessions. -/
structure Service where
  settings : Settings
  scope : Scope
  table : DescriptorTable OpenFile
  host : Host
  nextSession : Nat

namespace Service

/-- A service on a host, with nothing open yet. -/
def start (settings : Settings) (host : Host) : Step Host Service :=
  let scope := Scope.ofRoot host settings.root
  let line :=
    match scope.root? with
    | some root => LogLine.info "paths confined to root" [("root", root.display)]
    | none => LogLine.info "paths passed through unchanged" []
  ⟨⟨settings, scope, .new, host, 1⟩, host, [line]⟩

/-- What a descriptor stands for. -/
def openFile (s : Service) (fd : Fd) : Except FileError OpenFile :=
  match s.table.lookup fd with
  | some f => .ok f
  | none => .error (.badDescriptor fd)

/-- The handle behind a descriptor of a file. -/
def handle (s : Service) (fd : Fd) : Except FileError Handle :=
  match s.openFile fd with
  | .error e => .error e
  | .ok (.directory p) => .error (.isADirectory p.display)
  | .ok (.file h) => .ok h

/-- The service with the cursor behind `fd` moved. -/
def moveCursor (s : Service) (fd : Fd) (h : Handle) (pos : Nat) : Service :=
  { s with table := s.table.insert fd (.file { h with cursor := Host.settle h.object pos }) }

/-- The number of descriptors that are open. -/
def live (s : Service) : Nat := s.table.size

end Service

end Telefile
