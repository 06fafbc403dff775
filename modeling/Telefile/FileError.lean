import Telefile.Errno
import Telefile.Host.Error
import Telefile.Request

/-!
# Why an operation fails

Each cause has one error number and one wording. A failure of the host is classified where it is
met, because the same cause means different things while a file is created and on a file that is
already open.
-/

namespace Telefile

/-- Why an operation on files fails. -/
inductive FileError
  /-- An absent path, an unknown mode or origin, a position out of range, a page too small. -/
  | invalidArgument (what : String)
  | notFound (path : String)
  | isADirectory (path : String)
  | notADirectory (path : String)
  | alreadyExists (path : String)
  /-- An unknown descriptor, or a write through one that only reads. -/
  | badDescriptor (fd : Fd)
  /-- The host does not let the entry be removed. -/
  | notPermitted (path : String)
  /-- The path leads out of the root, or may not be looked at. -/
  | permissionDenied (path : String)
  /-- The host refuses on a file that is already open. -/
  | busy (cause : HostError)
  /-- A read without a buffer. -/
  | badAddress
  /-- The host refuses while a file is created, removed or looked at. -/
  | inputOutput (cause : HostError)
  /-- No descriptor is left to issue. -/
  | descriptorsExhausted
  deriving DecidableEq, Repr

namespace FileError

/-- The error number that clients get. -/
def errno : FileError → Errno
  | invalidArgument _ => .invalid
  | notFound _ => .noEntry
  | isADirectory _ => .isDirectory
  | notADirectory _ => .notDirectory
  | alreadyExists _ => .alreadyExists
  | badDescriptor _ => .badDescriptor
  | notPermitted _ => .notPermitted
  | permissionDenied _ => .accessDenied
  | busy _ => .busy
  | badAddress => .badAddress
  | inputOutput _ => .inputOutput
  | descriptorsExhausted => .inputOutput

/-- The result code that clients get. -/
def code (e : FileError) : Int := e.errno.neg

/-- The wording of a failure. -/
def message : FileError → String
  | invalidArgument what => s!"invalid argument: {what}"
  | notFound path => s!"not found: {path}"
  | isADirectory path => s!"is a directory: {path}"
  | notADirectory path => s!"not a directory: {path}"
  | alreadyExists path => s!"already exists: {path}"
  | badDescriptor fd => s!"bad descriptor: {fd}"
  | notPermitted path => s!"operation not permitted: {path}"
  | permissionDenied path => s!"permission denied: {path}"
  | busy cause => s!"resource busy: {cause.message}"
  | badAddress => "bad address"
  | inputOutput cause => s!"I/O error: {cause.message}"
  | descriptorsExhausted => "descriptor space exhausted"

/-- What a failed look-up of a path means to the client who named it. -/
def ofLookup (path : String) : HostError → FileError
  | .notFound => notFound path
  | .notADirectory => notADirectory path
  | .permissionDenied => permissionDenied path
  | cause => inputOutput cause

theorem errno_known (e : FileError) : e.errno ∈ Errno.known := by
  cases e <;> simp [errno, Errno.known]

theorem code_neg (e : FileError) : e.code < 0 := by
  have := Errno.value_pos e.errno_known
  simp only [code, Errno.neg]
  omega

end FileError

end Telefile
