import Telefile.Attr
import Telefile.Errno
import Telefile.OpenMode

/-!
# Requests and responses

One request is answered by one response. A result is non-negative on success and a negated error
number on failure.

* `Request.failure` is the failure shaped as the caller of that request expects it: it carries no
  payload, and a listing's base comes back unchanged.
-/

namespace Telefile

/-- Descriptor values. -/
abbrev Fd := Int

/-- A client's request. -/
inductive Request
  | openPath (path : Option String) (mode : Nat)
  | close (fd : Fd)
  | write (fd : Fd) (data : List UInt8)
  /-- No capacity means that the caller has no buffer. -/
  | read (fd : Fd) (capacity : Option Nat)
  | seek (fd : Fd) (offset : Int) (whence : Nat)
  | unlink (path : Option String)
  | stat (path : Option String)
  /-- At most `nbytes` of records, `base` entries in. -/
  | listDir (fd : Fd) (nbytes base : Nat)
  | dirTree (path : Option String)
  deriving DecidableEq, Repr

/-- The server's answer. -/
inductive Response
  /-- To open, close, write, seek and unlink. -/
  | status (result : Int)
  /-- To read. -/
  | data (result : Int) (bytes : List UInt8)
  /-- To stat. -/
  | attr (result : Int) (attr : Option FileAttr)
  /-- To a listing; `base` is what to pass next time. -/
  | entries (result : Int) (base : Nat) (entries : List DirEntry)
  /-- To a hierarchy. -/
  | tree (result : Int) (tree : Option DirTree)

instance : Inhabited Response := ⟨.status 0⟩

namespace Request

/-- The operation's name. -/
def name : Request → String
  | openPath .. => "open"
  | close .. => "close"
  | write .. => "write"
  | read .. => "read"
  | seek .. => "lseek"
  | unlink .. => "unlink"
  | stat .. => "stat"
  | listDir .. => "getdirentries"
  | dirTree .. => "getdirtree"

/-- The response that says `e` in the shape this request is answered in. -/
def failure (r : Request) (e : Errno) : Response :=
  match r with
  | read .. => .data e.neg []
  | stat .. => .attr e.neg none
  | listDir _ _ base => .entries e.neg base []
  | dirTree .. => .tree e.neg none
  | _ => .status e.neg

end Request

namespace Response

/-- The result code. -/
def result : Response → Int
  | status r => r
  | data r _ => r
  | attr r _ => r
  | entries r _ _ => r
  | tree r _ => r

end Response

@[simp] theorem Request.result_failure (r : Request) (e : Errno) :
    (r.failure e).result = e.neg := by
  cases r <;> rfl

end Telefile
