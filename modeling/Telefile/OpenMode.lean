/-!
# Open modes and seek origins

Both travel as raw numbers, so that a number that names nothing reaches the server and is answered
there as an invalid argument.
-/

namespace Telefile

/-- A raw number that names no value of its kind. -/
structure UnknownNumber where
  kind : String
  raw : Nat
  deriving DecidableEq, Repr

/-- The wording of the refusal. -/
def UnknownNumber.message (u : UnknownNumber) : String := s!"unknown {u.kind}: {u.raw}"

/-! ## 1. Open modes -/

/-- How a path is opened. -/
inductive OpenMode
  /-- Read-only; directories may be opened this way. -/
  | read
  /-- Read-write on an existing file. -/
  | write
  /-- Read-write, creating the file if it is absent. -/
  | create
  /-- Read-write on a file that must not exist yet. -/
  | createNew
  deriving DecidableEq, Repr

namespace OpenMode

/-- The number on the wire. -/
def toRaw : OpenMode → Nat
  | read => 0
  | write => 1
  | create => 2
  | createNew => 3

/-- The mode with a number. -/
def ofRaw? : Nat → Except UnknownNumber OpenMode
  | 0 => .ok read
  | 1 => .ok write
  | 2 => .ok create
  | 3 => .ok createNew
  | raw => .error ⟨"open mode", raw⟩

/-- Whether the mode may create the file. -/
def creates : OpenMode → Bool
  | create | createNew => true
  | read | write => false

/-- The name in log lines. -/
def name : OpenMode → String
  | read => "READ"
  | write => "WRITE"
  | create => "CREATE"
  | createNew => "CREATE_NEW"

@[simp] theorem ofRaw?_toRaw (m : OpenMode) : ofRaw? m.toRaw = .ok m := by cases m <;> rfl

end OpenMode

/-! ## 2. Seek origins -/

/-- What a seek offset counts from. -/
inductive Whence
  | start
  | current
  | fileEnd
  deriving DecidableEq, Repr

namespace Whence

/-- The number on the wire. -/
def toRaw : Whence → Nat
  | start => 0
  | current => 1
  | fileEnd => 2

/-- The origin with a number. -/
def ofRaw? : Nat → Except UnknownNumber Whence
  | 0 => .ok start
  | 1 => .ok current
  | 2 => .ok fileEnd
  | raw => .error ⟨"whence", raw⟩

/-- The name in log lines. -/
def name : Whence → String
  | start => "FROM_START"
  | current => "FROM_CURRENT"
  | fileEnd => "FROM_END"

@[simp] theorem ofRaw?_toRaw (w : Whence) : ofRaw? w.toRaw = .ok w := by cases w <;> rfl

end Whence

end Telefile
