import Telefile.Service.Basic
import Telefile.Service.Listing

/-!
# Operations on descriptors

Every operation names a descriptor and moves only that descriptor's cursor. A failed operation
leaves everything as it was, but for a write that the host stops on the way: the bytes that went in
stay, and the cursor stands behind them.
-/

namespace Telefile

namespace Service

/-- The largest position. -/
def maxPosition : Int := 9223372036854775807

/-- Closes a descriptor and gives the path it was opened on. -/
def close (s : Service) (fd : Fd) : Step Service (Except FileError Path) :=
  match s.table.remove fd with
  | some (f, table) => ⟨.ok f.path, { s with table }, []⟩
  | none => .stay s (.error (.badDescriptor fd))

/-- Writes `data` at the cursor. -/
def write (s : Service) (fd : Fd) (data : List UInt8) : Step Service (Except FileError Nat) :=
  match s.handle fd with
  | .error e => .stay s (.error e)
  | .ok h =>
    match h.access with
    | .readOnly => .stay s (.error (.badDescriptor fd))
    | .readWrite =>
      let (n, failure, host) := s.host.writeAt h.object h.cursor data
      let after := { s with host }.moveCursor fd h (h.cursor + n)
      match failure with
      | none => ⟨.ok data.length, after, []⟩
      | some cause => ⟨.error (.busy cause), after, []⟩

/-- Reads at most `capacity` bytes from the cursor on; no bytes mean the end of the file. Whether
memory has room for so many is another matter: `Service.HasRoom`. -/
def read (s : Service) (fd : Fd) (capacity : Option Nat) :
    Step Service (Except FileError (List UInt8)) :=
  match s.handle fd with
  | .error e => .stay s (.error e)
  | .ok h =>
    match capacity with
    | none => .stay s (.error .badAddress)
    | some n =>
      let bytes := s.host.readAt h.object h.cursor (min n s.settings.maxTransfer)
      ⟨.ok bytes, s.moveCursor fd h (h.cursor + bytes.length), []⟩

/-- Where a seek leads. -/
def seekTarget (base : Nat) (offset : Int) : Except FileError Nat :=
  let target := (base : Int) + offset
  if maxPosition < base ∨ maxPosition < target then
    .error (.invalidArgument "seek position overflows")
  else if target < 0 then .error (.busy (.negativePosition target))
  else .ok target.toNat

/-- Moves the cursor and gives its new position, which may lie beyond the end of the file. -/
def seek (s : Service) (fd : Fd) (offset : Int) (whence : Whence) :
    Step Service (Except FileError Nat) :=
  match s.handle fd with
  | .error e => .stay s (.error e)
  | .ok h =>
    let base :=
      match whence with
      | .start => 0
      | .current => h.cursor
      | .fileEnd => s.host.sizeOf h.object
    match seekTarget base offset with
    | .error e => .stay s (.error e)
    | .ok pos => ⟨.ok (Host.settle h.object pos), s.moveCursor fd h pos, []⟩

/-- A page of the directory behind a descriptor, which is read anew. -/
def listDir (s : Service) (fd : Fd) (nbytes base : Nat) : Except FileError DirPage :=
  match s.openFile fd with
  | .error e => .error e
  | .ok (.file h) => .error (.notADirectory h.path.display)
  | .ok (.directory p) =>
    match listing s.host p with
    | .error e => .error e
    | .ok all => pageOf all nbytes (min nbytes s.settings.maxTransfer) base

end Service

end Telefile
