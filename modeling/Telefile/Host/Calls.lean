import Telefile.Host.Lookup

/-!
# What the service asks of the host

Opening, creating, removing, listing, reading and writing, with the failures of each.

* adding or removing an entry asks for the write permission of its directory and makes the
  directory's time recent;
* a write of at least one byte makes the file's time recent; a write stops at the size limit;
* a removed file lives on behind those who opened it.
-/

namespace Telefile

/-- What an open file refers to. -/
inductive FileObject
  | file (id : FileId)
  | device (d : Device)
  deriving DecidableEq, Repr

namespace Host

/-! ## 1. Names -/

/-- Opens an entry, for writing too if `write` says so. -/
def openEntry (h : Host) (write : Bool) (e : Entry) : Except HostError FileObject :=
  let granted := h.allows e .read && (!write || h.allows e .write)
  match e with
  | .directory .. => .error .isADirectory
  | .symlink .. => .error .tooManyLinks
  | .file id => if granted then .ok (.file id) else .error .permissionDenied
  | .device d => if granted then .ok (.device d) else .error .permissionDenied

/-- Opens what a path leads to. -/
def openPath (h : Host) (write : Bool) (p : Path) : Except HostError FileObject :=
  match h.lookup .follow p with
  | .ok (_, e) => h.openEntry write e
  | .error e => .error e

/-- The entry of a directory may be added or removed. -/
def mayChange (h : Host) (dir : Location) : Bool :=
  match h.entryAt? dir with
  | some (.directory p _) => p.allows .write && p.allows .search
  | _ => false

/-- Adds an empty file. -/
def addFile (h : Host) (l : Location) : FileId × Host :=
  let id := h.files.length
  let f : File := ⟨.newFile, h.now, .empty⟩
  (id, { h.setEntry l (.file id) with files := h.files ++ [f] })

/-- Opens what a path leads to for reading and writing, or creates it as an empty file; an
exclusive creation refuses any entry. -/
def createPath (h : Host) (exclusive : Bool) (p : Path) : Except HostError (FileObject × Host) :=
  match h.arrive (.create exclusive) p with
  | .error e => .error e
  | .ok (.found _ e) =>
    if exclusive then .error .alreadyExists
    else (h.openEntry true e).map fun o => (o, h)
  | .ok (.vacant dir n) =>
    if h.mayChange dir then
      let (id, h') := h.addFile (dir ++ [n])
      .ok (.file id, h'.touch dir)
    else .error .permissionDenied

/-- Removes the entry a path names, which is not a directory; a link is removed itself. -/
def removePath (h : Host) (p : Path) : Except HostError Host :=
  match h.lookup .entry p with
  | .error e => .error e
  | .ok (l, e) =>
    if e.isDir then .error .isADirectory
    else if h.mayChange l.dropLast then
      .ok ((h.eraseEntry l).touch l.dropLast)
    else .error .permissionDenied

/-- The names and kinds of the entries in the directory `e` at `l`. -/
def listEntry (h : Host) (l : Location) (e : Entry) : Except HostError (List (Name × FileKind)) :=
  if !e.isDir then .error .notADirectory
  else if h.allows e .read then .ok ((h.children l).map fun c => (c.1, c.2.kind))
  else .error .permissionDenied

/-- The names and kinds of the entries in the directory a path leads to. -/
def listPath (h : Host) (p : Path) : Except HostError (List (Name × FileKind)) :=
  match h.lookup .follow p with
  | .error e => .error e
  | .ok (l, e) => h.listEntry l e

/-! ## 2. Bytes -/

/-- The most bytes that one read gives. -/
def readChunk : Nat := 2097152

/-- At most `n` bytes from a position on. -/
def readAt (h : Host) (o : FileObject) (pos n : Nat) : List UInt8 :=
  match o with
  | .file id => (h.contentOf id).read pos (min n readChunk)
  | .device .full => List.replicate (min n readChunk) 0
  | .device .null => []

/-- The size that a seek from the end counts from. -/
def sizeOf (h : Host) : FileObject → Nat
  | .file id => (h.contentOf id).size
  | .device _ => 0

/-- Where a cursor that is sent to `pos` comes to stand: devices have no positions. -/
def settle (o : FileObject) (pos : Nat) : Nat :=
  match o with
  | .file _ => pos
  | .device _ => 0

/-- How many of `n` bytes may be written from a position on. -/
def room (h : Host) (pos n : Nat) : Nat :=
  match h.writeLimit with
  | none => n
  | some limit => min n (limit - pos)

/-- The file `id` with `b` laid over it at `pos`, now. -/
def overwrite (h : Host) (id : FileId) (pos : Nat) (b : List UInt8) : Host :=
  match h.file? id with
  | none => h
  | some f => h.setFile id { f with content := f.content.write pos b, modified := h.now }

/-- Writes `b` at a position: how many bytes went in, why not all of them, and the host after. -/
def writeAt (h : Host) (o : FileObject) (pos : Nat) (b : List UInt8) :
    Nat × Option HostError × Host :=
  if b = [] then (0, none, h)
  else
    match o with
    | .device .null => (b.length, none, h)
    | .device .full => (0, some .noSpace, h)
    | .file id =>
      let n := h.room pos b.length
      if n = 0 then (0, some .fileTooLarge, h)
      else (n, if n < b.length then some .fileTooLarge else none, h.overwrite id pos (b.take n))

/-- The whole content of the file a path leads to. -/
def readFile (h : Host) (p : Path) : Except HostError (List UInt8) :=
  match h.lookup .follow p with
  | .error e => .error e
  | .ok (_, e) =>
    if e.isDir then if h.allows e .read then .error .isADirectory else .error .permissionDenied
    else
      match h.openEntry false e with
      | .error e => .error e
      | .ok (.file id) => .ok (h.contentOf id).toList
      | .ok (.device _) => .ok []

end Host

end Telefile
