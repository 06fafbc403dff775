/-!
# Attributes and directory listings

* `FileAttr` is what a look at an entry tells, `Timestamp` a time to the nanosecond, before the
  epoch too;
* `DirEntry.recordSize` is what an entry costs in a listing's budget: a header of 19 bytes, the
  name and its terminator, rounded up to a multiple of eight;
* `DirTree` is a hierarchy of directories, files left out.
-/

namespace Telefile

/-- What an entry is. -/
inductive FileKind
  | file
  | directory
  | symlink
  deriving DecidableEq, Repr

/-- Whether the entry is a directory. -/
def FileKind.isDir (k : FileKind) : Bool := k == .directory

/-- A time: whole seconds since the epoch, rounded down, and nanoseconds after that. -/
structure Timestamp where
  seconds : Int
  nanos : Nat
  deriving DecidableEq, Repr

/-- The attributes of an entry. -/
structure FileAttr where
  size : Nat
  kind : FileKind
  /-- Type and permission bits. -/
  perm : Nat
  modified : Timestamp
  links : Nat
  deriving DecidableEq, Repr

/-- The most links that attributes tell of. -/
def FileAttr.maxLinks : Nat := 4294967295

/-- The attributes with more links than can be told of told as the most. -/
def FileAttr.capLinks (a : FileAttr) : FileAttr := { a with links := min a.links maxLinks }

/-- Whether the attributes are those of a directory. -/
def FileAttr.isDir (a : FileAttr) : Bool := a.kind.isDir

/-! ## 1. Listings -/

/-- One entry of a directory listing; links are shown, not followed. -/
structure DirEntry where
  name : String
  kind : FileKind
  deriving DecidableEq, Repr

/-- The bytes an entry takes of a listing's budget. -/
def DirEntry.recordSize (e : DirEntry) : Nat := (19 + e.name.utf8ByteSize + 1 + 7) / 8 * 8

theorem DirEntry.recordSize_pos (e : DirEntry) : 24 ≤ e.recordSize := by
  unfold recordSize
  omega

/-! ## 2. Hierarchies -/

/-- A directory with the directories below it, sorted by name. -/
inductive DirTree
  | node (name : String) (subdirs : List DirTree)

namespace DirTree

instance : Inhabited DirTree := ⟨node "" []⟩

/-- The name of the top directory. -/
def name : DirTree → String
  | node n _ => n

/-- The directories directly below. -/
def subdirs : DirTree → List DirTree
  | node _ ts => ts

mutual

/-- The number of directories, the top one included. -/
def count : DirTree → Nat
  | node _ ts => 1 + countAll ts

/-- The number of directories in several hierarchies. -/
def countAll : List DirTree → Nat
  | [] => 0
  | t :: ts => count t + countAll ts

end

/-- The first directory directly below with the name `n`. -/
def child? (t : DirTree) (n : String) : Option DirTree := t.subdirs.find? fun d => d.name == n

end DirTree

end Telefile
