import Telefile.Attr
import Telefile.Dictionary
import Telefile.Host.Content
import Telefile.Host.Error
import Telefile.Host.Place

/-!
# The host's tree

The host holds a tree of entries, keyed by place, and the regular files that entries name. A file
may have several names, or none while a descriptor still holds it.

* `Entry` is what a location holds, `File` the state behind a regular file;
* `Perms.allows` — the bits that count are the owner's in the served tree, and the others' outside;
* `Host.entryAt?` is what a location holds; what each change of the tree does to it is one lemma
  (`entryAt?_setEntry`, `entryAt?_keepEntries`), and nothing else looks at places;
* `Host.attr` is what a look at an entry tells.
-/

namespace Telefile

/-! ## 1. Permissions -/

/-- What a permission allows. -/
inductive Permission
  | read
  | write
  /-- Passing through a directory. -/
  | search
  deriving DecidableEq, Repr

/-- Permission bits, and whether the user of the service owns the entry. -/
structure Perms where
  bits : Nat
  owned : Bool
  deriving DecidableEq, Repr

namespace Perms

/-- The place of a permission among the bits of the others. -/
def place : Permission → Nat
  | .read => 2
  | .write => 1
  | .search => 0

/-- Whether a permission is granted: by the owner's bits, or by those of the others. -/
def allows (p : Perms) (q : Permission) : Bool :=
  p.bits.testBit (if p.owned then place q + 6 else place q)

/-- What a new file gets under a mask of 022. -/
def newFile : Perms := ⟨0o644, true⟩

/-- What a new directory gets under a mask of 022. -/
def newDirectory : Perms := ⟨0o755, true⟩

/-- A directory of the system: passed and read by all, changed by no user. -/
def system : Perms := ⟨0o755, false⟩

end Perms

/-! ## 2. Entries and files -/

/-- The identity of a regular file. -/
abbrev FileId := Nat

/-- A device file. -/
inductive Device
  /-- Reads as zeros without end; every write fails for lack of space. -/
  | full
  /-- Reads as empty; swallows writes. -/
  | null
  deriving DecidableEq, Repr

/-- What a location holds. -/
inductive Entry
  | directory (perms : Perms) (modified : Timestamp)
  | symlink (target : Path) (modified : Timestamp)
  | file (id : FileId)
  | device (d : Device)
  deriving DecidableEq, Repr

/-- The state behind a regular file. -/
structure File where
  perms : Perms
  modified : Timestamp
  content : Content
  deriving DecidableEq, Repr

/-- The kind shown in listings. -/
def Entry.kind : Entry → FileKind
  | .directory .. => .directory
  | .symlink .. => .symlink
  | .file _ | .device _ => .file

/-- Whether the entry is a directory. -/
def Entry.isDir (e : Entry) : Bool := e.kind.isDir

/-- The host: its tree, its files, where relative paths start, its clock, and the position beyond
which no write goes. -/
structure Host where
  entries : Dictionary Place Entry
  files : List File
  cwd : Location
  now : Timestamp
  writeLimit : Option Nat

namespace Host

/-! ## 3. The tree by location -/

/-- What a location holds. -/
def entryAt? (h : Host) (l : Location) : Option Entry := h.entries.get? (.ofLocation l)

/-- All entries with their locations, in the order in which they were made. -/
def allEntries (h : Host) : List (Location × Entry) :=
  h.entries.pairs.map fun (p, e) => (p.location, e)

/-- The host with the entry `e` at a location. -/
def setEntry (h : Host) (l : Location) (e : Entry) : Host :=
  { h with entries := h.entries.insert (.ofLocation l) e }

/-- The host with the entries whose locations pass a test. -/
def keepEntries (h : Host) (test : Location → Bool) : Host :=
  { h with entries := h.entries.filterKeys fun p => test p.location }

/-- The host without the entry at a location. -/
def eraseEntry (h : Host) (l : Location) : Host := h.keepEntries fun m => m != l

theorem entryAt?_setEntry (h : Host) (l m : Location) (e : Entry) :
    (h.setEntry l e).entryAt? m = if m = l then some e else h.entryAt? m := by
  simp [setEntry, entryAt?, Dictionary.get?_insert]

theorem entryAt?_keepEntries (h : Host) (test : Location → Bool) (m : Location) :
    (h.keepEntries test).entryAt? m = if test m then h.entryAt? m else none := by
  simp [keepEntries, entryAt?, Dictionary.get?_filterKeys]

theorem entryAt?_eraseEntry (h : Host) (l m : Location) :
    (h.eraseEntry l).entryAt? m = if m = l then none else h.entryAt? m := by
  by_cases hm : m = l <;> simp [eraseEntry, entryAt?_keepEntries, hm]

theorem mem_allEntries_iff {h : Host} {l : Location} {e : Entry} :
    (l, e) ∈ h.allEntries ↔ h.entryAt? l = some e := by
  simp only [allEntries, entryAt?, Dictionary.get?_eq_some_iff, List.mem_map, Prod.mk.injEq,
    Prod.exists]
  constructor
  · rintro ⟨p, e', hp, rfl, rfl⟩
    simpa using hp
  · exact fun hp => ⟨.ofLocation l, e, hp, by simp, rfl⟩

/-! ## 4. Looking at an entry -/

/-- The state behind a file. -/
def file? (h : Host) (id : FileId) : Option File := h.files[id]?

/-- The bytes of a file. -/
def contentOf (h : Host) (id : FileId) : Content := ((h.file? id).map File.content).getD .empty

/-- The entries of the directory at `dir`, in byte order of their names. -/
def children (h : Host) (dir : Location) : List (Name × Entry) :=
  let place := Place.ofLocation dir
  (h.entries.pairs.filterMap fun (p, e) => (place.nameIn? p).map fun n => (n, e)).mergeSort
    fun a b => decide (a.1 ≤ b.1)

/-- The entries of a directory are those that lie under their names in it. -/
theorem mem_children_iff {h : Host} {dir : Location} {n : Name} {e : Entry} :
    (n, e) ∈ h.children dir ↔ h.entryAt? (dir ++ [n]) = some e := by
  rw [children, (List.mergeSort_perm _ _).mem_iff, ← mem_allEntries_iff]
  simp only [allEntries, List.mem_filterMap, Option.map_eq_some_iff, Place.nameIn?_eq_some_iff,
    Place.location_ofLocation, List.mem_map, Prod.mk.injEq, Prod.exists]
  grind

/-- The number of names a file has. -/
def linkCount (h : Host) (id : FileId) : Nat :=
  h.entries.pairs.countP fun (_, e) => decide (e = .file id)

/-- What a look at an entry tells. -/
def attr (h : Host) (l : Location) : Entry → FileAttr
  | .directory p t =>
    let subdirs := (h.children l).countP fun (_, e) => e.isDir
    ⟨4096, .directory, 0o040000 + p.bits, t, 2 + subdirs⟩
  | .symlink target t => ⟨target.text.length, .symlink, 0o120777, t, 1⟩
  | .file id =>
    match h.file? id with
    | some f => ⟨f.content.size, .file, 0o100000 + f.perms.bits, f.modified, h.linkCount id⟩
    | none => ⟨0, .file, 0o100000, h.now, 0⟩
  | .device _ => ⟨0, .file, 0o020666, h.now, 1⟩

/-- Whether an entry's permissions grant `q`; links grant everything. -/
def allows (h : Host) (e : Entry) (q : Permission) : Bool :=
  match e with
  | .directory p _ => p.allows q
  | .symlink .. => true
  | .file id => ((h.file? id).map fun f => f.perms.allows q).getD false
  | .device _ => q != .search

/-! ## 5. Changing an entry -/

/-- The host with the directory at `dir` changed now. -/
def touch (h : Host) (dir : Location) : Host :=
  match h.entryAt? dir with
  | some (.directory p _) => h.setEntry dir (.directory p h.now)
  | _ => h

/-- The host with the file `id` replaced. -/
def setFile (h : Host) (id : FileId) (f : File) : Host := { h with files := h.files.set id f }

end Host

end Telefile
