import Telefile.Host.Calls

/-!
# Arranging a host from outside

A host is made with the directories of the system and an empty working directory. What others do
to its tree, behind the service's back, is said by location and asks for no permission.

* `Host.fresh` — a new host;
* `Host.arrange` — entries made in order, then their times and their modes set;
* `removeAt`, `removeTree`, `setMode`, `rename`, `appendAt`, `resizeAt` — single changes;
* `outline` — all that lies below a location, depth first.
-/

namespace Telefile

/-- What is made at a location. -/
inductive Making
  /-- A file with these bytes, cut or extended to a size if one is given. -/
  | file (bytes : List UInt8) (size : Option Nat)
  | directory
  | symlink (target : Path)
  /-- One more name for the file at `source`. -/
  | hardLink (source : Location)
  deriving DecidableEq, Repr

/-- An entry to be made, with its time and its permission bits. -/
structure Plan where
  place : Location
  making : Making
  modified : Timestamp
  mode : Option Nat
  deriving DecidableEq, Repr

namespace Host

/-! ## 1. A new host -/

/-- The nonempty initial parts of a location. -/
def stages (l : Location) : List Location := (List.range l.length).map fun i => l.take (i + 1)

/-- The name of the directory of devices. -/
def devices : Name := Utf8.encode "dev"

/-- The directory that holds the working directory: the user's own, closed to others. -/
def privatePerms : Perms := ⟨0o700, true⟩

/-- A host whose working directory, at `cwd`, is empty and lies in a private directory. -/
def fresh (cwd : Location) (now : Timestamp) (writeLimit : Option Nat) : Host :=
  let system : Entry := .directory .system now
  let top : List (Location × Entry) :=
    [([], system), ([devices], system),
      ([devices, Utf8.encode "full"], .device .full),
      ([devices, Utf8.encode "null"], .device .null)]
  let above := (stages cwd.dropLast).map fun l =>
    (l, if l = cwd.dropLast then Entry.directory privatePerms now else system)
  let empty : Host := ⟨.empty, [], cwd, now, writeLimit⟩
  (top ++ above ++ [(cwd, Entry.directory .newDirectory now)]).foldl
    (fun h e => h.setEntry e.1 e.2) empty

/-! ## 2. Single changes -/

/-- Adds or replaces an entry. -/
def place (h : Host) (l : Location) (e : Entry) : Host :=
  (h.setEntry l e).touch l.dropLast

/-- Makes the directories above a location that are missing. Where the lowest of them is there, all
are. -/
def makeAbove (h : Host) (l : Location) : Host :=
  match h.entryAt? l.dropLast with
  | some _ => h
  | none =>
    (stages l.dropLast).foldl
      (fun h d =>
        match h.entryAt? d with
        | some _ => h
        | none => h.place d (.directory .newDirectory h.now))
      h

/-- The file at a location, links followed. -/
def fileAt? (h : Host) (l : Location) : Option FileId :=
  match h.entryAt? l with
  | some (.file id) => some id
  | some (.symlink ..) =>
    match h.lookup .follow (.ofLocation l) with
    | .ok (_, .file id) => some id
    | _ => none
  | _ => none

/-- The host with the file at a location changed. -/
def changeFile (h : Host) (l : Location) (f : File → File) : Host :=
  match h.fileAt? l with
  | none => h
  | some id => match h.file? id with
    | none => h
    | some file => h.setFile id (f file)

/-- Makes what a plan says, without its time and mode. -/
def make (h : Host) (p : Plan) : Host :=
  let h := h.makeAbove p.place
  match p.making with
  | .directory =>
    match h.entryAt? p.place with
    | some (.directory ..) => h
    | _ => h.place p.place (.directory .newDirectory h.now)
  | .symlink target => h.place p.place (.symlink target h.now)
  | .hardLink source =>
    match h.entryAt? source with
    | some e => h.place p.place e
    | none => h
  | .file bytes size =>
    let content := match size with
      | none => Content.ofList bytes
      | some n => (Content.ofList bytes).resize n
    match h.fileAt? p.place with
    | some _ => h.changeFile p.place fun f => { f with content, modified := h.now }
    | none =>
      let (id, h') := h.addFile p.place
      (h'.touch p.place.dropLast).setFile id ⟨.newFile, h.now, content⟩

/-- Sets the time of an entry; a link's own time. -/
def setTime (h : Host) (l : Location) (t : Timestamp) : Host :=
  match h.entryAt? l with
  | some (.directory p _) => h.setEntry l (.directory p t)
  | some (.symlink target _) => h.setEntry l (.symlink target t)
  | some (.file _) => h.changeFile l fun f => { f with modified := t }
  | _ => h

/-- Sets the permission bits of an entry, a link followed. -/
def setMode (h : Host) (l : Location) (bits : Nat) : Host :=
  match h.entryAt? l with
  | some (.directory p t) => h.setEntry l (.directory { p with bits } t)
  | some (.symlink ..) =>
    match h.lookup .follow (.ofLocation l) with
    | .ok (l', .directory p t) => h.setEntry l' (.directory { p with bits } t)
    | _ => h.changeFile l fun f => { f with perms := { f.perms with bits } }
  | _ => h.changeFile l fun f => { f with perms := { f.perms with bits } }

/-- Removes one entry. -/
def removeAt (h : Host) (l : Location) : Host :=
  (h.eraseEntry l).touch l.dropLast

/-- Removes an entry and all below it. -/
def removeTree (h : Host) (l : Location) : Host :=
  (h.keepEntries fun m => !l.isPrefixOf m).touch l.dropLast

/-- Moves an entry, and all below it, in place of what was there. -/
def rename (h : Host) (source target : Location) : Host :=
  let moved := h.allEntries.filter fun e => source.isPrefixOf e.1
  let rest := h.keepEntries fun m => !source.isPrefixOf m && !target.isPrefixOf m
  let h := moved.foldl (fun h e => h.setEntry (target ++ e.1.drop source.length) e.2) rest
  (h.touch source.dropLast).touch target.dropLast

/-- Appends bytes to a file. -/
def appendAt (h : Host) (l : Location) (bytes : List UInt8) : Host :=
  h.changeFile l fun f =>
    { f with content := f.content.append (.ofList bytes),
             modified := if bytes = [] then f.modified else h.now }

/-- Cuts or extends a file. -/
def resizeAt (h : Host) (l : Location) (n : Nat) : Host :=
  h.changeFile l fun f => { f with content := f.content.resize n, modified := h.now }

/-! ## 3. Several entries -/

/-- Makes entries in order, then sets their times, then their modes, each the last one first. -/
def arrange (h : Host) (plans : List Plan) : Host :=
  let made := plans.foldl make h
  let timed := plans.reverse.foldl (fun h p => h.setTime p.place p.modified) made
  plans.reverse.foldl
    (fun h p => match p.making, p.mode with
      | .symlink _, _ | _, none => h
      | _, some bits => h.setMode p.place bits)
    timed

/-- All entries below a location, depth first, each directory's in byte order of the names. -/
def outline (h : Host) (base : Location) : List (Location × Entry) :=
  let below := h.allEntries.filter fun e => base.isPrefixOf e.1 && e.1 != base
  (below.map fun e => (e.1.drop base.length, e.2)).mergeSort fun a b => decide (a.1 ≤ b.1)

end Host

end Telefile
