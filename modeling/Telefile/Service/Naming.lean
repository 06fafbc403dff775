import Telefile.Service.Basic
import Telefile.Service.Listing

/-!
# Operations on paths

* `Service.openPath` — a descriptor for what a path leads to, under one of four modes;
* `Service.unlink` — removes a file or a link, never a directory;
* `Service.stat` — the attributes of the entry a path names;
* `Service.dirTree` — the directories below a path.

Nothing is stored unless the operation succeeds. Messages name the path as the client wrote it.
-/

namespace Telefile

namespace Service

/-! ## 1. Opening -/

/-- A refusal, with what the service logs about it. -/
abbrev Refusal := FileError × List LogLine

/-- A host error while an existing path is opened: whatever the cause, the client sees the path as
unavailable. -/
def unavailable (path : String) (cause : HostError) : Refusal :=
  (.notFound path,
    [LogLine.debug s!"open failed: {cause.message}" [("path", Quoted.text path)]])

/-- A fresh handle, its cursor at the start. -/
def fresh (full : Path) (access : Access) (o : FileObject) : OpenFile :=
  .file ⟨full, access, o, 0⟩

/-- Opens what is there already. -/
def openExisting (host : Host) (path : String) (full : Path) (access : Access) :
    Except Refusal (OpenFile × Host) :=
  match host.openPath (access == .readWrite) full with
  | .ok o => .ok (fresh full access o, host)
  | .error cause => .error (unavailable path cause)

/-- What `mode` makes of a path that leads to `full`, given what a look at it found. -/
def openAs (host : Host) (path : String) (full : Path) (mode : OpenMode)
    (seen : Option Entry) : Except Refusal (OpenFile × Host) :=
  match mode, seen with
  | .read, none | .write, none => .error (.notFound path, [])
  | .read, some e =>
    if e.isDir then .ok (.directory full, host) else openExisting host path full .readOnly
  | .write, some e =>
    if e.isDir then .error (.isADirectory path, []) else openExisting host path full .readWrite
  | .createNew, some _ => .error (.alreadyExists path, [])
  | .createNew, none =>
    match host.createPath true full with
    | .ok (o, host') => .ok (fresh full .readWrite o, host')
    | .error .alreadyExists => .error (.alreadyExists path, [])
    | .error cause => .error (.inputOutput cause, [])
  | .create, seen =>
    if seen.any Entry.isDir then .error (.isADirectory path, [])
    else
      match host.createPath false full with
      | .ok (o, host') => .ok (fresh full .readWrite o, host')
      | .error cause => .error (.inputOutput cause, [])

/-- What an open file for `path` would be, and the host after it. A link that leads nowhere counts
as absent. -/
def prepare (s : Service) (path : Option String) (mode : OpenMode) :
    Except Refusal (OpenFile × Host) :=
  match path with
  | none => .error (.invalidArgument "null path", [])
  | some path =>
    match s.scope.resolve s.host path with
    | .error e => .error (e, [])
    | .ok full =>
      openAs s.host path full mode ((s.host.lookup .follow full).toOption.map Prod.snd)

/-- Opens a path under a mode and issues a descriptor for it. -/
def openPath (s : Service) (path : Option String) (mode : OpenMode) :
    Step Service (Except FileError Fd) :=
  match s.prepare path mode with
  | .error (e, log) => ⟨.error e, s, log⟩
  | .ok (f, host) =>
    match s.table.open? f with
    | some (fd, table) => ⟨.ok fd, { s with table, host }, []⟩
    | none => ⟨.error .descriptorsExhausted, { s with host }, []⟩

/-! ## 2. Removing -/

/-- What the host's refusal to remove an entry means. -/
def removalError (path : String) : HostError → FileError
  | .permissionDenied => .notPermitted path
  | cause => .inputOutput cause

/-- The host without the entry that a path names. -/
def removed (s : Service) (path : Option String) : Except FileError Host :=
  match path with
  | none => .error (.notFound "null path")
  | some path =>
    match s.scope.resolveEntry s.host path with
    | .error e => .error e
    | .ok full =>
      match s.host.lookup .entry full with
      | .error _ => .error (.notFound path)
      | .ok (_, e) =>
        if e.isDir then .error (.isADirectory path)
        else (s.host.removePath full).mapError (removalError path)

/-- Removes a file or a link. Descriptors opened on it keep what they have. -/
def unlink (s : Service) (path : Option String) : Step Service (Except FileError Unit) :=
  match s.removed path with
  | .error e => .stay s (.error e)
  | .ok host => ⟨.ok (), { s with host }, []⟩

/-! ## 3. Looking -/

/-- The attributes of the entry that a path names; a link at the end is not followed. -/
def stat (s : Service) (path : Option String) : Except FileError FileAttr :=
  match path with
  | none => .error (.notFound "null path")
  | some path =>
    match s.scope.resolveEntry s.host path with
    | .error e => .error e
    | .ok full =>
      ((s.host.look .entry full).map FileAttr.capLinks).mapError (FileError.ofLookup path)

/-- The directories below a path, named as the client wrote it, with what is logged on the way. -/
def dirTree (s : Service) (path : Option String) : Except FileError DirTree × List LogLine :=
  match path with
  | none => (.error (.notFound "null path"), [])
  | some path =>
    match s.scope.resolve s.host path with
    | .error e => (.error e, [])
    | .ok full =>
      match s.host.lookup .follow full with
      | .error cause => (.error (.ofLookup path cause), [])
      | .ok (_, e) =>
        if e.isDir then
          let (below, log) := subdirs s.host full
          ((below.map (DirTree.node path)).mapError (FileError.ofLookup path), log)
        else (.error (.notADirectory path), [])

end Service

end Telefile
