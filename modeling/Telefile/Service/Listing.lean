import Telefile.Service.Basic

/-!
# Directory listings

* `listing` — `.`, `..`, then the entries sorted by the text of their names;
* `pageOf` — the longest run of entries from a base on that fits a budget of record bytes;
* `subdirs` — the hierarchy of directories below a path; one that cannot be read stays as a node
  without children.
-/

namespace Telefile

/-- A page of a listing. -/
structure DirPage where
  /-- The record bytes of the entries; 0 at the end of the directory. -/
  bytes : Nat
  /-- The base of the next page. -/
  nextBase : Nat
  entries : List DirEntry
  deriving DecidableEq, Repr

namespace Service

/-! ## 1. Pages -/

/-- Entries sorted by name. -/
def sortEntries (es : List DirEntry) : List DirEntry :=
  es.mergeSort fun a b => decide (a.name ≤ b.name)

/-- All entries of the directory at a path. -/
def listing (h : Host) (p : Path) : Except FileError (List DirEntry) :=
  match h.listPath p with
  | .error cause => .error (.ofLookup p.display cause)
  | .ok found =>
    .ok (⟨".", .directory⟩ :: ⟨"..", .directory⟩ ::
      sortEntries (found.map fun c => ⟨Utf8.decodeLossy c.1, c.2⟩))

/-- The longest run from the front whose records fit a budget. -/
def fitting : Nat → List DirEntry → List DirEntry
  | _, [] => []
  | budget, e :: es =>
    if budget < e.recordSize then [] else e :: fitting (budget - e.recordSize) es

/-- The record bytes of entries. -/
def recordBytes (es : List DirEntry) : Nat := es.foldr (fun e n => e.recordSize + n) 0

/-- The page from entry `base` on that fits `budget`; `nbytes` is what the client asked for. -/
def pageOf (all : List DirEntry) (nbytes budget base : Nat) : Except FileError DirPage :=
  let remaining := all.drop base
  let page := fitting budget remaining
  if page = [] ∧ remaining ≠ [] then
    .error (.invalidArgument s!"{nbytes} bytes cannot hold the next entry")
  else .ok ⟨recordBytes page, base + page.length, page⟩

/-! ## 2. Hierarchies -/

/-- Hierarchies sorted by the names of their tops. -/
def sortTrees (ts : List DirTree) : List DirTree :=
  ts.mergeSort fun a b => decide (a.name ≤ b.name)

/-- The line for a directory that cannot be read. -/
def unreadable (p : Path) (cause : HostError) : LogLine :=
  LogLine.debug s!"unreadable directory: {cause.message}" [("path", p.display)]

/-- The directories below a path, at most `depth` levels of them. The path comes with what it leads
to, since each level is looked up from the one above. -/
def subdirsWithin (h : Host) (depth : Nat) (p : Path)
    (found : Except HostError (Location × Entry)) :
    Except HostError (List DirTree) × List LogLine :=
  match depth, found with
  | 0, _ => (.error .nameTooLong, [])
  | _, .error cause => (.error cause, [])
  | depth + 1, .ok (l, e) =>
    match h.listEntry l e with
    | .error cause => (.error cause, [])
    | .ok entries =>
      let nodes := (entries.filter fun c => c.2.isDir).map fun c =>
        let child := p.join [c.1]
        let name := Utf8.decodeLossy c.1
        match subdirsWithin h depth child (h.lookupIn l c.1 child) with
        | (.ok below, log) => (DirTree.node name below, log)
        | (.error cause, log) => (DirTree.node name [], log ++ [unreadable child cause])
      (.ok (sortTrees (nodes.map Prod.fst)), nodes.flatMap Prod.snd)

/-- The directories below a path. Each level makes the path longer, and a path over the limit is
not looked up, so the levels are fewer than the limit. -/
def subdirs (h : Host) (p : Path) : Except HostError (List DirTree) × List LogLine :=
  subdirsWithin h (Host.maxPath + 1 - p.text.length + 1) p (h.lookup .follow p)

end Service

end Telefile
