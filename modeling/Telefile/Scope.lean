import Telefile.FileError
import Telefile.Host.Canonical

/-!
# Which paths a client may name

Without a root, clients name paths of the host as they are. With a root, every path is read
relative to it and may not leave it, neither by `..` nor through a link.

* `Scope.resolve` — the host path for what a path leads to, `Scope.resolveEntry` for the entry it
  names, whose last link is not followed;
* `staysWithin` — the nearest ancestor that exists decides: it must have a canonical path, and
  that path must start with the root.
-/

namespace Telefile

/-- The paths that clients may name. -/
inductive Scope
  | everything
  | beneath (root : Path)
  deriving DecidableEq, Repr

namespace Scope

/-- The scope of an optional root, which is made canonical if it can be. -/
def ofRoot (h : Host) : Option Path → Scope
  | none => everything
  | some root =>
    match h.canonicalize root with
    | .ok real => beneath real
    | .error _ => beneath root

/-- The root, if there is one. -/
def root? : Scope → Option Path
  | everything => none
  | beneath root => some root

/-- Goes up from the first path to the first that decides. -/
def decideBy (h : Host) (root : Path) : List Path → Bool
  | [] => false
  | p :: above =>
    match h.canonicalize p with
    | .ok real => real.startsWith root
    | .error _ =>
      match h.lookup .entry p with
      | .ok _ => false
      | .error _ => decideBy h root above

/-- Whether a path, its links resolved, lies beneath the root. Parts that do not exist yet cannot
be links; an entry that exists and has no canonical path is refused. -/
def staysWithin (h : Host) (root p : Path) : Bool := decideBy h root p.ancestors

/-- The refusal of a path that leads out of the root. -/
def escape (path : String) (root : Path) : FileError :=
  .permissionDenied s!"{path} escapes {root.display}"

/-- The host path for a client's path; `follow` says whether its last link will be followed. -/
def resolveWith (s : Scope) (h : Host) (follow : Bool) (path : String) : Except FileError Path :=
  match s with
  | everything => .ok (Path.ofString path)
  | beneath root =>
    match (Path.ofString path).fold? with
    | none => .error (escape path root)
    | some [] => .ok root
    | some names =>
      let full := root.join names
      let checked := if follow then full else full.parent?.getD root
      if staysWithin h root checked then .ok full else .error (escape path root)

/-- The host path for what a path leads to. -/
def resolve (s : Scope) (h : Host) (path : String) : Except FileError Path :=
  s.resolveWith h true path

/-- The host path for the entry that a path names. -/
def resolveEntry (s : Scope) (h : Host) (path : String) : Except FileError Path :=
  s.resolveWith h false path

end Scope

end Telefile
