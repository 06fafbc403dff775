import Telefile.Host.Lookup

/-!
# Canonical paths

The canonical path of an entry names no link, no dot and no double slash. It is found name by name
from the left, and every name that is met is looked at under the canonical path it has so far.

* a link is replaced by its target, up to 40 times;
* `..` takes the last name off, whatever may be searched there: nothing is looked at under the
  directory that is left, so it has to be a directory and need not grant search, unlike in `walk`;
* the limit of a path's length holds for the canonical paths on the way, not for the one that is
  given.

So a path may have a canonical form and lead nowhere for `lookup`, and the other way round.
-/

namespace Telefile

namespace Host

/-- The entry `n` of the directory at `dir`, looked at by its canonical path. -/
def glance (h : Host) (dir : Location) (n : Name) : Except HostError Entry :=
  if maxPath < (Path.ofLocation (dir ++ [n])).text.length then .error .nameTooLong
  else
    match h.pass dir with
    | .error e => .error e
    | .ok () =>
      if maxName < n.length then .error .nameTooLong
      else
        match h.entryAt? (dir ++ [n]) with
        | some e => .ok e
        | none => .error .notFound

/-- Whether only a directory may stand before what follows: dots to the end, a slash, or `..`. -/
def leavesDirectory (names : List Name) (slash : Bool) : Bool :=
  match names.dropWhile fun n => n == Path.dot with
  | [] => !names.isEmpty || slash
  | n :: _ => n == Path.dotdot

/-- Whether an entry at `l` that is no link may stand before what follows. A directory is looked at
by its path with a slash. -/
def mayPrecede (l : Location) (e : Entry) (names : List Name) (slash : Bool) :
    Except HostError Unit :=
  if !leavesDirectory names slash then .ok ()
  else if !e.isDir then .error .notADirectory
  else if maxPath < (Path.ofLocation l).text.length + 1 then .error .nameTooLong
  else .ok ()

/-- Goes on from `here` through `names`, with `links` links left to replace; `slash` says that the
path ends in a slash. -/
def trace (h : Host) (links : Nat) (here : Location) (slash : Bool) (names : List Name) :
    Except HostError Location :=
  match names with
  | [] => .ok here
  | n :: rest =>
    if n = Path.dot then h.trace links here slash rest
    else if n = Path.dotdot then h.trace links here.dropLast slash rest
    else
      match h.glance here n with
      | .error e => .error e
      | .ok (.symlink target _) =>
        match links with
        | 0 => .error .tooManyLinks
        | left + 1 =>
          h.trace left (if target.isAbsolute then [] else here)
            (slash || (decide (rest = []) && target.endsInSlash)) (target.names ++ rest)
      | .ok e =>
        match mayPrecede (here ++ [n]) e rest slash with
        | .error e => .error e
        | .ok () => h.trace links (here ++ [n]) slash rest
termination_by (links, names.length)

/-- The canonical path of what a path names. -/
def canonicalize (h : Host) (p : Path) : Except HostError Path :=
  if 0 ∈ p.text then .error .nulInPath
  else if p.text = [] then .error .notFound
  else
    (h.trace maxLinks (if p.isAbsolute then [] else h.cwd) p.endsInSlash p.names).map
      Path.ofLocation

end Host

end Telefile
