import Telefile.Host.Basic

/-!
# Path lookup

One rule leads from a path to a location; looks, opens, creations and removals all use it.

* every directory passed must grant search; `.` and `..` are resolved physically;
* a link in the middle is followed; at the end it is followed, or is itself the result, as
  `LastStep` says, and a trailing slash asks for a directory in any case;
* at most 40 links are followed, a name has at most 255 bytes and a path 4095.

`Arrival` is where a path leads: to an entry, or to a name that a directory does not hold yet.
-/

namespace Telefile

/-- How the last name of a path is treated. -/
inductive LastStep
  /-- A link is followed. -/
  | follow
  /-- A link is the result itself. -/
  | entry
  /-- The name may be created; an exclusive creation does not follow a link. -/
  | create (exclusive : Bool)
  deriving DecidableEq, Repr

/-- Whether a link at the end is followed. -/
def LastStep.follows : LastStep → Bool
  | follow => true
  | entry => false
  | create exclusive => !exclusive

/-- Whether the last name may be created. -/
def LastStep.creates : LastStep → Bool
  | create _ => true
  | follow | entry => false

/-- Where a path leads. -/
inductive Arrival
  | found (l : Location) (e : Entry)
  /-- The directory at `dir` has no entry `n`. -/
  | vacant (dir : Location) (n : Name)
  deriving DecidableEq, Repr

namespace Host

/-- The most links that one lookup follows. -/
def maxLinks : Nat := 40

/-- The most bytes of a name. -/
def maxName : Nat := 255

/-- The most bytes of a path. -/
def maxPath : Nat := 4095

/-- Whether the directory at `l` may be passed through. -/
def pass (h : Host) (l : Location) : Except HostError Unit :=
  match h.entryAt? l with
  | some (.directory p _) => if p.allows .search then .ok () else .error .permissionDenied
  | some _ => .error .notADirectory
  | none => .error .notFound

/-- Goes on from the directory at `here` through `names`, with `links` links left to follow.
`slash` says that the path ends in a slash, and so must lead to a directory. -/
def walk (h : Host) (last : LastStep) (links : Nat) (here : Location) (slash : Bool)
    (names : List Name) : Except HostError Arrival :=
  match names with
  | [] =>
    match h.entryAt? here with
    | some e => .ok (.found here e)
    | none => .error .notFound
  | n :: rest =>
    match h.pass here with
    | .error e => .error e
    | .ok () =>
      if n = Path.dot then h.walk last links here slash rest
      else if n = Path.dotdot then h.walk last links here.dropLast slash rest
      else if rest = [] ∧ slash = true ∧ last.creates = true then .error .isADirectory
      else if maxName < n.length then .error .nameTooLong
      else
        match h.entryAt? (here ++ [n]) with
        | none => if rest = [] then .ok (.vacant here n) else .error .notFound
        | some (.symlink target t) =>
          if rest = [] ∧ slash = false ∧ last.follows = false then
            .ok (.found (here ++ [n]) (.symlink target t))
          else
            match links with
            | 0 => .error .tooManyLinks
            | left + 1 =>
              h.walk last left (if target.isAbsolute then [] else here)
                (slash || (decide (rest = []) && target.endsInSlash)) (target.names ++ rest)
        | some (.directory p t) =>
          if rest = [] then .ok (.found (here ++ [n]) (.directory p t))
          else h.walk last links (here ++ [n]) slash rest
        | some e =>
          if rest = [] ∧ slash = false then .ok (.found (here ++ [n]) e)
          else .error .notADirectory
termination_by (links, names.length)

/-- Where a path leads. -/
def arrive (h : Host) (last : LastStep) (p : Path) : Except HostError Arrival :=
  if 0 ∈ p.text then .error .nulInPath
  else if p.text = [] then .error .notFound
  else if maxPath < p.text.length then .error .nameTooLong
  else h.walk last maxLinks (if p.isAbsolute then [] else h.cwd) p.endsInSlash p.names

/-- The entry a path leads to, and where it is. -/
def lookup (h : Host) (last : LastStep) (p : Path) : Except HostError (Location × Entry) :=
  match h.arrive last p with
  | .ok (.found l e) => .ok (l, e)
  | .ok (.vacant ..) => .error .notFound
  | .error e => .error e

/-- The entry `n` of the directory at `l`, looked up by the path `p` that leads to it there. -/
def lookupIn (h : Host) (l : Location) (n : Name) (p : Path) :
    Except HostError (Location × Entry) :=
  if 0 ∈ p.text then .error .nulInPath
  else if maxPath < p.text.length then .error .nameTooLong
  else
    match h.walk .follow maxLinks l false [n] with
    | .ok (.found m e) => .ok (m, e)
    | .ok (.vacant ..) => .error .notFound
    | .error e => .error e

/-- The attributes of what a path leads to. -/
def look (h : Host) (last : LastStep) (p : Path) : Except HostError FileAttr :=
  (h.lookup last p).map fun r => h.attr r.1 r.2

end Host

end Telefile
