/-!
# Why the host refuses

The causes for which a call to the host fails, and their wording.
-/

namespace Telefile

/-- A cause of failure on the host's side. -/
inductive HostError
  | notFound
  | permissionDenied
  | alreadyExists
  | notADirectory
  | isADirectory
  /-- A write ran into the size limit of files. -/
  | fileTooLarge
  | noSpace
  | nameTooLong
  | tooManyLinks
  /-- The path holds a NUL byte. -/
  | nulInPath
  /-- The file's bytes are not UTF-8. -/
  | notText
  /-- A position before the start of a file. -/
  | negativePosition (position : Int)
  /-- Any other cause, in its own words. -/
  | other (text : String)
  deriving DecidableEq, Repr

/-- The wording of a cause. -/
def HostError.message : HostError → String
  | .notFound => "No such file or directory (os error 2)"
  | .permissionDenied => "Permission denied (os error 13)"
  | .alreadyExists => "File exists (os error 17)"
  | .notADirectory => "Not a directory (os error 20)"
  | .isADirectory => "Is a directory (os error 21)"
  | .fileTooLarge => "File too large (os error 27)"
  | .noSpace => "No space left on device (os error 28)"
  | .nameTooLong => "File name too long (os error 36)"
  | .tooManyLinks => "Too many levels of symbolic links (os error 40)"
  | .nulInPath => "file name contained an unexpected NUL byte"
  | .notText => "stream did not contain valid UTF-8"
  | .negativePosition n => s!"negative seek position {n}"
  | .other text => text

end Telefile
