import Telefile.Text.Quoted

/-!
# Log lines

What the service tells its operator: a level, a message, and named values in a fixed order. Texts
of clients are quoted among the values, so that no path can imitate another line.
-/

namespace Telefile

/-- How much a line matters. -/
inductive LogLevel
  | info
  | debug
  deriving DecidableEq, Repr

/-- The name of a level. -/
def LogLevel.name : LogLevel → String
  | .info => "INFO"
  | .debug => "DEBUG"

/-- One line: the message, then the values by name, already in their written form. -/
structure LogLine where
  level : LogLevel
  message : String
  fields : List (String × String)
  deriving DecidableEq, Repr

namespace LogLine

/-- A line for the ordinary course of things. -/
def info (message : String) (fields : List (String × String)) : LogLine := ⟨.info, message, fields⟩

/-- A line for each call. -/
def debug (message : String) (fields : List (String × String)) : LogLine :=
  ⟨.debug, message, fields⟩

/-- The line as it is written. -/
def render (l : LogLine) : String :=
  l.fields.foldl (fun s f => s ++ s!" {f.1}={f.2}") s!"{l.level.name} {l.message}"

end LogLine

/-- The written form of an optional path. -/
def quotedPath (path : Option String) : String := Quoted.optional Quoted.text path

end Telefile
