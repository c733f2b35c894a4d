/-!
# What is written into the journal

Some operations leave a note of what they did, or of what looks odd about what they were given.  A
`Note` is such a line.  Notes are part of an operation's result, as values; writing them somewhere is
left to whoever asked for the operation.
-/

set_option autoImplicit false

namespace Shaping

/-- How much a note matters. -/
inductive Level where
  | debug
  | info
  | warning
  deriving DecidableEq

/-- The name of a level in the journal. -/
def Level.name : Level → String
  | .debug => "DEBUG"
  | .info => "INFO"
  | .warning => "WARN"

/-- A line of the journal. -/
structure Note where
  level : Level
  message : String
  deriving DecidableEq

namespace Note

/-- A note for those who want to know everything. -/
def debug (message : String) : Note := ⟨.debug, message⟩

/-- A note of something that was done. -/
def info (message : String) : Note := ⟨.info, message⟩

/-- A note of something that looks odd. -/
def warning (message : String) : Note := ⟨.warning, message⟩

/-- The line as it stands in the journal. -/
def text (n : Note) : String := s!"{n.level.name} {n.message}"

end Note

end Shaping
