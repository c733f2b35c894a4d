import Shaping.Address.Text
import Shaping.BandwidthPlan
import Shaping.Json.Refusal
import Shaping.OpenTable
import Shaping.Rate
import Shaping.Text.Quoted

/-!
# What went wrong

A `Failure` is a `Cause` together with what was being done when it arose, the outermost undertaking
first.  Whoever passes a failure on may add a `Context` in front (`Failure.within`), and nothing is
taken away, so the cause can always be told.

Something that cannot fail but can run out of numbers or memory ends in a `Trap` instead.  `Stop` is
either.
-/

set_option autoImplicit false

namespace Shaping

/-- Why a file could not be used. -/
inductive FileError where
  | notFound
  | isDirectory
  | notDirectory
  | exists
  /-- The contents are not UTF-8. -/
  | notText
  | nameTooLong
  /-- No file can have such a name. -/
  | notName
  /-- Any other reason, in the words of the system. -/
  | other (message : String)
  deriving DecidableEq

/-- The words for a file that could not be used. -/
def FileError.message : FileError → String
  | .notFound => "No such file or directory (os error 2)"
  | .isDirectory => "Is a directory (os error 21)"
  | .notDirectory => "Not a directory (os error 20)"
  | .exists => "File exists (os error 17)"
  | .notText => "stream did not contain valid UTF-8"
  | .nameTooLong => "File name too long (os error 36)"
  | .notName => "file name contained an unexpected NUL byte"
  | .other message => message

/-- Does the error mean that there is no such file? -/
def FileError.isAbsence : FileError → Bool
  | .notFound | .notDirectory | .nameTooLong | .notName => true
  | _ => false

/-- Why something failed. -/
inductive Cause where
  | plan (refusal : PlanRefusal)
  | rate (refusal : Rate.Refusal)
  | tableFull (full : TableFull)
  | podWithoutEntity (pod : String)
  | reservedEntity
  | noTables
  | noInterval
  | idleFlow (flow : String)
  | noThreads
  | unknownPod (pod : String)
  /-- No configuration file was named, and there is no usual one. -/
  | noConfigDirectory
  /-- A text was refused. -/
  | json (text : String) (refusal : Json.Refusal)
  | file (error : FileError)

/-- The words for a cause. -/
def Cause.message : Cause → String
  | .plan refusal => refusal.message
  | .rate refusal => refusal.message
  | .tableFull full => full.message
  | .podWithoutEntity pod => s!"pod {pod} has no entity id"
  | .reservedEntity => "entity id 0 is reserved"
  | .noTables => "max_entries must be greater than zero"
  | .noInterval => "report_interval_ms must be greater than zero"
  | .idleFlow flow => s!"flow {flow} needs a non-zero rate and packet size"
  | .noThreads => "at least one thread is required"
  | .unknownPod pod => s!"pod {pod} not found"
  | .noConfigDirectory => "Could not determine config directory"
  | .json text refusal => refusal.message text
  | .file error => error.message

/-- What was being done. -/
inductive Context where
  /-- A plan, with everything filled in, was being stored. -/
  | storingPlan (d : Direction) (plan : BandwidthPlan)
  | checkingPlan (d : Direction)
  | enteringAddress (a : Address)
  | settingRate (d : Direction) (entity : EntityId)
  | applyingPod (pod : String)
  | acceptingPod (pod : String)
  | readingConfig (path : String)
  | parsingConfig (path : String)
  | creatingDirectory (path : String)
  | writingConfig (path : String)
  | readingLegacy (path : String)
  | readingScenario (path : String)
  | parsingScenario (path : String)

/-- The words for what was being done. -/
def Context.text : Context → String
  | .storingPlan d plan => s!"{d.name} config is not valid: {plan.text}"
  | .checkingPlan d => s!"{d.name} config is not valid"
  | .enteringAddress a => s!"error put pod map entry for {a.text}"
  | .settingRate d entity => s!"error put {d.name} rate for entity {entity}"
  | .applyingPod pod => s!"Failed to apply pod {pod}"
  | .acceptingPod pod => s!"pod {pod} not accepted"
  | .readingConfig path => "Failed to read config file: " ++ Text.quotePath path
  | .parsingConfig path => "Failed to parse config file: " ++ Text.quotePath path
  | .creatingDirectory path => "Failed to create config directory: " ++ Text.quotePath path
  | .writingConfig path => "Failed to write config file: " ++ Text.quotePath path
  | .readingLegacy path => "Failed to read legacy config: " ++ Text.quotePath path
  | .readingScenario path => "Failed to read scenario: " ++ Text.quotePath path
  | .parsingScenario path => "Failed to parse scenario: " ++ Text.quotePath path

/-- Something that failed. -/
structure Failure where
  /-- What was being done, the outermost undertaking first. -/
  contexts : List Context
  cause : Cause

namespace Failure

/-- A cause by itself. -/
def of (cause : Cause) : Failure := ⟨[], cause⟩

/-- The failure of something that was part of something else. -/
def within (context : Context) (f : Failure) : Failure := ⟨context :: f.contexts, f.cause⟩

/-- The failure in words, from the outermost undertaking to the cause. -/
def chain (f : Failure) : List String := f.contexts.map Context.text ++ [f.cause.message]

/-- The failure in one line. -/
def message (f : Failure) : String := ": ".intercalate f.chain

/-- The causes below the outermost undertaking, numbered if there are several. -/
def causeLines : List String → List String
  | [] => []
  | [cause] => ["", "Caused by:", "    " ++ cause]
  | causes =>
    "" :: "Caused by:" :: causes.mapIdx fun i cause => s!"    {i}: {cause}"

/-- The failure as it is reported to whoever started the program. -/
def report (f : Failure) : String :=
  match f.chain with
  | [] => ""
  | outermost :: causes =>
    String.join ((("Error: " ++ outermost) :: causeLines causes).map (· ++ "\n"))

end Failure

/-- Why something ended before it was done. -/
inductive Stop where
  | failed (f : Failure)
  | trapped (t : Trap)

end Shaping
