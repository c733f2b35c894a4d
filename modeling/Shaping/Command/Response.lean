import Shaping.Command
import Shaping.Config.Format
import Shaping.Config.Legacy
import Shaping.Simulation
import Shaping.Stress

/-!
# Deciding what a command comes to

A command reads at most two files, and all that it does otherwise is to print, to write the configuration
file, or to put a shaper under load.  So it can be decided from the contents of the files alone:
`Command.respond` takes the `Documents` and gives a `Response`, which is what to print and an `Errand` that
is left to be run.  Reading and writing are done by whoever asks (`Invocation.perform`).

A plan or a pod that is set is looked at before an errand to save is given: the configuration with the plan is
checked, and the one with the pod is given to a shaper.  Plans that are imported are not looked at, and neither
is what is left when a pod is removed.  What is saved are the plans as they were written, without the parts that
the check fills in.

A configuration file that does not exist stands for the standard configuration.
-/

set_option autoImplicit false

namespace Shaping

/-- The files that a command has to go by. -/
structure Documents where
  /-- The path of the configuration file. -/
  configPath : Option String
  config : Except FileError String
  /-- The other file that the command names, if it names one. -/
  other : Except FileError String

/-- A load that a shaper is to be put under. -/
structure Load where
  shaper : Shaper
  options : ShapingOptions
  workload : Workload
  workers : UInt64
  /-- In seconds; none is for ever. -/
  duration : Option UInt64

/-- What is left to do when a command has been decided. -/
inductive Errand where
  | nothing
  /-- Save a configuration, and print a text if that has succeeded. -/
  | save (path : String) (config : Config) (confirmation : String)
  | load (l : Load)

/-- What a command comes to. -/
structure Response where
  /-- What is printed in any case. -/
  output : String
  notes : Array Note
  next : Except Stop Errand

/-- Something to be found out before a command is decided, with notes. -/
abbrev Inquiry := ExceptT Stop (StateM (Array Note))

namespace Inquiry

/-- Leave notes. -/
def note (notes : Array Note) : Inquiry Unit := modify (· ++ notes)

/-- Give up. -/
def fail {α : Type} (f : Failure) : Inquiry α := throw (.failed f)

/-- The contents of a file that has to be there. -/
def contents (context : Context) : Except FileError String → Inquiry String
  | .ok text => pure text
  | .error e => fail ⟨[context], .file e⟩

/-- The path of the configuration file and what is in it. -/
def config (docs : Documents) : Inquiry (String × Config) := do
  let path ← match docs.configPath with
    | some path => pure path
    | none => fail (.of .noConfigDirectory)
  match docs.config with
  | .error e =>
    if e.isAbsence then
      note #[.debug ("Config file " ++ Text.quotePath path ++ " not found, using defaults")]
      return (path, .standard)
    else fail ⟨[.readingConfig path], .file e⟩
  | .ok text =>
    match Config.ofText text with
    | .error refusal => fail ⟨[.parsingConfig path], .json text refusal⟩
    | .ok c =>
      note #[.info ("Loaded configuration from " ++ Text.quotePath path)]
      return (path, c)

/-- A shaper that was given a configuration. -/
def shaper (c : Config) : Inquiry Shaper := do
  let (result, notes) := c.load
  note notes
  match result with
  | .ok s => return s
  | .error stop => throw stop

/-- Something that is found out as part of something else. -/
def within {α : Type} (context : Context) (inquiry : Inquiry α) : Inquiry α :=
  tryCatch inquiry fun
    | .failed f => fail (f.within context)
    | .trapped t => throw (.trapped t)

/-- A rate in writing.  One that is left out is zero. -/
def rate : Option String → Inquiry UInt64
  | none => pure 0
  | some text =>
    match Rate.ofText? text with
    | .ok rate => pure rate
    | .error refusal => fail (.of (.rate refusal))

/-- The bounds of a tier in writing. -/
def bounds (written : Option String × Option String) : Inquiry Bounds := do
  let least ← rate written.1
  let most ← rate written.2
  return ⟨least, most⟩

/-- A plan in writing. -/
def plan (written : WrittenPlan) : Inquiry BandwidthPlan := do
  let guaranteed ← rate written.guaranteed
  let burstable ← rate written.burstable
  let l0 ← bounds written.tiers.l0
  let l1 ← bounds written.tiers.l1
  let l2 ← bounds written.tiers.l2
  return ⟨guaranteed, burstable, ⟨l0, l1, l2⟩⟩

/-- A configuration with its plans filled in, if they can be kept. -/
def checked (c : Config) : Inquiry Config := do
  let (result, c, notes) := c.check
  note notes.toArray
  match result with
  | .ok _ => return c
  | .error f => fail f

/-- Take the pod that was removed from a configuration out of a shaper too, and the limits of its entity
if no other pod has the same. -/
def teardown (s : Shaper) (pod : Pod) (left : Config) : Inquiry Unit := do
  let (result, after) := (Control.tearDown pod left).run.run ⟨s, #[]⟩
  note after.notes
  match result with
  | .ok _ => return
  | .error f => fail f

end Inquiry

namespace Command

open Inquiry (config shaper fail)

/-- Nothing but a text to be printed. -/
def printed (text : String) : Inquiry (String × Except Stop Errand) := pure (text, .ok .nothing)

/-- A configuration to be saved, and the text to be printed afterwards. -/
def saved (path : String) (c : Config) (confirmation : String) :
    Inquiry (String × Except Stop Errand) :=
  pure ("", .ok (.save path c confirmation))

/-- Is there a plan for a direction? -/
def planState (p : BandwidthPlan) : String := if p = .unset then "unset" else "set"

/-- The lines that are printed before a load starts. -/
def loadTitle (workers : UInt64) (duration : Option UInt64) : String :=
  Report.unlines
    [ s!"TierShaper stress: {workers} thread(s)",
      match duration with
      | some seconds => s!"Running for {seconds} seconds... (Press Ctrl+C to stop early)"
      | none => "Press Ctrl+C to stop..." ]

/-- A load for a shaper, unless there is nobody to make it. -/
def loadFor (s : Shaper) (options : ShapingOptions) (workers : UInt64) (duration : Option UInt64)
    (packetSize : UInt64) : Except Stop Errand :=
  if workers = 0 then .error (.failed (.of .noThreads))
  else
    match Stress.workload s packetSize with
    | .error t => .error (.trapped t)
    | .ok workload => .ok (.load ⟨s, options, workload, workers, duration⟩)

/-- Decide a command.  The first part of the answer is printed before anything else is done. -/
def decide (docs : Documents) : Command → Inquiry (String × Except Stop Errand)
  | showConfig => do
    let (_, c) ← config docs
    let s ← shaper c
    printed (Report.plans s.plans ++ "\n" ++ Report.options c.options)
  | checkConfig => do
    let (_, c) ← config docs
    let c ← Inquiry.checked c
    let ingress := planState c.plans.ingress
    let egress := planState c.plans.egress
    printed s!"Config OK: {c.pods.length} pod(s), ingress {ingress}, egress {egress}\n"
  | importLegacy file write => do
    let text ← Inquiry.contents (.readingLegacy file) docs.other
    Inquiry.note (Legacy.notes text).toArray
    let (path, c) ← config docs
    let c := { c with plans := Legacy.plans text }
    if write then saved path c ("Imported " ++ Text.quotePath file ++ "\n")
    else printed ((BandwidthPlan.pairJson c.plans).text ++ "\n")
  | setPlan d written => do
    let plan ← Inquiry.plan written
    let (path, c) ← config docs
    let c := c.setPlan d plan
    let filled ← Inquiry.checked c
    saved path c s!"{d.name} config: {(filled.plans.get d).text}\n"
  | listPods => do
    let (_, c) ← config docs
    let s ← shaper c
    printed (Report.pods s.pods ++ "\n" ++ Report.entityRates s.entityRates)
  | setPod pod receive send => do
    let (path, c) ← config docs
    let receiveRate ← Inquiry.rate receive
    let sendRate ← Inquiry.rate send
    let c := c.setPod { pod with receiveRate, sendRate }
    let _ ← Inquiry.within (.acceptingPod pod.id) (shaper c)
    saved path c s!"Pod {pod.id} saved\n"
  | deletePod id => do
    let (path, c) ← config docs
    let s ← shaper c
    match c.removePod id with
    | (none, _) => fail (.of (.unknownPod id))
    | (some pod, left) => do
      Inquiry.teardown s pod left
      saved path left s!"Pod {id} removed\n"
  | simulate file => do
    let text ← Inquiry.contents (.readingScenario file) docs.other
    match Scenario.ofText text with
    | .error refusal => fail ⟨[.parsingScenario file], .json text refusal⟩
    | .ok scenario => do
      let (result, notes) := Simulation.run scenario
      Inquiry.note notes
      match result with
      | .ok report => printed report.text
      | .error stop => throw stop
  | stress workers duration packetSize => do
    let (_, c) ← config docs
    let s ← shaper c
    return (loadTitle workers duration, loadFor s c.options workers duration packetSize)

/-- What a command comes to. -/
def respond (c : Command) (docs : Documents) : Response :=
  match (c.decide docs).run.run #[] with
  | (.ok (output, next), notes) => ⟨output, notes, next⟩
  | (.error stop, notes) => ⟨"", notes, .error stop⟩

/-- The other file that a command names. -/
def otherFile? : Command → Option String
  | importLegacy file _ => some file
  | simulate file => some file
  | _ => none

end Command

end Shaping
