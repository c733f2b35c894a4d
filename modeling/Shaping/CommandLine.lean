import Shaping.Command
import Shaping.CommandLine.Grammar

/-!
# Command lines

`Invocation.ofWords` reads an invocation from a command line.  The grammar is laid down as data,
`CommandLine.grammar`, and the values that it lets through are put together to a command afterwards.

The option `--config` may stand in front of or behind any name of a command.  If it is given in several
of these places, the one farthest to the right counts.
-/

set_option autoImplicit false

namespace Shaping

namespace CommandLine

/-! ## The grammar -/

/-- The option for the configuration file. -/
def configOption : Parameter := ⟨"config", .path⟩

/-- The options of a plan. -/
def planOptions : List Parameter :=
  ["hw", "burstable", "l0-min", "l0-max", "l1-min", "l1-max", "l2-min", "l2-max"].map (⟨·, .text⟩)

/-- Grammar of `config show`, `config check` and `pod list`. -/
def bareGrammar : Grammar := .leaf [configOption] []

/-- Grammar of `config legacy`. -/
def legacyGrammar : Grammar := .leaf [configOption, ⟨"write", .switch⟩] [⟨"file", .path⟩]

/-- Grammar of `config set`. -/
def setPlanGrammar : Grammar :=
  .leaf (configOption :: ⟨"direction", .direction⟩ :: planOptions) []

/-- Grammar of `pod set`. -/
def setPodGrammar : Grammar :=
  .leaf
    [ configOption, ⟨"id", .text⟩, ⟨"uid", .text⟩, ⟨"ipv4", .v4⟩, ⟨"ipv6", .v6⟩, ⟨"entity", .word⟩,
      ⟨"priority", .shortWord⟩, ⟨"rx", .text⟩, ⟨"tx", .text⟩, ⟨"host-network", .switch⟩ ] []

/-- Grammar of `pod delete`. -/
def deletePodGrammar : Grammar := .leaf [configOption] [⟨"id", .text⟩]

/-- Grammar of `simulate`. -/
def simulateGrammar : Grammar := .leaf [configOption] [⟨"scenario", .path⟩]

/-- Grammar of `stress`. -/
def stressGrammar : Grammar :=
  .leaf [configOption, ⟨"threads", .word⟩, ⟨"duration", .word⟩, ⟨"packet-size", .word⟩] []

/-- Grammar of `config` and its commands. -/
def configGrammar : Grammar :=
  .branch [configOption]
    [ ("show", bareGrammar), ("check", bareGrammar), ("legacy", legacyGrammar),
      ("set", setPlanGrammar) ]

/-- Grammar of `pod` and its commands. -/
def podGrammar : Grammar :=
  .branch [configOption]
    [("list", bareGrammar), ("set", setPodGrammar), ("delete", deletePodGrammar)]

/-- Grammar of all command lines. -/
def grammar : Grammar :=
  { Grammar.branch [configOption]
      [ ("config", configGrammar), ("pod", podGrammar), ("simulate", simulateGrammar),
        ("stress", stressGrammar) ] with
    versioned := true }

/-! ## From words to commands -/

/-- The values of words that name no further command, made into something. -/
def finish {α : Type} (make : Reading → Except Refusal α) (g : Grammar) (words : List String) :
    Except Refusal (Option String × α) := do
  let (r, _) ← (Reading.start g).words g words
  let r ← r.settle
  return (r.text? "config", ← make r)

/-- The values of words that have to name a further command, made into something.  A configuration file
named behind that command counts more than one named before it. -/
def descend {α : Type} (make : String → Grammar → List String → Except Refusal (Option String × α))
    (g : Grammar) (words : List String) : Except Refusal (Option String × α) := do
  match ← (Reading.start g).words g words with
  | (r, none) =>
    let r ← r.settle
    throw (if r.values.isEmpty then .nothingGiven else .commandMissing)
  | (r, some (name, sub, rest)) =>
    let (config, a) ← make name sub rest
    let r ← r.settle
    return (config.or (r.text? "config"), a)

/-- The plan in the options of `config set`. -/
def planOf (r : Reading) : WrittenPlan :=
  let tier (name : String) : Option String × Option String :=
    (r.text? (name ++ "-min"), r.text? (name ++ "-max"))
  ⟨r.text? "hw", r.text? "burstable", ⟨tier "l0", tier "l1", tier "l2"⟩⟩

/-- The pod in the options of `pod set`. -/
def podOf (r : Reading) (id : String) (entity : EntityId) : Pod :=
  ⟨id, (r.text? "uid").getD "", r.v4? "ipv4", r.v6? "ipv6", r.isOn "host-network",
    r.shortWord? "priority", entity, 0, 0⟩

/-- A command of `config`. -/
def configCommand : String → Grammar → List String → Except Refusal (Option String × Command)
  | "show" => finish fun _ => .ok .showConfig
  | "check" => finish fun _ => .ok .checkConfig
  | "legacy" => finish fun r => do
    return .importLegacy (← required (r.text? "file")) (r.isOn "write")
  | _ => finish fun r => do return .setPlan (← required (r.direction? "direction")) (planOf r)

/-- A command of `pod`. -/
def podCommand : String → Grammar → List String → Except Refusal (Option String × Command)
  | "list" => finish fun _ => .ok .listPods
  | "set" => finish fun r => do
    let pod := podOf r (← required (r.text? "id")) (← required (r.word? "entity"))
    return .setPod pod (r.text? "rx") (r.text? "tx")
  | _ => finish fun r => do return .deletePod (← required (r.text? "id"))

/-- A command. -/
def command : String → Grammar → List String → Except Refusal (Option String × Command)
  | "config" => descend configCommand
  | "pod" => descend podCommand
  | "simulate" => finish fun r => do return .simulate (← required (r.text? "scenario"))
  | _ => finish fun r =>
    .ok (.stress ((r.word? "threads").getD 4) (r.word? "duration") ((r.word? "packet-size").getD 1500))

end CommandLine

/-- The invocation that is written in a command line. -/
def Invocation.ofWords (words : List String) : Except CommandLine.Refusal Invocation :=
  (CommandLine.descend CommandLine.command CommandLine.grammar words).map fun (config, command) =>
    ⟨config, command⟩

end Shaping
