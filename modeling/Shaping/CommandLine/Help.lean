import Shaping.CommandLine

/-!
# Help

What is shown to somebody who asks for help or makes a mistake in a command line.
-/

set_option autoImplicit false

namespace Shaping.CommandLine

/-- The name of the program and its version. -/
def versionText : String := "tiershaper 0.1.0"

/-- How an option is written in the usage of a command. -/
def Parameter.usage (p : Parameter) : String :=
  match p.kind with
  | .switch => s!" [--{p.name}]"
  | .direction => s!" --{p.name} <ingress|egress>"
  | _ => s!" [--{p.name} <VALUE>]"

/-- The commands of a grammar, each with its options and places.  The grammar may be this many levels
deep. -/
def Grammar.usages (name : String) (g : Grammar) : Nat → List String
  | 0 => []
  | depth + 1 =>
    if g.commands.isEmpty then
      [ name ++ String.join (g.places.map fun p => s!" <{p.name.toUpper}>") ++
          String.join (g.options.map Parameter.usage) ]
    else g.commands.flatMap fun (command, sub) => sub.usages s!"{name} {command}" depth

/-- All commands. -/
def usage : String :=
  "Usage:\n" ++
    String.join ((grammar.usages "tiershaper" 3).map fun line => "  " ++ line ++ "\n")

/-- The words for a command line that is not carried out. -/
def Refusal.message : Refusal → String
  | .help => "Per-packet tiered bandwidth shaping engine"
  | .version => versionText
  | .nothingGiven => "no command was given"
  | .commandMissing => "the command is missing"
  | .unknownCommand => "there is no such command"
  | .argumentMissing => "a required argument is missing"
  | .unknownArgument => "an argument was not expected"
  | .noSuchValue => "an option lacks its value, or the value is not one of those there are"
  | .unreadableValue => "the value of an option cannot be read"
  | .unwantedValue => "an option takes no value"
  | .givenTwice => "an option was given twice"

/-- What is shown for a command line that is not carried out. -/
def Refusal.text : Refusal → String
  | .version => Refusal.version.message ++ "\n"
  | .help => Refusal.help.message ++ "\n\n" ++ usage
  | refusal => "error: " ++ refusal.message ++ "\n\n" ++ usage

/-- The exit status for a command line that is not carried out. -/
def Refusal.status (refusal : Refusal) : UInt32 := if refusal.isRequest then 0 else 2

end Shaping.CommandLine
