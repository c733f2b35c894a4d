import Shaping.Address.Text
import Shaping.Text.Decimal

/-!
# The grammar of command lines

A command line is a list of words.  A `Grammar` says what may stand in it: options, which start with
two dashes, words for the places of a command, and the names of further commands, each with a grammar of
its own for the words behind it.

* An option takes a value, in the same word behind an equals sign or in the next word, unless it is a
  switch.  No option may be given twice.
* A word that starts with a dash is never the value of an option or the filling of a place, except for
  the dash alone and behind a word of two dashes, which ends the options and the commands.
* Wherever there are commands there is also a command `help`, and every grammar has the switches `--help`
  and `-h`.

## Which mistake is reported

Words are looked at from left to right, and the first mistake wins.  But the value of an option that is a
word by itself, like the filling of a place, is not looked at before the next option or place, or before
the end of the line (`Reading.settle`).  A command that is not known, or an option that is not, is thus
reported although a value before it cannot be read.  What is missing is noticed last, and what stands
behind the name of a command is finished before anything in front of it.
-/

set_option autoImplicit false

namespace Shaping.CommandLine

/-- Why a command line is not carried out. -/
inductive Refusal where
  /-- It asks for help. -/
  | help
  /-- It asks for the version. -/
  | version
  /-- It names no command and has no options. -/
  | nothingGiven
  | commandMissing
  | unknownCommand
  | argumentMissing
  | unknownArgument
  /-- An option without its value, or with one that is not among those there are. -/
  | noSuchValue
  /-- A value that cannot be read. -/
  | unreadableValue
  /-- A switch with a value. -/
  | unwantedValue
  | givenTwice
  deriving DecidableEq

/-- What is asked for is shown; anything else is a mistake. -/
def Refusal.isRequest : Refusal → Bool
  | .help | .version => true
  | _ => false

/-! ## Values -/

/-- What is written behind an option or into a place. -/
inductive Value where
  /-- The switch is on. -/
  | on
  | path (s : String)
  | text (s : String)
  | direction (d : Direction)
  | word (w : UInt64)
  | shortWord (w : UInt32)
  | v4 (bits : BitVec 32)
  | v6 (bits : BitVec 128)
  deriving DecidableEq

/-- The kinds of values. -/
inductive Kind where
  | switch
  | path
  | text
  | direction
  | word
  | shortWord
  | v4
  | v6
  deriving DecidableEq

namespace Kind

/-- Read a number of at most 32 bits.  Zero may have a minus sign. -/
def shortWord? (cs : List Char) : Option UInt32 :=
  match cs with
  | '-' :: digits =>
    if Decimal.ofDigits? digits = some 0 then some 0 else none
  | _ => (Decimal.ofText? 32 cs).map UInt32.ofNat

/-- Read a value. -/
def read (s : String) : Kind → Except Refusal Value
  | switch => .error .unwantedValue
  | path => if s.isEmpty then .error .noSuchValue else .ok (.path s)
  | text => .ok (.text s)
  | direction =>
    match Direction.all.find? (·.name == s) with
    | some d => .ok (.direction d)
    | none => .error .noSuchValue
  | word => readable (.word <$> Decimal.wordOfText? s.toList)
  | shortWord => readable (.shortWord <$> shortWord? s.toList)
  | v4 => readable (.v4 <$> Address.v4OfText? s)
  | v6 => readable (.v6 <$> Address.v6OfText? s)
where
  /-- A value, if it could be read. -/
  readable : Option Value → Except Refusal Value
    | some v => .ok v
    | none => .error .unreadableValue

end Kind

/-- An option, or a place to be filled. -/
structure Parameter where
  name : String
  kind : Kind
  deriving DecidableEq

/-- What may stand in a command line. -/
structure Grammar where
  options : List Parameter
  /-- Is there a switch for the version? -/
  versioned : Bool
  places : List Parameter
  commands : List (String × Grammar)

namespace Grammar

/-- A grammar of nothing but options and places. -/
def leaf (options places : List Parameter) : Grammar := ⟨options, false, places, []⟩

/-- A grammar of options and commands. -/
def branch (options : List Parameter) (commands : List (String × Grammar)) : Grammar :=
  ⟨options, false, [], commands⟩

/-- The grammar of a command, where `help` is one if there are others. -/
def command? (g : Grammar) (name : String) : Option Grammar :=
  match g.commands.lookup name with
  | some sub => some sub
  | none => if name = "help" ∧ ¬ g.commands.isEmpty then some (leaf [] []) else none

/-- What becomes of asking for help about a command that is named by so many words. -/
def helpAbout (g : Grammar) : List String → Refusal
  | [] => .help
  | name :: names =>
    match g.command? name with
    | some sub => sub.helpAbout names
    | none => .unknownCommand

/-- The option of some name. -/
def option? (g : Grammar) (name : String) : Option Parameter := g.options.find? (·.name == name)

end Grammar

/-! ## Words -/

/-- How a word looks. -/
inductive Word where
  /-- Two dashes and nothing else. -/
  | divider
  /-- Two dashes and a name, maybe with an equals sign and a value. -/
  | long (name : String) (value : Option String)
  /-- A dash and a letter, with anything behind them. -/
  | short (letter : Char)
  | plain
  deriving DecidableEq

/-- How a word looks. -/
def Word.of (s : String) : Word :=
  match s.toList with
  | ['-', '-'] => .divider
  | '-' :: '-' :: cs =>
    match cs.dropWhile (· != '=') with
    | [] => .long (String.ofList cs) none
    | _ :: value => .long (String.ofList (cs.takeWhile (· != '='))) (some (String.ofList value))
  | '-' :: c :: _ => .short c
  | _ => .plain

/-! ## Reading -/

/-- What has been read of the words of one grammar. -/
structure Reading where
  /-- The values, each under the name of its option or place. -/
  values : List (String × Value)
  /-- An option or place that was opened last, and what is written there. -/
  open? : Option (Parameter × Option String)
  /-- The places still to be filled. -/
  places : List Parameter
  /-- Has the word been passed that ends options and commands? -/
  divided : Bool
  deriving DecidableEq

namespace Reading

/-- Before the first word. -/
def start (g : Grammar) : Reading := ⟨[], none, g.places, false⟩

/-- Has a name got its value? -/
def has (r : Reading) (name : String) : Bool := r.values.any (·.1 == name)

/-- Give a name its value. -/
def enter (r : Reading) (p : Parameter) (value : Except Refusal Value) : Except Refusal Reading :=
  if r.has p.name then .error .givenTwice
  else value.map fun v => { r with values := r.values ++ [(p.name, v)] }

/-- Look at what is written behind the option, or into the place, that was opened last. -/
def settle (r : Reading) : Except Refusal Reading :=
  match r.open? with
  | none => .ok r
  | some (_, none) => .error .noSuchValue
  | some (p, some s) => { r with open? := none }.enter p (p.kind.read s)

/-- Is the next word the value of an option? -/
def waits (r : Reading) : Bool := r.open?.any fun (_, written) => written.isNone

/-- Read an option. -/
def option (g : Grammar) (r : Reading) (name : String) (value : Option String) :
    Except Refusal Reading :=
  let request (refusal : Refusal) : Except Refusal Reading :=
    if value.isSome then .error .unwantedValue
    else do
      let _ ← r.settle
      .error refusal
  match g.option? name with
  | some p =>
    match p.kind, value with
    | .switch, none => do (← r.settle).enter p (.ok .on)
    | .switch, some _ => .error .unwantedValue
    | _, some s => do (← r.settle).enter p (p.kind.read s)
    | _, none => do return { ← r.settle with open? := some (p, none) }
  | none =>
    if name = "help" then request .help
    else if name = "version" ∧ g.versioned then request .version
    else .error .unknownArgument

/-- Read a letter behind a dash. -/
def letter (g : Grammar) (r : Reading) (c : Char) : Except Refusal Reading :=
  if c = 'h' then r.option g "help" none
  else if c = 'V' then r.option g "version" none
  else .error .unknownArgument

/-- Read a word that stands for itself: into the next place, if there is one. -/
def fill (g : Grammar) (r : Reading) (s : String) : Except Refusal Reading :=
  match r.places with
  | p :: places => do return { ← r.settle with open? := some (p, some s), places }
  | [] =>
    if g.commands.isEmpty ∨ (r.divided ∧ (g.command? s).isSome) then .error .unknownArgument
    else .error .unknownCommand

/-- Read a word that is not the name of a command. -/
def word (g : Grammar) (r : Reading) (s : String) : Except Refusal Reading :=
  if r.divided then r.fill g s
  else
    match Word.of s with
    | .divider => .ok { r with divided := true }
    | .long name value => r.option g name value
    | .short c => r.letter g c
    | .plain =>
      match r.open? with
      | some (p, none) => .ok { r with open? := some (p, some s) }
      | _ => r.fill g s

/-- Read words up to the name of a command or to the end.  The name is given with its grammar and the
words behind it, which are still to be read. -/
def words (g : Grammar) (r : Reading) :
    List String → Except Refusal (Reading × Option (String × Grammar × List String))
  | [] => .ok (r, none)
  | s :: rest =>
    match if r.divided ∨ r.waits then none else g.command? s with
    | some sub =>
      if s = "help" then .error (g.helpAbout rest) else .ok (r, some (s, sub, rest))
    | none =>
      match r.word g s with
      | .ok r => r.words g rest
      | .error refusal => .error refusal

/-- The value of a name. -/
def value? (r : Reading) (name : String) : Option Value := r.values.lookup name

/-- Is a switch on? -/
def isOn (r : Reading) (name : String) : Bool := r.has name

/-- A path or another text. -/
def text? (r : Reading) (name : String) : Option String :=
  match r.value? name with
  | some (.path s) | some (.text s) => some s
  | _ => none

/-- A direction. -/
def direction? (r : Reading) (name : String) : Option Direction :=
  match r.value? name with
  | some (.direction d) => some d
  | _ => none

/-- A number. -/
def word? (r : Reading) (name : String) : Option UInt64 :=
  match r.value? name with
  | some (.word w) => some w
  | _ => none

/-- A short number. -/
def shortWord? (r : Reading) (name : String) : Option UInt32 :=
  match r.value? name with
  | some (.shortWord w) => some w
  | _ => none

/-- An address of the shorter family. -/
def v4? (r : Reading) (name : String) : Option (BitVec 32) :=
  match r.value? name with
  | some (.v4 bits) => some bits
  | _ => none

/-- An address of the longer family. -/
def v6? (r : Reading) (name : String) : Option (BitVec 128) :=
  match r.value? name with
  | some (.v6 bits) => some bits
  | _ => none

end Reading

/-- What has to be given. -/
def required {α : Type} : Option α → Except Refusal α
  | some a => .ok a
  | none => .error .argumentMissing

end Shaping.CommandLine
