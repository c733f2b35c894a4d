import Shaping.Config
import Shaping.Text.Blank
import Shaping.Text.Decimal
import Shaping.Text.Quoted

/-!
# The older file format

Plans used to be kept in a file of keys and values, one pair per line.  Between the two stands an equals
sign, or else the first blank.  A line that is empty or starts with `#` is a comment.

A value counts up to its first character that is not a digit, so units are cut off rather than
understood.  Values without digits in front, values too large for a word, and keys that are not in
`Legacy.targets` are passed over with a note.  Of several lines with the same key the last one counts.

Each line is looked at by itself (`Legacy.Line.of`); both the plans and the notes are read off what is
found there.
-/

set_option autoImplicit false

namespace Shaping.Legacy

/-- The part of a plan that a key stands for. -/
inductive Target where
  | guaranteed
  | least (t : Tier)
  | most (t : Tier)
  deriving DecidableEq

/-- The keys, and the direction and the part of its plan that each stands for. -/
def targets : List (String × Direction × Target) :=
  [ ("hw_tx_bps_max", .egress, .guaranteed),
    ("online_tx_bps_min", .egress, .least .l0),
    ("online_tx_bps_max", .egress, .most .l0),
    ("offline_l1_tx_bps_min", .egress, .least .l1),
    ("offline_l1_tx_bps_max", .egress, .most .l1),
    ("offline_l2_tx_bps_min", .egress, .least .l2),
    ("offline_l2_tx_bps_max", .egress, .most .l2),
    ("hw_rx_bps_max", .ingress, .guaranteed),
    ("online_rx_bps_min", .ingress, .least .l0),
    ("online_rx_bps_max", .ingress, .most .l0),
    ("offline_l1_rx_bps_min", .ingress, .least .l1),
    ("offline_l1_rx_bps_max", .ingress, .most .l1),
    ("offline_l2_rx_bps_min", .ingress, .least .l2),
    ("offline_l2_rx_bps_max", .ingress, .most .l2) ]

/-- What a line of the file is. -/
inductive Line where
  /-- Nothing, or a comment, or a word by itself. -/
  | comment
  /-- A key with a value that is no number. -/
  | unusable (key value : String)
  /-- A key that means nothing, with a number. -/
  | unknown (key : String)
  | setting (d : Direction) (target : Target) (rate : UInt64)
  deriving DecidableEq

/-- The text in front of the first character with a property, and the text behind that character. -/
def splitAt? (p : Char → Bool) (cs : List Char) : Option (List Char × List Char) :=
  match cs.dropWhile (!p ·) with
  | [] => none
  | _ :: rest => some (cs.takeWhile (!p ·), rest)

/-- The key and the value on a line. -/
def keyAndValue? (cs : List Char) : Option (List Char × List Char) :=
  ((splitAt? (· == '=') cs).or (splitAt? Text.isBlank cs)).map fun (key, value) =>
    (Text.trim key, Text.trim value)

/-- The number that the digits at the front of a value write. -/
def leadingWord? (value : List Char) : Option UInt64 :=
  Decimal.wordOfText? (value.takeWhile Decimal.isDigit)

/-- What a line is. -/
def Line.of (line : List Char) : Line :=
  let cs := Text.trim line
  if cs.isEmpty ∨ cs.head? = some '#' then .comment
  else
    match keyAndValue? cs with
    | none => .comment
    | some (key, value) =>
      match leadingWord? value, targets.lookup (String.ofList key) with
      | none, _ => .unusable (String.ofList key) (String.ofList value)
      | some _, none => .unknown (String.ofList key)
      | some rate, some (d, target) => .setting d target rate

/-- The note that is left about a line. -/
def Line.note? : Line → Option Note
  | .unusable key value =>
    some (.debug (s!"Ignoring legacy key {key} with value " ++ Text.quote value))
  | .unknown key => some (.debug s!"Ignoring unknown legacy key {key}")
  | _ => none

/-- Set one part of a plan. -/
def Target.set (target : Target) (rate : UInt64) (plan : BandwidthPlan) : BandwidthPlan :=
  match target with
  | .guaranteed => { plan with guaranteed := rate }
  | .least t => { plan with tiers := plan.tiers.modify t fun b => { b with least := rate } }
  | .most t => { plan with tiers := plan.tiers.modify t fun b => { b with most := rate } }

/-- Follow a line. -/
def Line.apply (plans : PerDirection BandwidthPlan) : Line → PerDirection BandwidthPlan
  | .setting d target rate => plans.modify d (target.set rate)
  | _ => plans

/-- The lines of a text, without the line feeds that end them. -/
def splitLines : List Char → List (List Char)
  | [] => [[]]
  | c :: cs =>
    if c = '\n' then [] :: splitLines cs
    else
      match splitLines cs with
      | line :: lines => (c :: line) :: lines
      | [] => [[c]]

/-- What the lines of a file are. -/
def lines (text : String) : List Line := (splitLines text.toList).map Line.of

/-- The plans that a file gives. -/
def plans (text : String) : PerDirection BandwidthPlan :=
  (lines text).foldl Line.apply (.const .unset)

/-- The notes that are left about a file. -/
def notes (text : String) : List Note := (lines text).filterMap Line.note?

end Shaping.Legacy
