import Shaping.Binary64
import Shaping.Text.Blank
import Shaping.Text.Decimal
import Shaping.Text.Uppercase
import Shaping.Word

/-!
# Rates as people write them

Rates are words of bytes per second.  People write them with a unit, as in `10M`, `1.5 gb/s` or
`2500`, and like to read them that way too.

`Rate.text` prints a rate in the largest of four decimal units in which it is at least one, with one
decimal, except that bytes per second have none.  `Rate.ofText?` reads one.  Without a unit the text
has to be a whole number.  With one, the number in front of it may have a fraction and an exponent; it
is rounded to a binary number, multiplied, rounded again, and cut off to whole bytes per second.  So
is every quotient that `Rate.text` prints rounded to a binary number first.

A rate that is too large for a word is the largest word.  Only the number itself has to be finite.
-/

set_option autoImplicit false

namespace Shaping.Rate

/-! ## Printing -/

/-- A rate in units of `unit` bytes per second. -/
def inUnits (rate unit : UInt64) : String :=
  ((Binary64.ofNat rate.toNat).div (Binary64.ofNat unit.toNat)).oneDecimal

/-- A rate as people like to read it. -/
def text (rate : UInt64) : String :=
  if 1000000000 ≤ rate then inUnits rate 1000000000 ++ " GB/s"
  else if 1000000 ≤ rate then inUnits rate 1000000 ++ " MB/s"
  else if 1000 ≤ rate then inUnits rate 1000 ++ " KB/s"
  else toString rate.toNat ++ " B/s"

/-- A rate as people like to read it, where zero stands for no limit. -/
def textOrDash (rate : UInt64) : String := if rate = 0 then "-" else text rate

/-! ## Reading -/

/-- Why a text is not a rate. -/
inductive Refusal where
  /-- The text, which has no unit, is not a whole number. -/
  | notAWord (text : String)
  /-- What stands in front of the unit is not a number, or one below zero or beyond all bounds. -/
  | notANumber (text : String)
  deriving DecidableEq

/-- The words for a refused rate. -/
def Refusal.message : Refusal → String
  | .notAWord text => s!"Invalid rate: {text}"
  | .notANumber text => s!"Invalid rate number: {text}"

/-- The text before the given ending, if it has that ending. -/
def dropEnding? (ending cs : List Char) : Option (List Char) :=
  if ending.isSuffixOf cs then some (cs.take (cs.length - ending.length)) else none

/-- The digits at the front of a text, and the rest. -/
def spanDigits (cs : List Char) : List Char × List Char :=
  (cs.takeWhile Decimal.isDigit, cs.dropWhile Decimal.isDigit)

/-- The exponent that a text is: nothing at all, or `E` with a whole number. -/
def exponent? : List Char → Option Int
  | [] => some 0
  | c :: cs =>
    if c = 'E' ∨ c = 'e' then
      match cs with
      | '-' :: ds => (Decimal.ofDigits? ds).map fun n => -(n : Int)
      | '+' :: ds => (Decimal.ofDigits? ds).map Int.ofNat
      | ds => (Decimal.ofDigits? ds).map Int.ofNat
    else none

/-- The number that an unsigned decimal text is: digits, maybe a point and more digits, of which there
has to be at least one on some side, and maybe an exponent. -/
def magnitude? (cs : List Char) : Option Binary64 := do
  let (whole, rest) := spanDigits cs
  let (fraction, rest) :=
    match rest with
    | '.' :: rest => spanDigits rest
    | _ => ([], rest)
  if whole.isEmpty && fraction.isEmpty then none
  else
    let exponent ← exponent? rest
    Binary64.ofDecimal? (Decimal.valueOf (whole ++ fraction)) (exponent - fraction.length)

/-- The number that a text is, if it is neither below zero nor beyond all bounds.  Zero may have a minus
sign. -/
def number? (cs : List Char) : Option Binary64 :=
  match cs with
  | '+' :: cs => magnitude? cs
  | '-' :: cs => (magnitude? cs).filter (·.mantissa == 0)
  | cs => magnitude? cs

/-- The units, and the bytes per second that each stands for. -/
def units : List (Char × Nat) := [('K', 1000), ('M', 1000000), ('G', 1000000000)]

/-- The first unit that a text ends in, and what stands in front of it. -/
def splitUnit? (cs : List Char) : Option (List Char × Nat) :=
  units.findSome? fun (letter, unit) => (dropEnding? [letter] cs).map (·, unit)

/-- A text in capitals without blanks around it, and without `B/S` and then `B` at its end. -/
def bare (text : String) : List Char :=
  let cs := Text.uppercase (Text.trim text.toList)
  let cs := (dropEnding? ['B', '/', 'S'] cs).getD cs
  (dropEnding? ['B'] cs).getD cs

/-- The rate that a text is. -/
def ofText? (text : String) : Except Refusal UInt64 :=
  let cs := bare text
  match splitUnit? cs with
  | none =>
    match Decimal.wordOfText? cs with
    | some w => .ok w
    | none => .error (.notAWord (String.ofList cs))
  | some (front, unit) =>
    match number? (Text.trim front) with
    | some x => .ok (Word.clamp (x.mul (Binary64.ofNat unit)).floor)
    | none => .error (.notANumber (String.ofList front))

end Shaping.Rate
