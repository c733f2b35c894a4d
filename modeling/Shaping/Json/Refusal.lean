import Shaping.Binary64.Shortest
import Shaping.Text.Quoted

/-!
# Why a JSON text was refused

A text is read from left to right into a value of a certain type, and the first thing wrong with it
decides.  That may be the text itself, which is `malformed` or `unfinished`, or it may be that the text
so far is fine but says something else than what is wanted, a `Mismatch`.

A `Refusal` carries the part of the text that was unread when it was found, from which its place can
be told (`Refusal.position`).
-/

set_option autoImplicit false

namespace Shaping.Json

/-! ## Mismatches -/

/-- A number outside the integers, or one of a size that is not kept as an integer. -/
structure Fraction where
  negative : Bool
  magnitude : Binary64
  deriving DecidableEq

/-- A number as it is read: a natural number or a negative integer of 64 bits, or else a fraction. -/
inductive Number where
  | natural (n : UInt64)
  | negative (n : Int)
  | fraction (x : Fraction)
  deriving DecidableEq

/-- Something found in place of what was wanted. -/
inductive Found where
  | null
  | boolean (b : Bool)
  | number (n : Number)
  | string (s : String)
  | array
  | object
  deriving DecidableEq

/-- How a text that is well formed fails to say what is wanted. -/
inductive Mismatch where
  /-- The value is of another kind. -/
  | wrongType (found : Found) (wanted : String)
  /-- The value is of the right kind but out of range. -/
  | wrongValue (found : Found) (wanted : String)
  /-- An array that stands for a record ends too early. -/
  | wrongLength (length : Nat) (wanted : String)
  | missingField (name : String)
  | duplicateField (name : String)
  /-- A name is none of those that there are. -/
  | unknownVariant (name : String) (known : List String)
  /-- A string is not an address of the wanted kind. -/
  | wrongAddress (wanted : String)
  deriving DecidableEq

/-- A number that is no integer is shown with the fewest digits that read back.  From a hundred
thousandth up to below ten to the sixteenth it stands with a point and at least one decimal, and
otherwise with an exponent of at least two digits and a sign. -/
def Fraction.text (x : Fraction) : String :=
  let sign := if x.negative then "-" else ""
  let n := x.magnitude.shortest
  let digits := Nat.toDigits 10 n.digits
  let leading : Int := digits.length + n.scale - 1
  let body : List Char :=
    if leading < -5 ∨ 15 < leading then
      let mantissa :=
        match digits with
        | [d] => [d]
        | d :: ds => d :: '.' :: ds
        | [] => []
      let exponent := Nat.toDigits 10 leading.natAbs
      mantissa ++ ['e', if leading < 0 then '-' else '+'] ++
        (if exponent.length = 1 then '0' :: exponent else exponent)
    else if 0 ≤ n.scale then digits ++ List.replicate n.scale.toNat '0' ++ ['.', '0']
    else if 0 ≤ leading then
      digits.take (leading.toNat + 1) ++ '.' :: digits.drop (leading.toNat + 1)
    else '0' :: '.' :: (List.replicate (-leading - 1).toNat '0' ++ digits)
  sign ++ String.ofList body

/-- What was found, in words. -/
def Found.text : Found → String
  | .null => "null"
  | .boolean b => s!"boolean `{b}`"
  | .number (.natural n) => s!"integer `{n}`"
  | .number (.negative n) => s!"integer `{n}`"
  | .number (.fraction x) => s!"floating point `{x.text}`"
  | .string s => "string " ++ Text.quote s
  | .array => "sequence"
  | .object => "map"

/-- The names that there are, in words. -/
def alternatives : List String → String
  | [] => "there are no variants"
  | [a] => s!"expected `{a}`"
  | [a, b] => s!"expected `{a}` or `{b}`"
  | names => "expected one of " ++ ", ".intercalate (names.map fun a => s!"`{a}`")

/-- A mismatch in words. -/
def Mismatch.message : Mismatch → String
  | .wrongType found wanted => s!"invalid type: {found.text}, expected {wanted}"
  | .wrongValue found wanted => s!"invalid value: {found.text}, expected {wanted}"
  | .wrongLength length wanted => s!"invalid length {length}, expected {wanted}"
  | .missingField name => s!"missing field `{name}`"
  | .duplicateField name => s!"duplicate field `{name}`"
  | .unknownVariant name known => s!"unknown variant `{name}`, {alternatives known}"
  | .wrongAddress wanted => s!"invalid {wanted} syntax"

/-! ## Texts that are no JSON -/

/-- Where a text ends too early. -/
inductive Unfinished where
  | array
  | object
  | string
  | value
  deriving DecidableEq

/-- Where a text ends too early, in words. -/
def Unfinished.message : Unfinished → String
  | .array => "EOF while parsing a list"
  | .object => "EOF while parsing an object"
  | .string => "EOF while parsing a string"
  | .value => "EOF while parsing a value"

/-- How a text goes wrong. -/
inductive Malformed where
  | colonExpected
  | arrayGoesOnWrongly
  | objectGoesOnWrongly
  | wordExpected
  | valueExpected
  | wrongEscape
  | wrongNumber
  | numberTooLarge
  | controlCharacter
  | keyExpected
  | loneSurrogate
  | trailingComma
  | trailingCharacters
  | halfSurrogatePair
  deriving DecidableEq

/-- How a text goes wrong, in words. -/
def Malformed.message : Malformed → String
  | .colonExpected => "expected `:`"
  | .arrayGoesOnWrongly => "expected `,` or `]`"
  | .objectGoesOnWrongly => "expected `,` or `\x7d`"
  | .wordExpected => "expected ident"
  | .valueExpected => "expected value"
  | .wrongEscape => "invalid escape"
  | .wrongNumber => "invalid number"
  | .numberTooLarge => "number out of range"
  | .controlCharacter => "control character (\\u0000-\\u001F) found while parsing a string"
  | .keyExpected => "key must be a string"
  | .loneSurrogate => "lone leading surrogate in hex escape"
  | .trailingComma => "trailing comma"
  | .trailingCharacters => "trailing characters"
  | .halfSurrogatePair => "unexpected end of hex escape"

/-! ## Refusals -/

/-- What is wrong with a text. -/
inductive Reason where
  | mismatch (m : Mismatch)
  | malformed (m : Malformed)
  | unfinished (u : Unfinished)
  deriving DecidableEq

/-- What is wrong with a text, in words. -/
def Reason.message : Reason → String
  | .mismatch m => m.message
  | .malformed m => m.message
  | .unfinished u => u.message

/-- The first thing wrong with a text, and what was unread when it was found.  A character that was
only looked at counts as unread, but the place that is reported is behind it. -/
structure Refusal where
  reason : Reason
  unread : List Char
  peeked : Bool
  deriving DecidableEq

namespace Refusal

/-- Text refused for what was read last. -/
def here (reason : Reason) (unread : List Char) : Refusal := ⟨reason, unread, false⟩

/-- Text refused for the character that comes next. -/
def next (reason : Reason) (unread : List Char) : Refusal := ⟨reason, unread, true⟩

/-- The bytes that characters take in the encoding of the file. -/
def byteCount (cs : List Char) : Nat := cs.foldr (fun c count => c.utf8Size + count) 0

/-- The line and the column in which a text was refused.  Columns count bytes, and a line feed is in
column zero of the line that it opens. -/
def position (r : Refusal) (text : List Char) : Nat × Nat :=
  let read := text.take (text.length - r.unread.length)
  let seen := if r.peeked then r.unread.take 1 else []
  let column (cs : List Char) : Nat := byteCount ((read ++ cs).reverse.takeWhile (· != '\n'))
  let line := 1 + (read ++ seen).count '\n'
  match seen with
  | ['\n'] => (line, 0)
  | [_] => (line, column [] + 1)
  | _ => (line, column [])

/-- A refusal in words, with its place in the text. -/
def message (r : Refusal) (text : String) : String :=
  match r.position text.toList with
  | (line, column) => s!"{r.reason.message} at line {line} column {column}"

end Refusal

end Shaping.Json
