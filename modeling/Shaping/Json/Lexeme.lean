import Shaping.Json.Refusal
import Shaping.Text.Decimal

/-!
# Words, strings and numbers of a JSON text

The smallest parts of a JSON text.  Each can be *read* for its value or *passed over*.  Passing over is
used for the values of fields that nobody asked for, and it is a little more lenient, since only
reading finds out that a number is out of range or that an escape names half a character.

A number is read into a word where it is an integer of 64 bits.  Otherwise it is a fraction: its digits,
as many of them as fit into a word, times one power of ten that is itself rounded, with a rounding after
that.  The result can be off in its last place, which shows only in the words of a refusal, because
nothing that is read wants a fraction.
-/

set_option autoImplicit false

namespace Shaping.Json

/-- A reader takes a value off the front of a text. -/
abbrev Reader (α : Type) := List Char → Except Refusal (α × List Char)

namespace Lexeme

/-- The characters that may stand between the parts of a text. -/
def isSpace (c : Char) : Bool := c == ' ' || c == '\n' || c == '\t' || c == '\r'

/-- A text from its next part on. -/
def skipSpace (cs : List Char) : List Char := cs.dropWhile isSpace

/-! ## Words -/

/-- The text after the remaining letters of a word. -/
def word : List Char → List Char → Except Refusal (List Char)
  | [], cs => .ok cs
  | _ :: _, [] => .error (.here (.unfinished .value) [])
  | w :: ws, c :: cs =>
    if c = w then word ws cs else .error (.here (.malformed .wordExpected) cs)

/-! ## Strings -/

/-- The value of a hexadecimal digit. -/
def hexDigit? (c : Char) : Option Nat :=
  if '0' ≤ c ∧ c ≤ '9' then some (c.toNat - '0'.toNat)
  else if 'a' ≤ c ∧ c ≤ 'f' then some (c.toNat - 'a'.toNat + 10)
  else if 'A' ≤ c ∧ c ≤ 'F' then some (c.toNat - 'A'.toNat + 10)
  else none

/-- The number that four hexadecimal digits write.  A text of fewer than four bytes is unfinished. -/
def hexQuad (cs : List Char) : Except Refusal (Nat × List Char) :=
  let wrong := Except.error (.here (.malformed .wrongEscape) (cs.drop 4))
  if Refusal.byteCount (cs.take 4) < 4 then .error (.here (.unfinished .string) [])
  else
    match cs with
    | a :: b :: c :: d :: rest =>
      match hexDigit? a, hexDigit? b, hexDigit? c, hexDigit? d with
      | some a, some b, some c, some d => .ok (((a * 16 + b) * 16 + c) * 16 + d, rest)
      | _, _, _, _ => wrong
    | _ => wrong

/-- The character that a letter behind a backslash stands for, the one for numbers excepted. -/
def escaped? : Char → Option Char
  | '"' => some '"'
  | '\\' => some '\\'
  | '/' => some '/'
  | 'b' => some '\x08'
  | 'f' => some '\x0c'
  | 'n' => some '\n'
  | 'r' => some '\r'
  | 't' => some '\t'
  | _ => none

/-- Is the number the first half of a character beyond the basic plane? -/
def isLeading (n : Nat) : Bool := 0xD800 ≤ n && n ≤ 0xDBFF

/-- Is the number the second half of a character beyond the basic plane? -/
def isTrailing (n : Nat) : Bool := 0xDC00 ≤ n && n ≤ 0xDFFF

/-- The character given by number, the text starting behind the `u`.  Characters beyond the basic plane
are given in two halves, which have to stand together. -/
def numbered : Reader Char := fun cs => do
  let (n, cs) ← hexQuad cs
  if isTrailing n then .error (.here (.malformed .loneSurrogate) cs)
  else if isLeading n then
    match cs with
    | '\\' :: 'u' :: rest =>
      let (m, rest) ← hexQuad rest
      if isTrailing m then
        .ok (Char.ofNat (0x10000 + (n - 0xD800) * 1024 + (m - 0xDC00)), rest)
      else .error (.here (.malformed .loneSurrogate) rest)
    | ['\\'] | [] => .error (.here (.unfinished .string) [])
    | '\\' :: _ :: rest => .error (.here (.malformed .halfSurrogatePair) rest)
    | _ :: rest => .error (.here (.malformed .halfSurrogatePair) rest)
  else .ok (Char.ofNat n, cs)

/-- The character that an escape stands for, the text starting behind the backslash. -/
def escape : Reader Char := fun cs =>
  match cs with
  | [] => .error (.here (.unfinished .string) [])
  | c :: rest =>
    if c = 'u' then numbered rest
    else
      match escaped? c with
      | some e => .ok (e, rest)
      | none => .error (.here (.malformed .wrongEscape) rest)

/-- Pass over an escape, the text starting behind the backslash. -/
def passEscape (cs : List Char) : Except Refusal (List Char) :=
  match cs with
  | [] => .error (.here (.unfinished .string) [])
  | c :: rest =>
    if c = 'u' then (hexQuad rest).map (·.2)
    else if (escaped? c).isSome then .ok rest
    else .error (.here (.malformed .wrongEscape) rest)

/-- The characters of a string, the text starting behind the opening quote.  There are at most `fuel`
of them. -/
def stringBody (fuel : Nat) : Reader (List Char) := fun cs =>
  match fuel with
  | 0 => .error (.here (.unfinished .string) [])
  | fuel + 1 =>
    match cs with
    | [] => .error (.here (.unfinished .string) [])
    | c :: rest =>
      if c = '"' then .ok ([], rest)
      else if c = '\\' then do
        let (e, rest) ← escape rest
        let (more, rest) ← stringBody fuel rest
        .ok (e :: more, rest)
      else if c.toNat < 32 then .error (.here (.malformed .controlCharacter) rest)
      else do
        let (more, rest) ← stringBody fuel rest
        .ok (c :: more, rest)

/-- A string, the text starting behind the opening quote. -/
def string : Reader String := fun cs => do
  let (body, rest) ← stringBody (cs.length + 1) cs
  .ok (String.ofList body, rest)

/-- Pass over the characters of a string, of which there are at most `fuel`. -/
def passStringBody (fuel : Nat) (cs : List Char) : Except Refusal (List Char) :=
  match fuel with
  | 0 => .error (.here (.unfinished .string) [])
  | fuel + 1 =>
    match cs with
    | [] => .error (.here (.unfinished .string) [])
    | c :: rest =>
      if c = '"' then .ok rest
      else if c = '\\' then do
        let rest ← passEscape rest
        passStringBody fuel rest
      else if c.toNat < 32 then .error (.here (.malformed .controlCharacter) cs)
      else passStringBody fuel rest

/-- Pass over a string, the text starting behind the opening quote. -/
def passString (cs : List Char) : Except Refusal (List Char) :=
  passStringBody (cs.length + 1) cs

/-! ## Numbers -/

/-- The digits at the front of a text, and the rest. -/
def spanDigits (cs : List Char) : List Char × List Char :=
  (cs.takeWhile Decimal.isDigit, cs.dropWhile Decimal.isDigit)

/-- The digits that a number is computed from: as many, from the front, as fit into a word, given the
number that was read before them. -/
def significant (n : Nat) : List Char → Nat × List Char
  | [] => (n, [])
  | d :: ds =>
    let m := n * 10 + Decimal.digitValue d
    if m < UInt64.size then significant m ds else (n, d :: ds)

/-- A word times a power of ten, or nothing if that is beyond all bounds.  Powers beyond the range of the
format are applied in steps. -/
def scaled? (x : Binary64) (scale : Int) : Option Binary64 :=
  let power (k : Nat) : Binary64 := .nearest (Nat.pow 10 k) 1
  if 0 ≤ scale then
    if scale ≤ 308 then (some (x.mul (power scale.toNat))).filter (·.isFinite)
    else if x.mantissa = 0 then some .zero
    else none
  else if -308 ≤ scale then some (x.div (power (-scale).toNat))
  else if x.mantissa = 0 then some .zero
  else scaled? (x.div (power 308)) (scale + 308)
termination_by (-scale).toNat
decreasing_by omega

/-- The fraction with the given digits and scale. -/
def fraction (negative : Bool) (digits : Nat) (scale : Int) (rest : List Char) :
    Except Refusal (Number × List Char) :=
  match scaled? (.ofNat digits) scale with
  | some x => .ok (.fraction ⟨negative, x⟩, rest)
  | none => .error (.here (.malformed .numberTooLarge) rest)

/-- The largest exponent that is computed with. -/
def maxExponent : Nat := 2147483647

/-- Read an exponent, the text starting behind its letter. -/
def exponent (negative : Bool) (digits : Nat) (scale : Int) : Reader Number := fun cs =>
  let (down, cs) :=
    match cs with
    | '+' :: rest => (false, rest)
    | '-' :: rest => (true, rest)
    | _ => (false, cs)
  match cs with
  | [] => .error (.here (.unfinished .value) [])
  | c :: rest =>
    if Decimal.isDigit c then
      let (ds, behind) := spanDigits cs
      let n := Decimal.valueOf ds
      if n ≤ maxExponent then fraction negative digits (if down then scale - n else scale + n) behind
      else if digits = 0 ∨ down then .ok (.fraction ⟨negative, .zero⟩, behind)
      else .error (.here (.malformed .numberTooLarge) (tooLarge 0 cs))
    else .error (.here (.malformed .wrongNumber) rest)
where
  /-- The text from the digit on that makes an exponent too large. -/
  tooLarge (n : Nat) : List Char → List Char
    | [] => []
    | c :: cs =>
      let m := n * 10 + Decimal.digitValue c
      if Decimal.isDigit c ∧ m ≤ maxExponent then tooLarge m cs else cs

/-- Read an exponent if there is one. -/
def maybeExponent (negative : Bool) (digits : Nat) (scale : Int) : Reader Number := fun cs =>
  match cs with
  | 'e' :: rest | 'E' :: rest => exponent negative digits scale rest
  | _ => fraction negative digits scale cs

/-- Read the decimals of a number, the text starting behind the point. -/
def decimals (negative : Bool) (digits : Nat) (scale : Int) : Reader Number := fun cs =>
  match spanDigits cs with
  | ([], []) => .error (.next (.unfinished .value) [])
  | ([], behind) => .error (.next (.malformed .wrongNumber) behind)
  | (ds, behind) =>
    let (digits, unused) := significant digits ds
    maybeExponent negative digits (scale - (ds.length - unused.length : Nat)) behind

/-- Read what follows the whole digits of a number, of which so many were left out of `digits`. -/
def afterWhole (negative : Bool) (digits leftOut : Nat) : Reader Number := fun cs =>
  match cs with
  | '.' :: rest => decimals negative digits leftOut rest
  | 'e' :: rest | 'E' :: rest => exponent negative digits leftOut rest
  | _ =>
    if leftOut ≠ 0 then fraction negative digits leftOut cs
    else if negative then
      if digits = 0 ∨ UInt64.size / 2 < digits then
        .ok (.fraction ⟨true, .ofNat digits⟩, cs)
      else .ok (.negative (-(digits : Int)), cs)
    else .ok (.natural (.ofNat digits), cs)

/-- Read a number, the text starting behind its sign. -/
def unsigned (negative : Bool) : Reader Number := fun cs =>
  match cs with
  | [] => .error (.here (.unfinished .value) [])
  | c :: rest =>
    if c = '0' then
      match rest with
      | d :: _ =>
        if Decimal.isDigit d then .error (.next (.malformed .wrongNumber) rest)
        else afterWhole negative 0 0 rest
      | [] => afterWhole negative 0 0 rest
    else if Decimal.isDigit c then
      let (ds, behind) := spanDigits cs
      let (digits, unused) := significant 0 ds
      afterWhole negative digits unused.length behind
    else .error (.here (.malformed .wrongNumber) rest)

/-- Read a number. -/
def number : Reader Number := fun cs =>
  match cs with
  | '-' :: rest => unsigned true rest
  | _ => unsigned false cs

/-- Pass over an exponent if there is one. -/
def passExponent (cs : List Char) : Except Refusal (List Char) :=
  match cs with
  | 'e' :: rest | 'E' :: rest =>
    let rest :=
      match rest with
      | '+' :: r | '-' :: r => r
      | _ => rest
    match rest with
    | d :: behind =>
      if Decimal.isDigit d then .ok (behind.dropWhile Decimal.isDigit)
      else .error (.here (.malformed .wrongNumber) behind)
    | [] => .error (.here (.malformed .wrongNumber) [])
  | _ => .ok cs

/-- Pass over what follows the whole digits of a number. -/
def passFraction (cs : List Char) : Except Refusal (List Char) :=
  match cs with
  | '.' :: rest =>
    match spanDigits rest with
    | ([], behind) => .error (.next (.malformed .wrongNumber) behind)
    | (_, behind) => passExponent behind
  | _ => passExponent cs

/-- Pass over a number, the text starting behind its sign. -/
def passNumber (cs : List Char) : Except Refusal (List Char) :=
  match cs with
  | [] => .error (.here (.malformed .wrongNumber) [])
  | c :: rest =>
    if c = '0' then
      match rest with
      | d :: _ =>
        if Decimal.isDigit d then .error (.next (.malformed .wrongNumber) rest)
        else passFraction rest
      | [] => .ok []
    else if Decimal.isDigit c then passFraction (rest.dropWhile Decimal.isDigit)
    else .error (.here (.malformed .wrongNumber) rest)

end Lexeme

end Shaping.Json
