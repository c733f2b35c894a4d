import Shaping.Json.Lexeme

/-!
# Reading values of a wanted type

A `Reader` knows what it wants and refuses anything else at once, so that of a mistake in what a text
says and a mistake in how it is written the first one counts.  There is one reader per kind of value:

* `Reader.word`, `Reader.flag`, `Reader.string` and `Reader.parsed` for the simple kinds;
* `Reader.optional`, where `null` stands for nothing;
* `Reader.list`, for arrays;
* `Reader.variant`, for one name out of several.  The name stands alone as a string, or as the only key
  of an object with the value `null`;
* `Reader.record`, for records, given by their fields (`Field`).  The text of a record is an object, in
  which fields come in any order and unknown ones are passed over, or an array of the values of its
  fields, of which the last ones may be missing.

A record is read into a blank one, field by field.  The fields seen are kept by name, so that a second
one of a name is refused before its value is read, and a missing one at the closing bracket.

Readers that go round in a loop are given as many rounds as the text has characters, which is more than
they can use, since every round takes a character at least.
-/

set_option autoImplicit false

namespace Shaping.Json

open Lexeme (skipSpace)

/-- Refuse a text for what it says. -/
def mismatch {α : Type} (m : Mismatch) (unread : List Char) : Except Refusal α :=
  .error (.here (.mismatch m) unread)

/-- Refuse a text for the character that comes next, or for ending here. -/
def unexpected {α : Type} (u : Unfinished) (m : Malformed) (cs : List Char) : Except Refusal α :=
  match cs with
  | [] => .error (.next (.unfinished u) [])
  | _ => .error (.next (.malformed m) cs)

/-! ## Values nobody asked for -/

namespace Lexeme

/-- What encloses a value that is being passed over. -/
inductive Enclosure where
  | array
  | object
  deriving DecidableEq

/-- Where passing over stands. -/
inductive Expecting where
  /-- A value comes next. -/
  | value
  /-- A bracket was just opened: a first element or the end comes next. -/
  | first
  /-- A value is complete: a comma or the end comes next. -/
  | after
  /-- A key comes next. -/
  | key
  deriving DecidableEq

/-- What comes first in an enclosure, or after a comma. -/
def Enclosure.element : Enclosure → Expecting
  | .array => .value
  | .object => .key

/-- Pass over a value and whatever encloses it, in at most `fuel` steps. -/
def pass (fuel : Nat) (inside : List Enclosure) (expecting : Expecting) (cs : List Char) :
    Except Refusal (List Char) :=
  match fuel with
  | 0 => .error (.next (.unfinished .value) [])
  | fuel + 1 =>
    match expecting, inside with
    | .value, _ =>
      match skipSpace cs with
      | 'n' :: rest => do pass fuel inside .after (← word ['u', 'l', 'l'] rest)
      | 't' :: rest => do pass fuel inside .after (← word ['r', 'u', 'e'] rest)
      | 'f' :: rest => do pass fuel inside .after (← word ['a', 'l', 's', 'e'] rest)
      | '-' :: rest => do pass fuel inside .after (← passNumber rest)
      | '"' :: rest => do pass fuel inside .after (← passString rest)
      | '[' :: rest => pass fuel (.array :: inside) .first rest
      | '\x7b' :: rest => pass fuel (.object :: inside) .first rest
      | c :: rest =>
        if Decimal.isDigit c then do pass fuel inside .after (← passNumber (c :: rest))
        else unexpected .value .valueExpected (c :: rest)
      | [] => unexpected .value .valueExpected []
    | .after, [] => .ok cs
    | .first, [] => .ok cs
    | .key, _ =>
      match skipSpace cs with
      | '"' :: rest => do
        match skipSpace (← passString rest) with
        | ':' :: rest => pass fuel inside .value rest
        | rest => unexpected .object .colonExpected rest
      | rest => unexpected .object .keyExpected rest
    | .first, .array :: outer =>
      match skipSpace cs with
      | ']' :: rest => pass fuel outer .after rest
      | [] => unexpected .array .arrayGoesOnWrongly []
      | rest => pass fuel inside .value rest
    | .first, .object :: outer =>
      match skipSpace cs with
      | '\x7d' :: rest => pass fuel outer .after rest
      | [] => unexpected .object .objectGoesOnWrongly []
      | rest => pass fuel inside .key rest
    | .after, .array :: outer =>
      match skipSpace cs with
      | ',' :: rest => pass fuel inside .value rest
      | ']' :: rest => pass fuel outer .after rest
      | rest => unexpected .array .arrayGoesOnWrongly rest
    | .after, .object :: outer =>
      match skipSpace cs with
      | ',' :: rest => pass fuel inside .key rest
      | '\x7d' :: rest => pass fuel outer .after rest
      | rest => unexpected .object .objectGoesOnWrongly rest

/-- Pass over a value.  A step that takes no character is followed by one that takes some. -/
def passValue (cs : List Char) : Except Refusal (List Char) :=
  pass (2 * cs.length + 2) [] .value cs

end Lexeme

namespace Reader

/-! ## Simple values -/

/-- Refuse the value that comes next, whatever it is, because something else is wanted. -/
def refuse {α : Type} (wanted : String) (cs : List Char) : Except Refusal α :=
  let found (f : Found) (unread : List Char) : Except Refusal α :=
    mismatch (.wrongType f wanted) unread
  match cs with
  | 'n' :: rest => do found .null (← Lexeme.word ['u', 'l', 'l'] rest)
  | 't' :: rest => do found (.boolean true) (← Lexeme.word ['r', 'u', 'e'] rest)
  | 'f' :: rest => do found (.boolean false) (← Lexeme.word ['a', 'l', 's', 'e'] rest)
  | '"' :: rest => do
    let (s, rest) ← Lexeme.string rest
    found (.string s) rest
  | '[' :: _ => found .array cs
  | '\x7b' :: _ => found .object cs
  | c :: _ =>
    if c = '-' ∨ Decimal.isDigit c then do
      let (n, rest) ← Lexeme.number cs
      found (.number n) rest
    else unexpected .value .valueExpected cs
  | [] => unexpected .value .valueExpected []

/-- A natural number below `2 ^ bits`. -/
def natural (bits : Nat) (wanted : String) : Reader UInt64 := fun cs =>
  match skipSpace cs with
  | [] => unexpected .value .valueExpected []
  | c :: rest =>
    if c = '-' ∨ Decimal.isDigit c then do
      let (n, rest) ← Lexeme.number (c :: rest)
      match n with
      | .natural w =>
        if w.toNat >>> bits = 0 then .ok (w, rest)
        else mismatch (.wrongValue (.number n) wanted) rest
      | .negative _ => mismatch (.wrongValue (.number n) wanted) rest
      | .fraction _ => mismatch (.wrongType (.number n) wanted) rest
    else refuse wanted (c :: rest)

/-- A word of 64 bits. -/
def word : Reader UInt64 := natural 64 "u64"

/-- A word of 64 bits that counts entries. -/
def size : Reader UInt64 := natural 64 "usize"

/-- A word of 32 bits. -/
def shortWord : Reader UInt32 := fun cs => do
  let (w, rest) ← natural 32 "u32" cs
  .ok (w.toUInt32, rest)

/-- A truth value. -/
def flag : Reader Bool := fun cs =>
  match skipSpace cs with
  | 't' :: rest => do .ok (true, ← Lexeme.word ['r', 'u', 'e'] rest)
  | 'f' :: rest => do .ok (false, ← Lexeme.word ['a', 'l', 's', 'e'] rest)
  | rest => refuse "a boolean" rest

/-- A string that `make` finds a value for, or else a mismatch. -/
def made {α : Type} (wanted : String) (make : String → Except Mismatch α) : Reader α := fun cs =>
  match skipSpace cs with
  | '"' :: rest => do
    let (s, rest) ← Lexeme.string rest
    match make s with
    | .ok a => .ok (a, rest)
    | .error m => mismatch m rest
  | rest => refuse wanted rest

/-- A string. -/
def string : Reader String := made "a string" .ok

/-- A string that is the text of an address of some kind. -/
def parsed {α : Type} (wanted : String) (parse? : String → Option α) : Reader α :=
  made wanted fun s =>
    match parse? s with
    | some a => .ok a
    | none => .error (.wrongAddress wanted)

/-- A value or `null`. -/
def optional {α : Type} (r : Reader α) : Reader (Option α) := fun cs =>
  match skipSpace cs with
  | 'n' :: rest => do .ok (none, ← Lexeme.word ['u', 'l', 'l'] rest)
  | rest => do
    let (a, rest) ← r rest
    .ok (some a, rest)

/-- The value `null`. -/
def null : Reader Unit := fun cs =>
  match skipSpace cs with
  | 'n' :: rest => do .ok ((), ← Lexeme.word ['u', 'l', 'l'] rest)
  | rest => refuse "unit" rest

/-! ## Punctuation -/

/-- The text behind the colon that comes next. -/
def colon (cs : List Char) : Except Refusal (List Char) :=
  match skipSpace cs with
  | ':' :: rest => .ok rest
  | rest => unexpected .object .colonExpected rest

/-- The text from the next element of an array on, or nothing if the array ends here. -/
def element? (isFirst : Bool) (cs : List Char) : Except Refusal (Option (List Char)) :=
  match skipSpace cs with
  | [] => unexpected .array .arrayGoesOnWrongly []
  | c :: rest =>
    if c = ']' then .ok none
    else if isFirst then .ok (some (c :: rest))
    else if c = ',' then
      match skipSpace rest with
      | [] => unexpected .value .valueExpected []
      | d :: behind =>
        if d = ']' then .error (.next (.malformed .trailingComma) (d :: behind))
        else .ok (some (d :: behind))
    else .error (.next (.malformed .arrayGoesOnWrongly) (c :: rest))

/-- The text behind the opening quote of the next key of an object, or nothing if the object ends
here. -/
def key? (isFirst : Bool) (cs : List Char) : Except Refusal (Option (List Char)) :=
  match skipSpace cs with
  | [] => unexpected .object .objectGoesOnWrongly []
  | c :: rest =>
    if c = '\x7d' then .ok none
    else if isFirst then
      if c = '"' then .ok (some rest) else .error (.next (.malformed .keyExpected) (c :: rest))
    else if c = ',' then
      match skipSpace rest with
      | [] => unexpected .value .valueExpected []
      | d :: behind =>
        if d = '"' then .ok (some behind)
        else if d = '\x7d' then .error (.next (.malformed .trailingComma) (d :: behind))
        else .error (.next (.malformed .keyExpected) (d :: behind))
    else .error (.next (.malformed .objectGoesOnWrongly) (c :: rest))

/-- The text behind the closing bracket of an array. -/
def endArray (cs : List Char) : Except Refusal (List Char) :=
  match skipSpace cs with
  | ']' :: rest => .ok rest
  | ',' :: rest =>
    match skipSpace rest with
    | ']' :: behind => .error (.next (.malformed .trailingComma) (']' :: behind))
    | behind => .error (.next (.malformed .trailingCharacters) behind)
  | rest => unexpected .array .trailingCharacters rest

/-- The text behind the closing brace of an object. -/
def endObject (cs : List Char) : Except Refusal (List Char) :=
  match skipSpace cs with
  | '\x7d' :: rest => .ok rest
  | ',' :: rest => .error (.next (.malformed .trailingComma) (',' :: rest))
  | rest => unexpected .object .trailingCharacters rest

/-- Refuse a record for what it says, behind its closing bracket if that comes next. -/
def mismatchBehind {α : Type} (close : Char) (m : Mismatch) (cs : List Char) : Except Refusal α :=
  match skipSpace cs with
  | c :: rest => if c = close then mismatch m rest else mismatch m (c :: rest)
  | [] => mismatch m []

/-! ## Arrays and variants -/

/-- The elements of an array from here on, of which there are at most `fuel`. -/
def elements {α : Type} (r : Reader α) (fuel : Nat) (isFirst : Bool) : Reader (List α) := fun cs =>
  match fuel with
  | 0 => .error (.next (.unfinished .array) [])
  | fuel + 1 => do
    match ← element? isFirst cs with
    | none => .ok ([], ← endArray cs)
    | some cs =>
      let (a, cs) ← r cs
      let (more, cs) ← elements r fuel false cs
      .ok (a :: more, cs)

/-- An array. -/
def list {α : Type} (r : Reader α) : Reader (List α) := fun cs =>
  match skipSpace cs with
  | '[' :: rest => elements r (rest.length + 1) true rest
  | rest => refuse "a sequence" rest

/-- One name out of several, as a string. -/
def variantName {α : Type} (variants : List (String × α)) : Reader α :=
  made "variant identifier" fun s =>
    match variants.lookup s with
    | some a => .ok a
    | none => .error (.unknownVariant s (variants.map (·.1)))

/-- One name out of several. -/
def variant {α : Type} (variants : List (String × α)) : Reader α := fun cs =>
  match skipSpace cs with
  | '"' :: rest => variantName variants ('"' :: rest)
  | '\x7b' :: rest => do
    let (a, rest) ← variantName variants rest
    let (_, rest) ← null (← colon rest)
    match skipSpace rest with
    | '\x7d' :: rest => .ok (a, rest)
    | [] => .error (.here (.unfinished .object) [])
    | rest => .error (.here (.malformed .valueExpected) rest)
  | rest => unexpected .value .valueExpected rest

/-! ## Records -/

/-- A field of a record. -/
structure Field (ρ : Type) where
  name : String
  /-- Is a record without this field refused? -/
  required : Bool
  /-- Read the value of the field into a record. -/
  read : ρ → Reader ρ

/-- The field that is read by `r` and stored by `set`. -/
def Field.of {ρ α : Type} (name : String) (required : Bool) (r : Reader α) (set : ρ → α → ρ) :
    Field ρ where
  name := name
  required := required
  read record cs := do
    let (a, cs) ← r cs
    .ok (set record a, cs)

section Record

variable {ρ : Type}

/-- Read the fields of a record from the object that it is written as, of which there are at most
`fuel`, given the names of the fields read so far. -/
def fromObject (fields : List (Field ρ)) (fuel : Nat) (isFirst : Bool) (seen : List String)
    (record : ρ) : Reader ρ := fun cs =>
  match fuel with
  | 0 => .error (.next (.unfinished .object) [])
  | fuel + 1 => do
    match ← key? isFirst cs with
    | none =>
      match fields.find? fun f => f.required && !seen.contains f.name with
      | some f => mismatchBehind '\x7d' (.missingField f.name) cs
      | none => .ok (record, ← endObject cs)
    | some cs =>
      let (name, cs) ← Lexeme.string cs
      match fields.find? (·.name == name) with
      | none =>
        fromObject fields fuel false seen record (← Lexeme.passValue (← colon cs))
      | some f =>
        if seen.contains name then mismatchBehind '\x7d' (.duplicateField name) cs
        else
          let (record, cs) ← f.read record (← colon cs)
          fromObject fields fuel false (name :: seen) record cs

/-- How records of a type are called when one is wanted. -/
def recordTitle (title : String) : String := s!"struct {title}"

/-- How records of a type are called when all of their fields are wanted. -/
def fullTitle (title : String) (count : Nat) : String :=
  recordTitle title ++ s!" with {count} element" ++ (if count = 1 then "" else "s")

/-- Read the fields of a record from the array that it is written as, given the fields to come and how
many were read before them. -/
def fromArray (wanted : String) (read : Nat) (record : ρ) : List (Field ρ) → Reader ρ
  | [], cs => do .ok (record, ← endArray cs)
  | f :: fields, cs => do
    match ← element? (read == 0) cs with
    | some cs =>
      let (record, cs) ← f.read record cs
      fromArray wanted (read + 1) record fields cs
    | none =>
      match (f :: fields).findIdx? (·.required) with
      | some skipped => mismatchBehind ']' (.wrongLength (read + skipped) wanted) cs
      | none => .ok (record, ← endArray cs)

/-- A record.  Fields that are left out stay as they are in `blank`. -/
def record (title : String) (blank : ρ) (fields : List (Field ρ)) : Reader ρ := fun cs =>
  match skipSpace cs with
  | '\x7b' :: rest => fromObject fields (rest.length + 1) true [] blank rest
  | '[' :: rest => fromArray (fullTitle title fields.length) 0 blank fields rest
  | rest => refuse (recordTitle title) rest

end Record

/-- Read a whole text. -/
def whole {α : Type} (r : Reader α) (text : String) : Except Refusal α := do
  let (a, rest) ← r text.toList
  match skipSpace rest with
  | [] => .ok a
  | rest => .error (.next (.malformed .trailingCharacters) rest)

end Reader

end Shaping.Json
