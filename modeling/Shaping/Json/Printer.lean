/-!
# Writing JSON texts

A `Json.Value` is written in one way only (`Value.text`): one element or field per line, two spaces of
indentation for each enclosing bracket, fields in their order, and empty arrays and objects as a pair
of brackets.  In strings a quote and a backslash get a backslash in front, the five controls that have
a letter use it, and the other controls below the space are given by number.  Nothing else is escaped.

Numbers are natural, because nothing that is written is anything else.
-/

set_option autoImplicit false

namespace Shaping.Json

/-- What a JSON text says, with the fields of objects in order. -/
inductive Value where
  | null
  | boolean (b : Bool)
  | natural (n : Nat)
  | string (s : String)
  | array (elements : List Value)
  | object (fields : List (String × Value))

namespace Value

/-- Four hexadecimal digits that write a number below 65536. -/
def hexQuad (n : Nat) : List Char :=
  [n / 4096 % 16, n / 256 % 16, n / 16 % 16, n % 16].map Nat.digitChar

/-- A character inside a string. -/
def escape (c : Char) : List Char :=
  if c = '"' ∨ c = '\\' then ['\\', c]
  else if c = '\x08' then ['\\', 'b']
  else if c = '\x0c' then ['\\', 'f']
  else if c = '\n' then ['\\', 'n']
  else if c = '\r' then ['\\', 'r']
  else if c = '\t' then ['\\', 't']
  else if c.toNat < 32 then '\\' :: 'u' :: hexQuad c.toNat
  else [c]

/-- A string with its quotes. -/
def quoted (s : String) : List Char := '"' :: (s.toList.flatMap escape ++ ['"'])

/-- A new line at some depth of brackets. -/
def newLine (depth : Nat) : List Char := '\n' :: List.replicate (2 * depth) ' '

mutual

/-- The characters of a value inside of so many brackets. -/
def print (depth : Nat) : Value → List Char
  | .null => ['n', 'u', 'l', 'l']
  | .boolean true => ['t', 'r', 'u', 'e']
  | .boolean false => ['f', 'a', 'l', 's', 'e']
  | .natural n => Nat.toDigits 10 n
  | .string s => quoted s
  | .array [] => ['[', ']']
  | .array (v :: vs) =>
    '[' :: (newLine (depth + 1) ++ print (depth + 1) v ++ printElements (depth + 1) vs ++
      newLine depth ++ [']'])
  | .object [] => ['\x7b', '\x7d']
  | .object ((k, v) :: fs) =>
    '\x7b' :: (newLine (depth + 1) ++ quoted k ++ [':', ' '] ++ print (depth + 1) v ++
      printFields (depth + 1) fs ++ newLine depth ++ ['\x7d'])

/-- The elements of an array after the first one. -/
def printElements (depth : Nat) : List Value → List Char
  | [] => []
  | v :: vs => ',' :: (newLine depth ++ print depth v ++ printElements depth vs)

/-- The fields of an object after the first one. -/
def printFields (depth : Nat) : List (String × Value) → List Char
  | [] => []
  | (k, v) :: fs =>
    ',' :: (newLine depth ++ quoted k ++ [':', ' '] ++ print depth v ++ printFields depth fs)

end

/-- The text of a value. -/
def text (v : Value) : String := String.ofList (print 0 v)

end Value

end Shaping.Json
