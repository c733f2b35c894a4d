import Shaping.Address

/-!
# The text of an address

IPv4 addresses are written as four decimal numbers with points between them.  A number has no leading
zero, since some readers take one for octal.

IPv6 addresses are written as eight groups of up to four hexadecimal digits with colons between them.
Reading accepts the usual freedoms: leading zeros and letters of either case in a group, one `::` that
stands for one or more groups of zeros, and the last two groups as an IPv4 address.  Writing has one
form only: small letters, no leading zeros, `::` for the longest run of two or more zero groups (the
first of the longest), and the IPv4 form of the last two groups exactly for mapped addresses.

A reader takes characters off the front of a text and gives back what it read and the rest of the
text; only the topmost functions, which end in `ofText?`, ask for the rest to be empty.
-/

set_option autoImplicit false

namespace Shaping

/-! ## Reading -/

namespace Address.Reader

/-- The value of a digit of either case, below the given radix. -/
def digit? (radix : Nat) (c : Char) : Option Nat :=
  let value :=
    if '0' ≤ c ∧ c ≤ '9' then some (c.toNat - '0'.toNat)
    else if 'a' ≤ c ∧ c ≤ 'f' then some (c.toNat - 'a'.toNat + 10)
    else if 'A' ≤ c ∧ c ≤ 'F' then some (c.toNat - 'A'.toNat + 10)
    else none
  value.filter (· < radix)

/-- The values of the digits at the front of a text, and the rest. -/
def digits (radix : Nat) : List Char → List Nat × List Char
  | [] => ([], [])
  | c :: rest =>
    match digit? radix c with
    | none => ([], c :: rest)
    | some d => ((d :: (digits radix rest).1), (digits radix rest).2)

/-- The number written by a list of digits. -/
def valueOf (radix : Nat) (ds : List Nat) : Nat := ds.foldl (fun n d => n * radix + d) 0

/-- One of the four numbers of an IPv4 address. -/
def octet? (cs : List Char) : Option (Nat × List Char) :=
  match digits 10 cs with
  | ([], _) => none
  | (0 :: _ :: _, _) => none
  | (ds, rest) =>
    if ds.length ≤ 3 ∧ valueOf 10 ds < 256 then some (valueOf 10 ds, rest) else none

/-- One group of an IPv6 address. -/
def group? (cs : List Char) : Option (Nat × List Char) :=
  match digits 16 cs with
  | ([], _) => none
  | (ds, rest) => if ds.length ≤ 4 then some (valueOf 16 ds, rest) else none

/-- The rest of a text after one given character. -/
def skip? (mark : Char) : List Char → Option (List Char)
  | c :: rest => if c = mark then some rest else none
  | [] => none

/-- The four numbers of an IPv4 address. -/
def v4? (cs : List Char) : Option (BitVec 32 × List Char) := do
  let (a, cs) ← octet? cs
  let (b, cs) ← octet? (← skip? '.' cs)
  let (c, cs) ← octet? (← skip? '.' cs)
  let (d, cs) ← octet? (← skip? '.' cs)
  some (BitVec.ofNat 32 (((a * 256 + b) * 256 + c) * 256 + d), cs)

/-- Up to so many groups with colons between them, the first of which needs a colon in front of it
unless it is the `first` one of all.  Two groups may be given as an IPv4 address, which ends the list;
whether it did is the second answer. -/
def groups (first : Bool) (cs : List Char) : Nat → List Nat × Bool × List Char
  | 0 => ([], false, cs)
  | n + 1 =>
    match if first then some cs else skip? ':' cs with
    | none => ([], false, cs)
    | some after =>
      match if n = 0 then none else v4? after with
      | some (bits, rest) => ([bits.toNat / 65536, bits.toNat % 65536], true, rest)
      | none =>
        match group? after with
        | none => ([], false, cs)
        | some (g, rest) =>
          match groups false rest n with
          | (gs, quad, rest) => (g :: gs, quad, rest)

/-- The address with the given eight groups. -/
def ofGroups (gs : List Nat) : BitVec 128 := BitVec.ofNat 128 (valueOf 65536 gs)

/-- An IPv6 address: eight groups, or fewer with one `::` between those before it and those after it.
The IPv4 form may only come last. -/
def v6? (cs : List Char) : Option (BitVec 128 × List Char) :=
  match groups true cs 8 with
  | (before, quad, cs) =>
    if before.length = 8 then some (ofGroups before, cs)
    else if quad then none
    else do
      let cs ← skip? ':' (← skip? ':' cs)
      let (behind, _, cs) := groups true cs (7 - before.length)
      let gap := List.replicate (8 - before.length - behind.length) 0
      some (ofGroups (before ++ gap ++ behind), cs)

/-- What a reader found, if it read the whole text. -/
def whole? {α : Type} : Option (α × List Char) → Option α
  | some (a, []) => some a
  | _ => none

end Address.Reader

namespace Address

/-- The IPv4 address that a text is. -/
def v4OfText? (s : String) : Option (BitVec 32) := Reader.whole? (Reader.v4? s.toList)

/-- The IPv6 address that a text is. -/
def v6OfText? (s : String) : Option (BitVec 128) := Reader.whole? (Reader.v6? s.toList)

/-- The address of either family that a text is. -/
def ofText? (s : String) : Option Address :=
  match Reader.v4? s.toList with
  | some read => (Reader.whole? (some read)).map .v4
  | none => (v6OfText? s).map .v6

/-! ## Writing -/

/-- The text of an IPv4 address. -/
def v4Text (bits : BitVec 32) : String :=
  let octet (place : Nat) : String := toString ((bits.toNat >>> (8 * place)) % 256)
  s!"{octet 3}.{octet 2}.{octet 1}.{octet 0}"

/-- The eight groups of an IPv6 address. -/
def groupsOf (bits : BitVec 128) : List Nat :=
  [7, 6, 5, 4, 3, 2, 1, 0].map fun place => (bits.toNat >>> (16 * place)) % 65536

/-- A number of hexadecimal digits, without leading zeros. -/
def hexText (n : Nat) : String := String.ofList (Nat.toDigits 16 n)

/-- Groups with colons between them. -/
def groupsText (gs : List Nat) : String := ":".intercalate (gs.map hexText)

/-- The start and the length of the first longest run of zeros in a list whose head has the index
`index`.  The length is zero if there is none. -/
def longestZeros (index : Nat) : List Nat → Nat × Nat
  | [] => (index, 0)
  | g :: gs =>
    let run := ((g :: gs).takeWhile (· == 0)).length
    let later := longestZeros (index + 1) gs
    if later.2 ≤ run ∧ 0 < run then (index, run) else later

/-- The text of an IPv6 address. -/
def v6Text (bits : BitVec 128) : String :=
  match AddressKey.v4? bits with
  | some quad => "::ffff:" ++ v4Text quad
  | none =>
    let gs := groupsOf bits
    let (start, run) := longestZeros 0 gs
    if 1 < run then groupsText (gs.take start) ++ "::" ++ groupsText (gs.drop (start + run))
    else groupsText gs

/-- The text of an address. -/
def text : Address → String
  | .v4 bits => v4Text bits
  | .v6 bits => v6Text bits

end Address

end Shaping
