import Shaping.Binary64

/-!
# The shortest numeral that reads back

A binary number has infinitely many decimal numerals that are read as it.  `Binary64.shortest` finds
the one with the fewest digits, and of those the nearest to the number.

The numerals with `n` digits are a grid: the multiples of some power of ten.  If any point of the grid
is read as the number then one of the two grid points next to it is, because the numerals read as the
number form an interval around it.  So only these two are tried, for `n = 1, 2, …` up to 17 digits,
which are always enough.
-/

set_option autoImplicit false

namespace Shaping.Binary64

/-- A decimal numeral: `digits * 10 ^ scale`. -/
structure Numeral where
  digits : Nat
  scale : Int
  deriving DecidableEq

/-- A numeral without up to so many zeros at its end. -/
def Numeral.dropZeros (n : Numeral) : Nat → Numeral
  | 0 => n
  | count + 1 =>
    if n.digits % 10 = 0 then Numeral.dropZeros ⟨n.digits / 10, n.scale + 1⟩ count else n

/-- A number in units of `10 ^ scale`, as a quotient. -/
def inPowersOfTen (x : Binary64) (scale : Int) : Nat × Nat :=
  (x.num * Nat.pow 10 (-scale).toNat, x.den * Nat.pow 10 scale.toNat)

/-- The power of ten that the first digit of a number other than zero stands for.  The logarithm to
base two gives it up to one, and a comparison decides. -/
def leadingPower (x : Binary64) : Int :=
  let guess : Int := ((x.num.log2 : Int) - x.den.log2 - 1) * 30103 / 100000
  let reaches (p : Int) : Bool := let u := x.inPowersOfTen p; u.2 ≤ u.1
  if reaches (guess + 2) then guess + 2
  else if reaches (guess + 1) then guess + 1
  else if reaches guess then guess
  else guess - 1

/-- Is the numeral read as the number? -/
def readsAs (x : Binary64) (n : Numeral) : Bool :=
  match ofDecimal? n.digits n.scale with
  | some y => y.num * x.den == x.num * y.den
  | none => false

/-- The numeral with so many digits that is read as the number, if there is one. -/
def withDigits? (x : Binary64) (count : Nat) : Option Numeral :=
  let scale := x.leadingPower - (count - 1 : Nat)
  let u := x.inPowersOfTen scale
  let below : Numeral := ⟨u.1 / u.2, scale⟩
  let above : Numeral := ⟨u.1 / u.2 + 1, scale⟩
  match x.readsAs below, x.readsAs above with
  | true, false => some below
  | false, true => some above
  | true, true => some ⟨roundDiv u.1 u.2, scale⟩
  | false, false => none

/-- The shortest numeral that is read as the number. -/
def shortest (x : Binary64) : Numeral :=
  if x.mantissa = 0 then ⟨0, 0⟩
  else
    match (List.range 17).findSome? fun n => x.withDigits? (n + 1) with
    | some n => n.dropZeros 17
    | none => ⟨0, 0⟩

end Shaping.Binary64
