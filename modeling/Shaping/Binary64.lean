/-!
# Binary numbers of 53 digits

A `Binary64` is a number of the interchange format of that name as far as the library has a use for
it: not negative and not infinite, with a mantissa below `2 ^ 53` and an exponent of at least `-1074`,
so with gradual underflow.  There is no upper bound on the exponent here; whether a number is small
enough for the format is asked by `Binary64.isFinite`.

Everything goes through `Binary64.nearest`, which rounds a quotient of natural numbers to the nearest
number of the format and ties to the one with an even mantissa.  The sum, product or quotient of two
numbers of the format is the rounded exact one, so `add`, `mul` and `div` need no arithmetic of their own, and
all of it is computed in the natural numbers, where it can be reasoned about.
-/

set_option autoImplicit false

namespace Shaping

/-- A quotient rounded to the nearest natural number, and halves to the even one. -/
def roundDiv (num den : Nat) : Nat :=
  let q := num / den
  let r := num % den
  if 2 * r < den ∨ (2 * r = den ∧ q % 2 = 0) then q else q + 1

/-- The number `mantissa * 2 ^ exponent`. -/
structure Binary64 where
  mantissa : Nat
  exponent : Int
  deriving DecidableEq

namespace Binary64

/-- The lowest exponent. -/
def minExponent : Int := -1074

/-- Zero. -/
def zero : Binary64 := ⟨0, minExponent⟩

/-- The numerator of the number as a quotient. -/
def num (x : Binary64) : Nat := x.mantissa <<< x.exponent.toNat

/-- The denominator of the number as a quotient. -/
def den (x : Binary64) : Nat := 1 <<< (-x.exponent).toNat

/-- The quotient of two natural numbers in units of `2 ^ exponent`, itself a quotient. -/
def inUnits (num den : Nat) (exponent : Int) : Nat × Nat :=
  (num <<< (-exponent).toNat, den <<< exponent.toNat)

/-- The number of the format that is nearest to a quotient with a divisor other than zero.  In units of
the first exponent tried, the quotient is between `2 ^ 52` and `2 ^ 54`, unless the exponent had to be
raised to the lowest there is; so it has 53 digits in these units or in the next larger ones. -/
def nearest (num den : Nat) : Binary64 :=
  if num = 0 then zero
  else
    let e : Int := max minExponent ((num.log2 : Int) - den.log2 - 53)
    let fine := inUnits num den e
    if fine.1 < fine.2 <<< 53 then ⟨roundDiv fine.1 fine.2, e⟩
    else
      let coarse := inUnits num den (e + 1)
      ⟨roundDiv coarse.1 coarse.2, e + 1⟩

/-- Is the number below the infinity of the format? -/
def isFinite (x : Binary64) : Bool := x.num < x.den <<< 1024

/-- The number of the format nearest to a natural number. -/
def ofNat (n : Nat) : Binary64 := nearest n 1

/-- The rounded sum. -/
def add (x y : Binary64) : Binary64 := nearest (x.num * y.den + y.num * x.den) (x.den * y.den)

/-- The rounded product. -/
def mul (x y : Binary64) : Binary64 := nearest (x.num * y.num) (x.den * y.den)

/-- The rounded quotient by a number other than zero. -/
def div (x y : Binary64) : Binary64 := nearest (x.num * y.den) (x.den * y.num)

/-- The number rounded down. -/
def floor (x : Binary64) : Nat := x.num / x.den

/-- The number of the format nearest to `digits * 10 ^ scale`, or nothing if that is beyond all
bounds.  The first tests spare the computation of powers whose size alone decides the answer. -/
def ofDecimal? (digits : Nat) (scale : Int) : Option Binary64 :=
  if digits = 0 then some zero
  else if 0 ≤ scale then
    if 1024 ≤ digits.log2 + 3 * scale.toNat then none
    else
      let x := nearest (digits * Nat.pow 10 scale.toNat) 1
      if x.isFinite then some x else none
  else
    let places := (-scale).toNat
    if digits.log2 + 1081 < 3 * places then some zero
    else
      let x := nearest digits (Nat.pow 10 places)
      if x.isFinite then some x else none

/-- The number with one decimal, where halves of a tenth go to the even one. -/
def oneDecimal (x : Binary64) : String :=
  let tenths := roundDiv (10 * x.num) x.den
  s!"{tenths / 10}.{tenths % 10}"

end Binary64

end Shaping
