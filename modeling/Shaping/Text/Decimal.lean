/-!
# Decimal numerals

Readers of unsigned decimal numerals of the digits `0` to `9`.  `Decimal.ofDigits?` reads a text that
is nothing but digits, and `Decimal.wordOfText?` one that may have a plus sign in front and has to fit
into a number of bits.

Digits here are the ASCII ones.  Digits of other scripts are not part of a numeral.
-/

set_option autoImplicit false

namespace Shaping.Decimal

/-- Is the character a digit? -/
def isDigit (c : Char) : Bool := '0' ≤ c && c ≤ '9'

/-- The value of a digit. -/
def digitValue (c : Char) : Nat := c.toNat - '0'.toNat

/-- The number that a run of digits writes. -/
def valueOf (cs : List Char) : Nat := cs.foldl (fun n c => n * 10 + digitValue c) 0

/-- The number that a text of digits writes.  There has to be at least one. -/
def ofDigits? (cs : List Char) : Option Nat :=
  if cs.isEmpty then none
  else if cs.all isDigit then some (valueOf cs)
  else none

/-- The number below `2 ^ bits` that a text writes, maybe with a plus sign. -/
def ofText? (bits : Nat) (cs : List Char) : Option Nat :=
  let digits := match cs with
    | '+' :: rest => rest
    | _ => cs
  (ofDigits? digits).filter (· >>> bits == 0)

/-- The word that a text writes. -/
def wordOfText? (cs : List Char) : Option UInt64 := (ofText? 64 cs).map UInt64.ofNat

/-- A numeral may go on with further digits on its right. -/
theorem valueOf_append (cs ds : List Char) :
    valueOf (cs ++ ds) = valueOf cs * Nat.pow 10 ds.length + valueOf ds := by
  have gen : ∀ (ds : List Char) (n : Nat),
      ds.foldl (fun n c => n * 10 + digitValue c) n = n * Nat.pow 10 ds.length + valueOf ds := by
    intro ds
    induction ds with
    | nil => intro n; simp [valueOf]
    | cons d ds ih =>
      intro n
      have hd : valueOf (d :: ds) = digitValue d * Nat.pow 10 ds.length + valueOf ds := by
        have := ih (0 * 10 + digitValue d)
        simpa [valueOf] using this
      have power : Nat.pow 10 (ds.length + 1) = Nat.pow 10 ds.length * 10 := rfl
      rw [List.foldl_cons, ih, hd, List.length_cons, power, Nat.add_mul, Nat.mul_assoc,
        Nat.mul_comm 10, Nat.add_assoc]
  rw [valueOf, List.foldl_append, gen]
  rfl

end Shaping.Decimal
