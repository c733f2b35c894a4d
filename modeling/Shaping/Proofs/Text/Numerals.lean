import Shaping.Text.Decimal
import Mathlib.Tactic.IntervalCases

/-!
# Numerals

A number is written with as many digits as it needs and at least one, so that no zero stands in front of
another digit (`Numeral`).  What is read back by multiplying and adding is the number again, and how many
digits there are can be told from the number.

`Nat.toDigits` makes characters at once, and what is to be read back is a list of digits.  So `Numeral`
keeps the digits and says that the text is made of them, and `exists_numeral` is proved by taking the last
digit off, which is how `Nat.toDigits` goes.  The one thing that is not seen from the last digit is that no
zero stands in front.  It is carried along the induction, as what is in front of the last digit is the
numeral of a number that is not zero.
-/

set_option autoImplicit false

namespace Shaping

/-- The digits of a number to a base, in the order in which they are written. -/
structure Numeral (b n : Nat) (ds : List Nat) : Prop where
  text : Nat.toDigits b n = ds.map Nat.digitChar
  lt : ∀ d ∈ ds, d < b
  value : ds.foldl (fun m d => m * b + d) 0 = n
  ne_nil : ds ≠ []
  /-- Only zero has a zero in front. -/
  leading : ∀ more, ds = 0 :: more → more = []

/-- **Every number has a numeral.** -/
theorem exists_numeral {b : Nat} (hb : 1 < b) (n : Nat) : ∃ ds, Numeral b n ds := by
  induction n using Nat.strongRecOn with
  | ind n ih =>
    by_cases hlt : n < b
    · exact ⟨[n], by simp [Nat.toDigits_eq_if hb, hlt], by simpa using hlt, by simp, by simp, by simp⟩
    · obtain ⟨ds, hds⟩ := ih (n / b) (Nat.div_lt_self (by omega) hb)
      refine ⟨ds ++ [n % b], by simp [Nat.toDigits_eq_if hb (n := n), hlt, hds.text], ?_, ?_, by simp,
        fun more hmore => ?_⟩
      · have hlast := Nat.mod_lt n (Nat.lt_of_succ_lt hb)
        simpa [or_imp, forall_and] using ⟨hds.lt, hlast⟩
      · rw [List.foldl_append, hds.value, List.foldl_cons, List.foldl_nil, Nat.div_add_mod']
      · -- the number is not less than the base, so what is in front of the last digit is not zero
        obtain ⟨d, ds, rfl⟩ := List.exists_cons_of_ne_nil hds.ne_nil
        rw [List.cons_append, List.cons.injEq] at hmore
        obtain ⟨rfl, -⟩ := hmore
        have hzero := hds.value
        rw [hds.leading ds rfl, List.foldl_cons, List.foldl_nil, Nat.zero_mul, Nat.zero_add] at hzero
        exact absurd (Nat.div_eq_zero_iff.mp hzero.symm) (by omega)

namespace Numeral

variable {b n : Nat} {ds : List Nat}

/-- There are no more digits than it takes. -/
theorem length_le (h : Numeral b n ds) (hb : 1 < b) {k : Nat} (hk : 0 < k) (hn : n < b ^ k) :
    ds.length ≤ k := by
  rw [← List.length_map Nat.digitChar, ← h.text]
  exact (Nat.length_toDigits_le_iff hb hk).mpr hn

end Numeral

/-! ## Decimal digits

What is left are statements about ten characters, and they are proved by looking at each. -/

theorem isDigit_digitChar {d : Nat} (h : d < 10) : Decimal.isDigit d.digitChar = true := by
  interval_cases d <;> rfl

theorem digitValue_digitChar {d : Nat} (h : d < 10) : Decimal.digitValue d.digitChar = d := by
  interval_cases d <;> rfl

/-- A number with a digit in front has no sign. -/
theorem ofText?_cons {d : Char} (hd : Decimal.isDigit d) (bits : Nat) (cs : List Char) :
    Decimal.ofText? bits (d :: cs) = (Decimal.ofDigits? (d :: cs)).filter (· >>> bits == 0) := by
  unfold Decimal.ofText?
  split
  · rename_i heq
    obtain rfl : d = '+' := (List.cons.inj heq).1
    exact absurd hd (by decide)
  · rfl

/-- A decimal numeral has digits only. -/
theorem isDigit_toDigits (n : Nat) : ∀ c ∈ Nat.toDigits 10 n, Decimal.isDigit c := by
  intro c hc
  have h := Nat.isDigit_of_mem_toDigits (by decide) (by decide) hc
  rw [Char.isDigit, Bool.and_eq_true, decide_eq_true_iff, decide_eq_true_iff] at h
  rw [Decimal.isDigit, Bool.and_eq_true, decide_eq_true_iff, decide_eq_true_iff]
  exact h

/-- **A decimal numeral is read back.** -/
theorem valueOf_toDigits (n : Nat) : Decimal.valueOf (Nat.toDigits 10 n) = n := by
  simpa only [Decimal.valueOf, Decimal.digitValue, Nat.ofDigitChars, Nat.mul_comm 10] using
    @Nat.ofDigitChars_ten_toDigits n

end Shaping
