import Shaping.Binary64
import Mathlib.Algebra.Order.Field.Power
import Mathlib.Algebra.Order.Field.Rat
import Mathlib.Tactic.FieldSimp
import Mathlib.Tactic.Linarith
import Mathlib.Tactic.Positivity
import Mathlib.Tactic.Ring

/-!
# What rounding does

`Binary64.nearest` works on quotients of natural numbers.  Here is what it says about rational numbers:
`Rounded q x` tells that `x` is `q` in units of a power of two, rounded to a whole number of them with
halves going to the even one, and that the power of two is such that `q` has 53 digits in these units, or
fewer if the power is the lowest there is.

Everything else about rounding is read off from `Rounded`: how far a number is from what it is rounded to
(`Rounded.error_le`), that powers of two are not overstepped (`Rounded.value_le`), and at which point the
rounded number reaches a given whole one (`Rounded.le_value_iff`).  That point is half way from the binary
number before it, and `Reaches` spells it out in terms of the whole number alone.

## How it is said

* **Rounding by what it reaches.**  That halves go to the even number could be said by cases on the
  remainder, as the program does it.  It is said instead by when the result is `k` or more
  (`le_roundDiv_iff`), since that is one inequality for each `k`, and whoever asks for the result asks
  whether it reaches something.  The parity of `k` decides between `≤` and `<`, and nothing else about
  halves is ever needed.
* **Units.**  The program guesses the units from two logarithms, which tell the size of a quotient up to a
  factor of four (`log2_bounds`), and corrects the guess once.  After that nobody looks at how the units
  were found: they are right if the quotient has 53 digits in them (`rounded_roundDiv`), and
  `rounded_nearest` is only about this.
* **Whole numbers.**  `Rounded.le_value_iff` does not know in which units a number is rounded, and has to
  compare them with those in which `n` ends a row of 53 digits.  In smaller units the number is too small to
  reach `n`, in larger ones it is beyond `n` anyway, and in the same ones `n` is a whole number of units, so
  that the condition on the mantissa can be used as it is (`Rounded.le_value_iff_of_units`).
-/

set_option autoImplicit false

namespace Shaping

/-- **When a quotient is rounded to `k` or more**: if it is at least `k` less a half, or more than that if
`k` is odd. -/
theorem le_roundDiv_iff {k num den : Nat} (hden : 0 < den) :
    k ≤ roundDiv num den ↔
      if k % 2 = 0 then 2 * (k * den) ≤ 2 * num + den else 2 * (k * den) < 2 * num + den := by
  have hnum := Nat.div_add_mod num den
  have hrem := Nat.mod_lt num hden
  rw [roundDiv]
  generalize num / den = q at *
  generalize num % den = r at *
  rw [← hnum, Nat.mul_comm den q]
  rcases Nat.lt_trichotomy k (q + 1) with hlow | rfl | hhigh
  · have hle : k * den ≤ q * den := Nat.mul_le_mul_right _ (by omega)
    split <;> split <;> omega
  · rw [Nat.add_mul, Nat.one_mul]
    split <;> split <;> omega
  · have hle : (q + 2) * den ≤ k * den := Nat.mul_le_mul_right _ (by omega)
    rw [Nat.add_mul] at hle
    split <;> split <;> omega

theorem roundDiv_bounds {num den : Nat} (hden : 0 < den) :
    2 * (roundDiv num den * den) ≤ 2 * num + den ∧ 2 * num ≤ 2 * (roundDiv num den * den) + den := by
  have hreached := (le_roundDiv_iff hden).mp (Nat.le_refl (roundDiv num den))
  have hmissed := mt (le_roundDiv_iff hden).mpr (Nat.not_succ_le_self (roundDiv num den))
  rw [Nat.succ_mul (roundDiv num den)] at hmissed
  split at hreached <;> split at hmissed <;> omega

namespace Binary64

/-! ## Values

Rational numbers are where the two shifts of the format become one power of two, with a negative exponent or
not. -/

/-- The rational number that a binary number is. -/
def value (x : Binary64) : ℚ := x.num / x.den

theorem two_zpow (e : ℤ) : (2 : ℚ) ^ e = 2 ^ e.toNat / 2 ^ (-e).toNat := by
  rcases Int.le_total 0 e with h | h
  · obtain ⟨n, rfl⟩ := Int.eq_ofNat_of_zero_le h
    simp
  · obtain ⟨n, hn⟩ := Int.eq_ofNat_of_zero_le (Int.neg_nonneg_of_nonpos h)
    obtain rfl : e = -n := by omega
    simp

theorem value_eq (x : Binary64) : x.value = x.mantissa * 2 ^ x.exponent := by
  rw [value, num, den, two_zpow, Nat.shiftLeft_eq, Nat.shiftLeft_eq]
  push_cast
  ring

theorem value_nonneg (x : Binary64) : 0 ≤ x.value := by
  rw [value]
  positivity

theorem den_pos (x : Binary64) : 0 < x.den := by
  rw [den, Nat.one_shiftLeft]
  exact Nat.two_pow_pos _

/-- A number is rounded down by dividing. -/
theorem le_floor_iff {x : Binary64} {n : Nat} : n ≤ x.floor ↔ (n : ℚ) ≤ x.value := by
  have hden : (0 : ℚ) < x.den := by exact_mod_cast x.den_pos
  rw [floor, Nat.le_div_iff_mul_le x.den_pos, value, le_div_iff₀ hden]
  exact_mod_cast Iff.rfl

theorem floor_le (x : Binary64) : (x.floor : ℚ) ≤ x.value := le_floor_iff.mp (Nat.le_refl _)

theorem lt_floor_add_one (x : Binary64) : x.value < x.floor + 1 := by
  have hmissed := mt (@le_floor_iff x (x.floor + 1)).mpr (Nat.not_succ_le_self _)
  push_cast at hmissed
  exact not_le.mp hmissed

theorem floor_eq_of_value {x : Binary64} {n : Nat} (h : x.value = n) : x.floor = n := by
  have hreached : n ≤ x.floor := le_floor_iff.mpr h.ge
  have hmissed : ¬ n + 1 ≤ x.floor := by
    rw [le_floor_iff, h]
    exact_mod_cast Nat.not_succ_le_self n
  omega

/-! ## Units

The program keeps a quotient as a numerator and a denominator and shifts one of them.  Which of the two does
not matter to the rational number (`inUnits_div`). -/

theorem inUnits_snd_pos (num : Nat) {den : Nat} (h : 0 < den) (e : ℤ) : 0 < (inUnits num den e).2 := by
  simp only [inUnits, Nat.shiftLeft_eq]
  exact Nat.mul_pos h (Nat.two_pow_pos _)

/-- A quotient in units of a power of two. -/
theorem inUnits_div (num den : Nat) (e : ℤ) :
    ((inUnits num den e).1 : ℚ) / (inUnits num den e).2 = num / den / 2 ^ e := by
  rw [inUnits, two_zpow, Nat.shiftLeft_eq, Nat.shiftLeft_eq]
  push_cast
  field_simp

/-- Has the quotient no more than so many digits in these units? -/
theorem inUnits_lt_iff (num : Nat) {den : Nat} (h : 0 < den) (e : ℤ) (digits : Nat) :
    (inUnits num den e).1 < (inUnits num den e).2 <<< digits ↔ (num / den : ℚ) < 2 ^ (e + digits) := by
  have hpos : (0 : ℚ) < (inUnits num den e).2 := by exact_mod_cast inUnits_snd_pos num h e
  rw [zpow_add₀ two_ne_zero, ← div_lt_iff₀' (by positivity), ← inUnits_div, div_lt_iff₀' hpos,
    Nat.shiftLeft_eq, zpow_natCast]
  exact_mod_cast Iff.rfl

/-- The logarithms of its parts tell the size of a quotient up to a factor of four. -/
theorem log2_bounds {num den : Nat} (hnum : num ≠ 0) (hden : 0 < den) :
    (2 : ℚ) ^ ((num.log2 : ℤ) - den.log2 - 1) ≤ num / den ∧
      (num / den : ℚ) < 2 ^ ((num.log2 : ℤ) - den.log2 + 1) := by
  have hcast : (0 : ℚ) < den := by exact_mod_cast hden
  have hnum1 : (2 : ℚ) ^ num.log2 ≤ num := by exact_mod_cast Nat.log2_self_le hnum
  have hnum2 : (num : ℚ) < 2 ^ (num.log2 + 1) := by exact_mod_cast Nat.lt_log2_self
  have hden1 : (2 : ℚ) ^ den.log2 ≤ den := by exact_mod_cast Nat.log2_self_le hden.ne'
  have hden2 : (den : ℚ) ≤ 2 ^ (den.log2 + 1) := by exact_mod_cast Nat.lt_log2_self.le
  rw [le_div_iff₀ hcast, div_lt_iff₀ hcast]
  constructor
  · calc (2 : ℚ) ^ ((num.log2 : ℤ) - den.log2 - 1) * den
        ≤ 2 ^ ((num.log2 : ℤ) - den.log2 - 1) * 2 ^ (den.log2 + 1) := by gcongr
      _ = 2 ^ num.log2 := by
          rw [← zpow_natCast, ← zpow_natCast, ← zpow_add₀ two_ne_zero]
          congr 1
          push_cast
          ring
      _ ≤ num := hnum1
  · calc (num : ℚ) < 2 ^ (num.log2 + 1) := hnum2
      _ = 2 ^ ((num.log2 : ℤ) - den.log2 + 1) * 2 ^ den.log2 := by
          rw [← zpow_natCast, ← zpow_natCast, ← zpow_add₀ two_ne_zero]
          congr 1
          push_cast
          ring
      _ ≤ 2 ^ ((num.log2 : ℤ) - den.log2 + 1) * den := by gcongr

/-! ## Rounding

`Rounded` has no field that speaks of a numerator or of a denominator.  It is what is left of the program. -/

/-- `x` is `q` rounded to a whole number of units. -/
structure Rounded (q : ℚ) (x : Binary64) : Prop where
  /-- Halves go to the even number. -/
  le_mantissa_iff : ∀ k : Nat, k ≤ x.mantissa ↔
    if k % 2 = 0 then 2 * (k : ℚ) ≤ 2 * (q / 2 ^ x.exponent) + 1
    else 2 * (k : ℚ) < 2 * (q / 2 ^ x.exponent) + 1
  minExponent_le : minExponent ≤ x.exponent
  /-- There are at most 53 digits. -/
  lt : q < 2 ^ (x.exponent + 53)
  /-- There are no fewer, unless the units are the smallest. -/
  le : x.exponent = minExponent ∨ 2 ^ (x.exponent + 52) ≤ q

/-- Rounding in given units. -/
theorem rounded_roundDiv {num den : Nat} (hden : 0 < den) {e : ℤ} (hmin : minExponent ≤ e)
    (hlt : (num / den : ℚ) < 2 ^ (e + 53)) (hle : e = minExponent ∨ 2 ^ (e + 52) ≤ (num / den : ℚ)) :
    Rounded (num / den) ⟨roundDiv (inUnits num den e).1 (inUnits num den e).2, e⟩ where
  le_mantissa_iff k := by
    have hpos := inUnits_snd_pos num hden e
    have hcast : (0 : ℚ) < (inUnits num den e).2 := by exact_mod_cast hpos
    dsimp only
    rw [le_roundDiv_iff hpos, ← inUnits_div]
    generalize (inUnits num den e).1 = a at *
    generalize (inUnits num den e).2 = b at *
    have hsum : 2 * (a / b : ℚ) + 1 = (2 * a + b) / b := by field_simp
    rw [hsum, le_div_iff₀ hcast, lt_div_iff₀ hcast, mul_assoc]
    split <;> exact_mod_cast Iff.rfl
  minExponent_le := hmin
  lt := hlt
  le := hle

/-- **Rounding to the nearest number does so in the right units.** -/
theorem rounded_nearest (num : Nat) {den : Nat} (hden : 0 < den) :
    Rounded (num / den) (nearest num den) := by
  rw [nearest]
  split
  · rename_i hzero
    rw [hzero]
    refine ⟨fun k => ?_, Int.le_refl _, ?_, Or.inl rfl⟩
    · rw [zero, Nat.cast_zero, zero_div, zero_div, mul_zero, zero_add, Nat.le_zero]
      split
      · have hiff : 2 * (k : ℚ) ≤ 1 ↔ 2 * k ≤ 1 := by exact_mod_cast Iff.rfl
        rw [hiff]
        omega
      · have hiff : 2 * (k : ℚ) < 1 ↔ 2 * k < 1 := by exact_mod_cast Iff.rfl
        rw [hiff]
        omega
    · rw [Nat.cast_zero, zero_div]
      positivity
  · rename_i hnum
    obtain ⟨hlow, hhigh⟩ := log2_bounds hnum hden
    dsimp only
    generalize (num.log2 : ℤ) - den.log2 = l at hlow hhigh ⊢
    generalize he : max minExponent (l - 53) = e
    have hmin : minExponent ≤ e := by omega
    split
    · rename_i hfine
      refine rounded_roundDiv hden hmin ((inUnits_lt_iff num hden e 53).mp hfine) ?_
      rcases max_choice minExponent (l - 53) with hmax | hmax
      · exact Or.inl (by omega)
      · right
        rwa [show e + 52 = l - 1 by omega]
    · rename_i hfine
      have hlarge : (2 : ℚ) ^ (e + 53) ≤ num / den :=
        not_lt.mp fun h => hfine ((inUnits_lt_iff num hden e 53).mpr h)
      refine rounded_roundDiv hden (by omega) ?_ (Or.inr ?_)
      · refine lt_of_lt_of_le hhigh (zpow_le_zpow_right₀ one_le_two ?_)
        omega
      · rwa [show e + 1 + 52 = e + 53 by ring]

namespace Rounded

variable {q : ℚ} {x : Binary64}

/-- The mantissa is within a half of the number in the units of the result. -/
theorem mantissa_bounds (h : Rounded q x) :
    2 * (x.mantissa : ℚ) ≤ 2 * (q / 2 ^ x.exponent) + 1 ∧
      2 * (q / 2 ^ x.exponent) ≤ 2 * (x.mantissa : ℚ) + 1 := by
  have hreached := (h.le_mantissa_iff x.mantissa).mp (Nat.le_refl _)
  have hmissed := mt (h.le_mantissa_iff (x.mantissa + 1)).mpr (Nat.not_succ_le_self _)
  push_cast at hmissed
  constructor
  · split at hreached <;> linarith
  · split at hmissed <;> linarith

/-- **A number is rounded by at most half a unit.** -/
theorem error_le (h : Rounded q x) : |x.value - q| ≤ 2 ^ x.exponent / 2 := by
  have hunit : (0 : ℚ) < 2 ^ x.exponent := by positivity
  obtain ⟨hupper, hlower⟩ := h.mantissa_bounds
  have hmantissa : |(x.mantissa : ℚ) - q / 2 ^ x.exponent| ≤ 1 / 2 := by
    rw [abs_le]
    constructor <;> linarith
  calc |x.value - q| = |(x.mantissa : ℚ) - q / 2 ^ x.exponent| * 2 ^ x.exponent := by
        rw [x.value_eq, ← abs_of_pos hunit, ← abs_mul, abs_of_pos hunit, sub_mul,
          div_mul_cancel₀ q hunit.ne']
    _ ≤ 1 / 2 * 2 ^ x.exponent := by gcongr
    _ = 2 ^ x.exponent / 2 := by ring

/-- A number of 53 digits is rounded by at most the `2 ^ 53`-th part of it. -/
theorem relative_error_le (h : Rounded q x) (hq : 2 ^ (minExponent + 52) ≤ q) :
    |x.value - q| ≤ q / 2 ^ 53 := by
  have hdigits : (2 : ℚ) ^ (x.exponent + 52) ≤ q := by
    rcases h.le with hmin | hle
    · rwa [hmin]
    · exact hle
  calc |x.value - q| ≤ 2 ^ x.exponent / 2 := h.error_le
    _ = 2 ^ (x.exponent + 52) / 2 ^ 53 := by rw [zpow_add₀ two_ne_zero]; norm_num; ring
    _ ≤ q / 2 ^ 53 := by gcongr

/-- The same of a number that is not extremely small. -/
theorem near (h : Rounded q x) (hq : 1 / 2 ^ 30 ≤ q) : |x.value - q| ≤ q / 2 ^ 53 := by
  refine h.relative_error_le (le_trans ?_ hq)
  calc (2 : ℚ) ^ (minExponent + 52) ≤ 2 ^ (-30 : ℤ) := zpow_le_zpow_right₀ one_le_two (by decide)
    _ = 1 / 2 ^ 30 := by norm_num

/-- The error in other units. -/
theorem near_mul (h : Rounded q x) (hq : 1 / 2 ^ 30 ≤ q) {unit : ℚ} (hunit : 0 ≤ unit) :
    |x.value * unit - q * unit| ≤ q * unit / 2 ^ 53 :=
  calc |x.value * unit - q * unit| = |x.value - q| * unit := by
        rw [← sub_mul, abs_mul, abs_of_nonneg hunit]
    _ ≤ q / 2 ^ 53 * unit := by
        gcongr
        exact h.near hq
    _ = q * unit / 2 ^ 53 := div_mul_eq_mul_div _ _ _

/-- Rounding does not fall below a number that has 53 digits. -/
theorem two_zpow_le (h : Rounded q x) (hq : 2 ^ (x.exponent + 52) ≤ q) :
    2 ^ (x.exponent + 52) ≤ x.value := by
  have hunit : (0 : ℚ) < 2 ^ x.exponent := by positivity
  have hunits : (2 : ℚ) ^ (x.exponent + 52) = 2 ^ 52 * 2 ^ x.exponent := by
    rw [zpow_add₀ two_ne_zero, mul_comm]
    norm_num
  rw [hunits, ← le_div_iff₀ hunit] at hq
  have hmantissa : 2 ^ 52 ≤ x.mantissa := by
    rw [h.le_mantissa_iff, if_pos (by decide)]
    push_cast
    linarith
  rw [hunits, x.value_eq]
  gcongr
  exact_mod_cast hmantissa

theorem mantissa_le (h : Rounded q x) : x.mantissa ≤ 2 ^ 53 := by
  have hunit : (0 : ℚ) < 2 ^ x.exponent := by positivity
  have hlt : q / 2 ^ x.exponent < 2 ^ 53 := by
    rw [div_lt_iff₀ hunit, mul_comm]
    calc q < 2 ^ (x.exponent + 53) := h.lt
      _ = 2 ^ x.exponent * 2 ^ 53 := by rw [zpow_add₀ two_ne_zero]; norm_num
  have hmissed : ¬ 2 ^ 53 + 1 ≤ x.mantissa := by
    rw [h.le_mantissa_iff, if_neg (by decide), not_lt]
    push_cast
    linarith
  omega

theorem value_le_units (h : Rounded q x) : x.value ≤ 2 ^ (x.exponent + 53) := by
  have hmantissa : (x.mantissa : ℚ) ≤ 2 ^ 53 := by exact_mod_cast h.mantissa_le
  calc x.value = x.mantissa * 2 ^ x.exponent := x.value_eq
    _ ≤ 2 ^ 53 * 2 ^ x.exponent := by gcongr
    _ = 2 ^ (x.exponent + 53) := by rw [zpow_add₀ two_ne_zero, mul_comm]; norm_num

/-- The units are not larger than 53 digits ask for. -/
theorem exponent_le (h : Rounded q x) {k : ℤ} (hk : minExponent ≤ k) (hq : q < 2 ^ (k + 53)) :
    x.exponent ≤ k := by
  rcases h.le with hmin | hle
  · rwa [hmin]
  · have := (zpow_lt_zpow_iff_right₀ one_lt_two).mp (lt_of_le_of_lt hle hq)
    omega

/-- **No power of two is overstepped.** -/
theorem value_le (h : Rounded q x) {k : ℤ} (hk : minExponent ≤ k) (hq : q < 2 ^ (k + 53)) :
    x.value ≤ 2 ^ (k + 53) :=
  le_trans h.value_le_units
    (zpow_le_zpow_right₀ one_le_two (add_le_add_left (h.exponent_le hk hq) 53))

/-- **A number of 53 digits** is not changed. -/
theorem value_eq_of_digits (h : Rounded q x) {m : Nat} {k : ℤ} (hm : m < 2 ^ 53) (hk : minExponent ≤ k)
    (hq : q = m * 2 ^ k) : x.value = q := by
  have hunit : (0 : ℚ) < 2 ^ x.exponent := by positivity
  have hlt : q < 2 ^ (k + 53) := by
    rw [hq, zpow_add₀ two_ne_zero, mul_comm]
    gcongr
    exact_mod_cast hm
  -- the units divide those in which the number is given
  obtain ⟨d, hd⟩ := Int.eq_ofNat_of_zero_le (sub_nonneg.mpr (h.exponent_le hk hlt))
  have hunits : q = (m * 2 ^ d : Nat) * 2 ^ x.exponent := by
    rw [hq, show k = d + x.exponent by omega, zpow_add₀ two_ne_zero, zpow_natCast]
    push_cast
    ring
  obtain ⟨hupper, hlower⟩ := h.mantissa_bounds
  rw [hunits, mul_div_cancel_right₀ _ hunit.ne'] at hupper hlower
  have hle : 2 * x.mantissa ≤ 2 * (m * 2 ^ d) + 1 := by exact_mod_cast hupper
  have hge : 2 * (m * 2 ^ d) ≤ 2 * x.mantissa + 1 := by exact_mod_cast hlower
  rw [x.value_eq, hunits, show x.mantissa = m * 2 ^ d by omega]

end Rounded

/-! ## Reaching a whole number

The binary number before `n` is nearer to it than the one after it if `n` is a power of two, and that is why
`halfStep` takes the logarithm of `2 * n - 1` and not of `n`: it is about the units below `n`. -/

/-- Half of the distance from a whole number down to the binary number before it. -/
def halfStep (n : Nat) : ℚ := 2 ^ (2 * n - 1).log2 / 2 ^ 54

/-- The number is not below the middle between `n` and the binary number before it, or above that middle if
`n` has an odd mantissa, which only large numbers have. -/
def Reaches (n : Nat) (q : ℚ) : Prop :=
  if n < 2 ^ 52 ∨ n % 2 = 0 then n - halfStep n ≤ q else n - halfStep n < q

theorem halfStep_pos (n : Nat) : 0 < halfStep n := by
  rw [halfStep]
  positivity

theorem reaches_of_le {n : Nat} {q : ℚ} (h : n ≤ q) : Reaches n q := by
  have hpos := halfStep_pos n
  rw [Reaches]
  split <;> linarith

/-- How a whole number lies between powers of two. -/
theorem log2_pred_bounds {n : Nat} (hn : 0 < n) (hmax : n ≤ 2 ^ 53) :
    2 ^ (2 * n - 1).log2 + 1 ≤ 2 * n ∧ n ≤ 2 ^ (2 * n - 1).log2 ∧ (2 * n - 1).log2 ≤ 53 := by
  have hne : 2 * n - 1 ≠ 0 := by omega
  have hlow := Nat.log2_self_le hne
  have hhigh := Nat.lt_log2_self (n := 2 * n - 1)
  refine ⟨by omega, ?_, ?_⟩
  · rw [Nat.pow_succ] at hhigh
    omega
  · have := (Nat.log2_lt hne).mpr (show 2 * n - 1 < 2 ^ 54 by omega)
    omega

/-- In units in which `n` is a whole number it is known what is rounded to it. -/
theorem Rounded.le_value_iff_of_units {q : ℚ} {x : Binary64} (h : Rounded q x) {n l : Nat} (hlog : l ≤ 53)
    (hlow : 2 ^ l < 2 * n) (hhigh : n ≤ 2 ^ l) (hunits : x.exponent + 53 = l) :
    (n : ℚ) ≤ x.value ↔
      if n < 2 ^ 52 ∨ n % 2 = 0 then n - 2 ^ l / 2 ^ 54 ≤ q else n - 2 ^ l / 2 ^ 54 < q := by
  have hunit : (2 : ℚ) ^ x.exponent = 2 ^ l / 2 ^ 53 := by
    rw [show x.exponent = l - 53 by omega, zpow_sub₀ two_ne_zero]
    norm_num
  have hpos : (0 : ℚ) < 2 ^ l / 2 ^ 53 := by positivity
  have hwhole : (n : ℚ) = (n * 2 ^ (53 - l) : Nat) * (2 ^ l / 2 ^ 53) := by
    rw [← Nat.sub_add_cancel hlog, pow_add, Nat.add_sub_cancel]
    push_cast
    field_simp
  have heven : (n * 2 ^ (53 - l)) % 2 = 0 ↔ n < 2 ^ 52 ∨ n % 2 = 0 := by
    rcases Nat.eq_or_lt_of_le hlog with rfl | hlt
    · rw [Nat.sub_self, Nat.pow_zero, Nat.mul_one]
      omega
    · have hle : 2 ^ l ≤ 2 ^ 52 := Nat.pow_le_pow_right (by decide) (by omega)
      obtain ⟨d, hd⟩ := Nat.exists_eq_add_of_lt hlt
      rw [show 53 - l = d + 1 by omega, Nat.pow_succ, ← Nat.mul_assoc, Nat.mul_mod_left]
      omega
  have hiff := h.le_mantissa_iff (n * 2 ^ (53 - l))
  rw [if_congr heven rfl rfl, hunit] at hiff
  have hreach : (n : ℚ) ≤ x.value ↔ n * 2 ^ (53 - l) ≤ x.mantissa := by
    rw [x.value_eq, hunit, hwhole, mul_le_mul_iff_left₀ hpos]
    exact Nat.cast_le
  have hmiddle : (n : ℚ) - 2 ^ l / 2 ^ 54
      = ((n * 2 ^ (53 - l) : Nat) - 1 / 2) * (2 ^ l / 2 ^ 53) := by
    rw [sub_mul, ← hwhole]
    ring
  rw [hreach, hiff, hmiddle, ← le_div_iff₀ hpos, ← lt_div_iff₀ hpos]
  generalize q / (2 ^ l / 2 ^ 53) = t
  split <;> constructor <;> intro <;> linarith

/-- **When a rounded number reaches a whole one**: if the number itself is at least half way there from
the binary number before. -/
theorem Rounded.le_value_iff {q : ℚ} {x : Binary64} (h : Rounded q x) {n : Nat} (hn : 0 < n)
    (hmax : n ≤ 2 ^ 53) : (n : ℚ) ≤ x.value ↔ Reaches n q := by
  obtain ⟨hlow, hhigh, hlog⟩ := log2_pred_bounds hn hmax
  have hstep : halfStep n = 2 ^ (2 * n - 1).log2 / 2 ^ 54 := rfl
  generalize (2 * n - 1).log2 = l at hlow hhigh hlog hstep
  have hlow' : (2 : ℚ) ^ l + 1 ≤ 2 * n := by exact_mod_cast hlow
  have hhigh' : (n : ℚ) ≤ 2 ^ l := by exact_mod_cast hhigh
  rcases lt_trichotomy (x.exponent + 53) l with hless | hunits | hmore
  · -- the number is too small by more than a unit
    have hpower : (2 : ℚ) ^ (x.exponent + 53) ≤ 2 ^ l / 2 := by
      rw [← zpow_natCast (2 : ℚ) l, div_eq_mul_inv, ← zpow_sub_one₀ two_ne_zero]
      exact zpow_le_zpow_right₀ one_le_two (by omega)
    have hsmall : halfStep n ≤ 1 / 2 := by
      have : (2 : ℚ) ^ l ≤ 2 ^ 53 := pow_le_pow_right₀ one_le_two hlog
      rw [hstep]
      linarith
    have hvalue := h.value_le_units
    have hlt := h.lt
    refine iff_of_false (by linarith) ?_
    rw [Reaches]
    split <;> linarith
  · rw [h.le_value_iff_of_units hlog hlow hhigh hunits, Reaches, hstep]
  · -- the number is at least as large
    have hpower : (2 : ℚ) ^ l ≤ 2 ^ (x.exponent + 52) := by
      rw [← zpow_natCast]
      exact zpow_le_zpow_right₀ one_le_two (by omega)
    have hnormal : x.exponent ≠ minExponent := by
      rw [minExponent]
      omega
    have hq := h.le.resolve_left hnormal
    refine iff_of_true ?_ (reaches_of_le ?_)
    · exact le_trans hhigh' (le_trans hpower (h.two_zpow_le hq))
    · exact le_trans hhigh' (le_trans hpower hq)

end Binary64

end Shaping
