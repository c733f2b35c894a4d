import Shaping.Proofs.Binary64.Nearest

/-!
# What the operations do

Every operation on binary numbers rounds the exact result of it, so `Rounded` says what each of them does
(`rounded_mul`, `rounded_div`, `rounded_ofNat`).  Whole numbers of up to 53 binary digits need no rounding
(`value_ofNat`), and a decimal is rounded once, unless it is out of all proportion (`ofDecimal?_eq_some`).

Cutting off the fraction of a rounded number gives a whole number if the number before rounding reached that
one and not the next (`Rounded.floor_eq_iff`).

A bound on the error would not have been enough for this.  It tells that rounding and cutting off together
miss by one at most, which is `Rounded.floor_near`, but it cannot tell when they miss: the error is far
smaller than one, and still a number that is just below a whole one may be rounded up to it.  What decides
is on which side of the middle between two binary numbers the exact result is.  So `Rounded.floor_eq_iff`
asks `Rounded.le_value_iff` twice, about the whole number and about the next one, and no bound appears in
it.  It stops below `2 ^ 53` since there the format ceases to have all whole numbers.

The bounds of `ofDecimal?_eq_some` are generous on purpose.  They keep a decimal clear of the two limits at
which the reader gives up before it divides, and the result clear of the largest number there is; nothing
that is read as a rate comes near them.
-/

set_option autoImplicit false

namespace Shaping.Binary64

/-- **What is left of a rounded number without its fraction.** -/
theorem Rounded.floor_eq_iff {q : ℚ} {x : Binary64} (h : Rounded q x) (hq : 0 ≤ q) {n : Nat}
    (hn : n < 2 ^ 53) : x.floor = n ↔ Reaches n q ∧ ¬ Reaches (n + 1) q := by
  have hnext : n + 1 ≤ x.floor ↔ Reaches (n + 1) q :=
    le_floor_iff.trans (h.le_value_iff (Nat.succ_pos n) hn)
  have hreach : n ≤ x.floor ↔ Reaches n q := by
    rcases Nat.eq_zero_or_pos n with rfl | hpos
    · exact iff_of_true (Nat.zero_le _) (reaches_of_le (by exact_mod_cast hq))
    · exact le_floor_iff.trans (h.le_value_iff hpos hn.le)
  rw [← hnext, ← hreach]
  omega

/-- Rounding and cutting off together lead no further than to the next whole number. -/
theorem Rounded.floor_near {q : ℚ} {x : Binary64} (h : Rounded q x) {n : Nat} (hn : n < 2 ^ 53)
    (hq : |q - n| < 1) : n ≤ x.floor + 1 ∧ x.floor ≤ n + 1 := by
  obtain ⟨hlow, hhigh⟩ := abs_lt.mp hq
  have hnext : (n : ℚ) + 1 ≤ 2 ^ 53 := by exact_mod_cast hn
  constructor
  · rcases Nat.lt_or_ge n 2 with hlt | hge
    · omega
    · have hreach : Reaches (n - 1) q := reaches_of_le (by
        rw [Nat.cast_sub (by omega)]
        push_cast
        linarith)
      have := le_floor_iff.mpr ((h.le_value_iff (by omega) (by omega)).mpr hreach)
      omega
  · by_contra hover
    have hvalue : ((n + 2 : Nat) : ℚ) ≤ x.value := le_floor_iff.mp (by omega)
    have herror := (abs_le.mp h.error_le).2
    have hunits : (2 : ℚ) ^ x.exponent ≤ 1 :=
      zpow_le_one_of_nonpos₀ one_le_two (h.exponent_le (k := 0) (by decide) (by norm_num; linarith))
    push_cast at hvalue
    linarith

/-! ## The operations

A product and a quotient of two binary numbers are quotients of natural numbers, so each of them is an
instance of `rounded_nearest`. -/

theorem rounded_ofNat (n : Nat) : Rounded n (ofNat n) := by
  have h := rounded_nearest n Nat.one_pos
  rwa [Nat.cast_one, div_one] at h

/-- **Whole numbers of 53 digits** are numbers of the format. -/
theorem value_ofNat {n : Nat} (hn : n < 2 ^ 53) : (ofNat n).value = n :=
  (rounded_ofNat n).value_eq_of_digits (k := 0) hn (by decide) (by rw [zpow_zero, mul_one])

theorem rounded_mul (x y : Binary64) : Rounded (x.value * y.value) (x.mul y) := by
  rw [value, value, div_mul_div_comm]
  exact_mod_cast rounded_nearest (x.num * y.num) (Nat.mul_pos x.den_pos y.den_pos)

theorem rounded_div (x : Binary64) {y : Binary64} (hy : 0 < y.value) :
    Rounded (x.value / y.value) (x.div y) := by
  have hnum : 0 < y.num := Nat.pos_of_ne_zero fun h => by simp [value, h] at hy
  rw [value, value, div_div_div_eq]
  exact_mod_cast rounded_nearest (x.num * y.den) (Nat.mul_pos x.den_pos hnum)

theorem isFinite_iff {x : Binary64} : x.isFinite = true ↔ x.value < 2 ^ 1024 := by
  have hden : (0 : ℚ) < x.den := by exact_mod_cast x.den_pos
  rw [isFinite, decide_eq_true_iff, Nat.shiftLeft_eq, value, div_lt_iff₀' hden]
  generalize 1024 = digits
  exact_mod_cast Iff.rfl

/-! ## Decimals

The reader compares the number of places with the number of binary digits, and not the decimal with a bound.
Three binary digits are less than a decimal one, so `8 ^ places ≤ 10 ^ places` takes it from the one to the
other. -/

/-- A decimal of moderate size is rounded once. -/
theorem ofDecimal?_eq_some {digits places : Nat} (hlow : digits = 0 ∨ 10 ^ places ≤ digits * 2 ^ 200)
    (hhigh : digits < 10 ^ places * 2 ^ 200) :
    ofDecimal? digits (-places) = some (nearest digits (10 ^ places)) := by
  have hpos : 0 < 10 ^ places := Nat.pow_pos (by decide)
  have hfinite : (nearest digits (10 ^ places)).isFinite = true := by
    rw [isFinite_iff]
    have hlt : (digits / (10 ^ places : Nat) : ℚ) < 2 ^ (147 + 53 : ℤ) := by
      rw [div_lt_iff₀' (by exact_mod_cast hpos)]
      exact_mod_cast hhigh
    calc (nearest digits (10 ^ places)).value ≤ 2 ^ (147 + 53 : ℤ) :=
          (rounded_nearest digits hpos).value_le (by decide) hlt
      _ < 2 ^ 1024 := by
          exact_mod_cast pow_lt_pow_right₀ (one_lt_two : (1 : ℚ) < 2) (by decide : 200 < 1024)
  rw [ofDecimal?]
  split
  · rename_i hzero
    rw [hzero, nearest, if_pos rfl]
  · rename_i hzero
    have hlow := hlow.resolve_left hzero
    rcases Nat.eq_zero_or_pos places with rfl | hplaces
    · have hlog : digits.log2 < 200 := (Nat.log2_lt hzero).mpr (by simpa using hhigh)
      rw [if_pos (by simp), if_neg (by simp; omega)]
      simpa using hfinite
    · have hlog : 3 * places < digits.log2 + 201 := by
        refine (Nat.pow_lt_pow_iff_right (by decide : 1 < 2)).mp ?_
        calc 2 ^ (3 * places) = 8 ^ places := by rw [Nat.pow_mul]
          _ ≤ 10 ^ places := Nat.pow_le_pow_left (by decide) _
          _ ≤ digits * 2 ^ 200 := hlow
          _ < 2 ^ (digits.log2 + 1) * 2 ^ 200 :=
              Nat.mul_lt_mul_of_pos_right Nat.lt_log2_self (Nat.two_pow_pos _)
          _ = 2 ^ (digits.log2 + 201) := by rw [← Nat.pow_add]
      rw [if_neg (by omega), if_neg (by omega)]
      simpa using hfinite

end Shaping.Binary64
