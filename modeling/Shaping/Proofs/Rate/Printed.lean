import Shaping.Proofs.Rate.Reading
import Shaping.Proofs.Text.Numerals

/-!
# Printed rates typed in again

A rate of a thousand or more is printed as a decimal with one place and a unit, and such a text is read again:
not as the same rate, since one decimal does not tell all of it, but as one within a twentieth of the unit,
apart from what is lost by rounding to binary numbers (`read_text`).

A rate below a thousand is printed as a whole number with `B/s` behind it and a blank between the two.  Only
`B/s` is taken off when it is read, and a number with a blank behind it is no number (`not_read_text`).  So a
printed rate can be typed in again if it is large enough to have a unit (`printed_is_read_iff`).

Four roundings lie between a rate and what is read for it: the rate becomes a binary number, it is divided
by the unit, the quotient is rounded to tenths for the text, and the tenths become a binary number again and
are multiplied by the unit.  Only the third of them is large.  It is kept apart as `tenths_error`, and the
others are put together to a `2 ^ 50`-th part of the rate, which is more than they are, so that no constant
has to be fitted.

The error is stated for the rate and not for the quotient, since the rate is what is compared in the end;
and so every lemma multiplies by the unit before it bounds anything (`div_mul_error`, `tenths_mul_error`).
-/

set_option autoImplicit false

namespace Shaping

/-! ## Printed numbers

These lemmas know neither of rates nor of units.  A whole number is divided by another one that is at least
a thousand, which is all that keeps the quotient large enough for a relative error. -/

namespace Decimal

theorem writes_toDigits (n : Nat) : Writes (Nat.toDigits 10 n) n 0 := by
  simpa only [valueOf_toDigits] using Writes.whole Nat.toDigits_ne_nil (isDigit_toDigits n)

/-- A number of tenths, with its point. -/
theorem writes_tenths (n : Nat) :
    Writes (Nat.toDigits 10 (n / 10) ++ '.' :: Nat.toDigits 10 (n % 10)) n 1 := by
  have hlast := Nat.toDigits_of_lt_base (Nat.mod_lt n (show 10 > 0 by decide))
  have hwrites := Writes.fraction Nat.toDigits_ne_nil (isDigit_toDigits (n / 10)) Nat.toDigits_ne_nil
    (isDigit_toDigits (n % 10))
  rw [valueOf_append, valueOf_toDigits, valueOf_toDigits] at hwrites
  simpa [hlast, Nat.div_add_mod'] using hwrites

end Decimal

namespace Binary64

/-- A number in tenths. -/
def tenths (x : Binary64) : Nat := roundDiv (10 * x.num) x.den

theorem writes_oneDecimal (x : Binary64) : Decimal.Writes x.oneDecimal.toList x.tenths 1 := by
  have htext : x.oneDecimal.toList
      = Nat.toDigits 10 (x.tenths / 10) ++ '.' :: Nat.toDigits 10 (x.tenths % 10) := by
    have hpoint : (toString ".").toList = ['.'] := rfl
    simp [oneDecimal, tenths, hpoint]
  rw [htext]
  exact Decimal.writes_tenths _

/-- Tenths are off by half a tenth at most. -/
theorem tenths_error (x : Binary64) : |(x.tenths : ℚ) - 10 * x.value| ≤ 1 / 2 := by
  have hden : (0 : ℚ) < x.den := by exact_mod_cast x.den_pos
  obtain ⟨hupper, hlower⟩ := @roundDiv_bounds (10 * x.num) _ x.den_pos
  have hupper' : 2 * ((x.tenths : ℚ) * x.den) ≤ 2 * (10 * x.num) + x.den := by exact_mod_cast hupper
  have hlower' : 2 * (10 * (x.num : ℚ)) ≤ 2 * (x.tenths * x.den) + x.den := by exact_mod_cast hlower
  have hscale : 10 * x.value = 10 * x.num / x.den := (mul_div_assoc _ _ _).symm
  rw [abs_le, hscale]
  constructor
  · rw [le_sub_iff_add_le, ← le_sub_iff_add_le', div_le_iff₀ hden]
    linarith
  · rw [sub_le_iff_le_add, ← sub_le_iff_le_add', le_div_iff₀ hden]
    linarith

section

variable {n unit : Nat}

/-- A whole number in units, both of them rounded. -/
theorem div_mul_error (hunit : 1000 ≤ unit) (hle : unit ≤ n) (hmost : unit < 2 ^ 53) :
    |((ofNat n).div (ofNat unit)).value * unit - n| ≤ n / 2 ^ 51 := by
  have hunit' : (1000 : ℚ) ≤ unit := by exact_mod_cast hunit
  have hle' : (unit : ℚ) ≤ n := by exact_mod_cast hle
  have hpos : (0 : ℚ) < unit := by linarith
  have hvalue := value_ofNat hmost
  have hnumber := abs_le.mp ((rounded_ofNat n).near (by linarith))
  have hquotient := rounded_div (ofNat n) (show 0 < (ofNat unit).value by rwa [hvalue])
  rw [hvalue] at hquotient
  have hlarge : 1 / 2 ^ 30 ≤ (ofNat n).value / unit := by
    rw [le_div_iff₀ hpos]
    linarith
  have herror := abs_le.mp (hquotient.near_mul hlarge hpos.le)
  rw [div_mul_cancel₀ _ hpos.ne'] at herror
  rw [abs_le]
  constructor <;> linarith

theorem tenths_lt (hunit : 1000 ≤ unit) (hle : unit ≤ n) (hmost : unit < 2 ^ 53) :
    ((ofNat n).div (ofNat unit)).tenths < n := by
  have hunit' : (1000 : ℚ) ≤ unit := by exact_mod_cast hunit
  have hle' : (unit : ℚ) ≤ n := by exact_mod_cast hle
  have herror := abs_le.mp (div_mul_error hunit hle hmost)
  generalize (ofNat n).div (ofNat unit) = x at *
  have htenths := abs_le.mp x.tenths_error
  have hvalue : x.value * 1000 ≤ x.value * unit := mul_le_mul_of_nonneg_left hunit' x.value_nonneg
  have hlt : (x.tenths : ℚ) < n := by linarith
  exact_mod_cast hlt

/-- **Rounding to tenths of a unit and back** loses at most half of a tenth, apart from the errors of
binary numbers. -/
theorem tenths_mul_error (hunit : 1000 ≤ unit) (hle : unit ≤ n) (hmost : unit < 2 ^ 53) :
    |((nearest ((ofNat n).div (ofNat unit)).tenths 10).mul (ofNat unit)).value - n|
      ≤ unit / 20 + n / 2 ^ 50 := by
  have hunit' : (1000 : ℚ) ≤ unit := by exact_mod_cast hunit
  have hle' : (unit : ℚ) ≤ n := by exact_mod_cast hle
  have hpos : (0 : ℚ) < unit := by linarith
  have hquotient := abs_le.mp (div_mul_error hunit hle hmost)
  generalize (ofNat n).div (ofNat unit) = x at *
  have hlarge : 1 / 2 ≤ x.value := by
    by_contra hsmall
    have := mul_lt_mul_of_pos_right (not_le.mp hsmall) hpos
    linarith
  have htenths := abs_le.mp x.tenths_error
  have hscaled : |(x.tenths : ℚ) / 10 * unit - x.value * unit| ≤ unit / 20 := by
    have htenth : (0 : ℚ) ≤ unit / 10 := by linarith
    calc |(x.tenths : ℚ) / 10 * unit - x.value * unit|
        = |((x.tenths : ℚ) - 10 * x.value) * (unit / 10)| := by ring_nf
      _ = |(x.tenths : ℚ) - 10 * x.value| * (unit / 10) := by rw [abs_mul, abs_of_nonneg htenth]
      _ ≤ 1 / 2 * (unit / 10) := by
          gcongr
          exact x.tenths_error
      _ = unit / 20 := by ring
  rw [abs_le] at hscaled
  have hdecimal := rounded_nearest x.tenths (show 0 < 10 by decide)
  generalize nearest x.tenths 10 = y at *
  have hproduct := rounded_mul y (ofNat unit)
  rw [value_ofNat hmost] at hproduct
  have hread := abs_le.mp (hdecimal.near_mul (by push_cast; linarith) hpos.le)
  push_cast at hread
  have hrounded := abs_le.mp (hproduct.near (by linarith))
  rw [abs_le]
  constructor <;> linarith

end

/-- Cutting off the fraction and clamping to a word lose no more than one, next to a word. -/
theorem clamp_floor_error {x : Binary64} {w : UInt64} {error : ℚ} (h : |x.value - w.toNat| ≤ error) :
    |((Word.clamp x.floor).toNat : ℚ) - w.toNat| ≤ error + 1 := by
  have hclamp : (Word.clamp x.floor).toNat ≤ x.floor ∧
      ((Word.clamp x.floor).toNat = x.floor ∨ w.toNat ≤ (Word.clamp x.floor).toNat) := by
    have hsize : UInt64.size = 18446744073709551616 := rfl
    have hword := w.toNat_lt
    rw [Word.toNat_clamp]
    omega
  generalize (Word.clamp x.floor).toNat = n at *
  have hpos := le_trans (abs_nonneg _) h
  have hbelow := x.floor_le
  have habove := x.lt_floor_add_one
  have hle : (n : ℚ) ≤ x.floor := by exact_mod_cast hclamp.1
  rw [abs_le] at h ⊢
  rcases hclamp.2 with hfits | hover
  · rw [hfits]
    constructor <;> linarith
  · -- the largest word is not less than `w`, so it is nearer to it than the number was
    have hge : (w.toNat : ℚ) ≤ n := by exact_mod_cast hover
    constructor <;> linarith

end Binary64

namespace Rate

open Decimal (Writes)

/-! ## Printed rates

The printer compares the rate with the units from the largest one down, and the reader looks for a letter.
That both mean the same unit is seen here, where the text is put together. -/

/-- The largest unit that a number is not below. -/
structure LargestUnit (n unit : Nat) : Prop where
  isUnit : ∃ letter, (letter, unit) ∈ units
  le : unit ≤ n
  largest : ∀ e ∈ units, e.2 ≤ n → e.2 ≤ unit

/-- **A rate of a thousand or more is printed in the largest unit.** -/
theorem text_of_le {rate : UInt64} (hrate : 1000 ≤ rate) :
    ∃ letter unit, (letter, unit.toNat) ∈ units ∧ LargestUnit rate.toNat unit.toNat ∧
      text rate = String.ofList
        ((inUnits rate unit).toList ++ [' '] ++ [letter] ++ ['B', '/', 's']) := by
  have hthousand : 1000 ≤ rate.toNat := hrate
  by_cases hgiga : 1000000000 ≤ rate
  · refine ⟨'G', 1000000000, by decide, ⟨⟨'G', by decide⟩, hgiga, by simp [units]⟩, ?_⟩
    rw [text, if_pos hgiga]
    exact String.toList_inj.mp (by simp)
  · have hgiga' : rate.toNat < 1000000000 := Nat.not_le.mp hgiga
    by_cases hmega : 1000000 ≤ rate
    · refine ⟨'M', 1000000, by decide, ⟨⟨'M', by decide⟩, hmega, ?_⟩, ?_⟩
      · simp [units]
        omega
      · rw [text, if_neg hgiga, if_pos hmega]
        exact String.toList_inj.mp (by simp)
    · have hmega' : rate.toNat < 1000000 := Nat.not_le.mp hmega
      refine ⟨'K', 1000, by decide, ⟨⟨'K', by decide⟩, hthousand, ?_⟩, ?_⟩
      · simp [units]
        omega
      · rw [text, if_neg hgiga, if_neg hmega, if_pos hrate]
        exact String.toList_inj.mp (by simp)

theorem text_of_lt {rate : UInt64} (hrate : rate < 1000) :
    text rate = String.ofList (Nat.toDigits 10 rate.toNat ++ [' '] ++ ['B', '/', 's']) := by
  have hlt : rate.toNat < 1000 := hrate
  have hless : ∀ unit : UInt64, 1000 ≤ unit.toNat → ¬ unit ≤ rate := fun unit hunit hle => by
    have : unit.toNat ≤ rate.toNat := hle
    omega
  rw [text, if_neg (hless _ (by decide)), if_neg (hless _ (by decide)), if_neg (hless _ (by decide))]
  exact String.toList_inj.mp (by simp)

/-! ## Reading them

The reader takes off `B/s` and trims what is left only if it finds a unit in it.  That is the whole
difference between the two kinds of rates. -/

/-- **A printed rate with a unit is read** as one within a twentieth of the unit, apart from the errors of
binary numbers. -/
theorem read_text {rate : UInt64} (hrate : 1000 ≤ rate) :
    ∃ unit read, LargestUnit rate.toNat unit ∧ ofText? (text rate) = .ok read ∧
      |(read.toNat : ℚ) - rate.toNat| ≤ unit / 20 + rate.toNat / 2 ^ 50 + 1 := by
  obtain ⟨letter, unit, hunit, hlargest, htext⟩ := text_of_le hrate
  obtain ⟨hcapital, -, hb, -⟩ := letter_spec hunit
  obtain ⟨hleast, hmost⟩ := unit_bounds hunit
  have hle := hlargest.le
  have hwrites := ((Binary64.ofNat rate.toNat).div (Binary64.ofNat unit.toNat)).writes_oneDecimal
  have hlt := Binary64.tenths_lt hleast hle (by omega)
  have herror := Binary64.tenths_mul_error hleast hle (by omega)
  have hword := rate.toNat_lt
  rw [inUnits] at htext
  generalize (Binary64.ofNat rate.toNat).div (Binary64.ofNat unit.toNat) = x at *
  have hback : ∀ c ∈ [' '] ++ [letter], c.toNat < 97 := by simpa using hcapital
  have hblank : ∀ c ∈ [' '], Text.isBlank c := List.forall_mem_singleton.mpr (by decide)
  have hbare := bare_perSecond hwrites hback hb
  rw [← htext] at hbare
  have hread := ofText?_of_unit hwrites hblank hunit hbare (by omega) (by omega)
  rw [Nat.pow_one] at hread
  exact ⟨unit.toNat, _, hlargest, hread, Binary64.clamp_floor_error herror⟩

/-- A word does not end in a blank. -/
theorem wordOfText?_blank {cs : List Char} {digits places : Nat} (hcs : Writes cs digits places) :
    Decimal.wordOfText? (cs ++ [' ']) = none := by
  obtain ⟨d, rest, rfl, hd⟩ := hcs.exists_cons
  have hdigits : Decimal.ofDigits? (d :: (rest ++ [' '])) = none := by
    simp [Decimal.ofDigits?, show Decimal.isDigit ' ' = false by decide]
  rw [Decimal.wordOfText?, List.cons_append, ofText?_cons hd, hdigits]
  rfl

/-- **A printed rate without a unit is refused.** -/
theorem not_read_text {rate : UInt64} (hrate : rate < 1000) :
    ofText? (text rate) = .error (.notAWord (String.ofList (Nat.toDigits 10 rate.toNat ++ [' ']))) := by
  have hwrites := Decimal.writes_toDigits rate.toNat
  have hback : ∀ c ∈ [] ++ [' '], c.toNat < 97 := List.forall_mem_singleton.mpr (by decide)
  have hbare := bare_perSecond hwrites hback (by decide)
  rw [List.append_nil, ← text_of_lt hrate] at hbare
  unfold ofText?
  simp only [hbare, splitUnit?_eq_none _ (show ∀ e ∈ units, e.1 ≠ ' ' by decide),
    wordOfText?_blank hwrites]

/-- **Printed rates can be typed in if they have a unit.**  What is read is then within a twentieth of the unit,
apart from the errors of binary numbers. -/
theorem printed_is_read_iff (rate : UInt64) :
    ((∃ read, ofText? (text rate) = .ok read) ↔ 1000 ≤ rate) ∧
      ∀ read, ofText? (text rate) = .ok read → ∃ unit, LargestUnit rate.toNat unit ∧
        |(read.toNat : ℚ) - rate.toNat| ≤ unit / 20 + rate.toNat / 2 ^ 50 + 1 := by
  rcases UInt64.lt_or_le rate 1000 with hsmall | hlarge
  · have hrefused := not_read_text hsmall
    refine ⟨iff_of_false ?_ (UInt64.not_le.mpr hsmall), ?_⟩
    · rintro ⟨read, hread⟩
      simp [hrefused] at hread
    · intro read hread
      simp [hrefused] at hread
  · obtain ⟨unit, read, hunit, hread, herror⟩ := read_text hlarge
    refine ⟨iff_of_true ⟨read, hread⟩ hlarge, ?_⟩
    intro read' hread'
    obtain rfl : read = read' := Except.ok.inj (hread.symm.trans hread')
    exact ⟨unit, hunit, herror⟩

/-- One and a half thousand bytes per second are read within a twentieth of a thousand. -/
theorem printed_is_read_iff_of_thousands :
    ∃ read, ofText? (text 1500) = .ok read ∧ |(read.toNat : ℚ) - 1500| ≤ 52 := by
  obtain ⟨hiff, hnear⟩ := printed_is_read_iff 1500
  obtain ⟨read, hread⟩ := hiff.mpr (by decide)
  obtain ⟨unit, ⟨⟨letter, hunit⟩, hle, -⟩, herror⟩ := hnear read hread
  have hrate : UInt64.toNat 1500 = 1500 := rfl
  rw [hrate] at hle herror
  have hthousand : unit = 1000 := by
    simp only [units, List.mem_cons, Prod.mk.injEq, List.not_mem_nil, or_false] at hunit
    omega
  refine ⟨read, hread, le_trans herror ?_⟩
  rw [hthousand]
  norm_num

/-- The text `999 B/s` is printed and is refused. -/
theorem printed_is_refused : ¬ ∀ rate, ∃ read, ofText? (text rate) = .ok read := by
  intro hall
  obtain ⟨read, hread⟩ := hall 999
  have hrefused : ofText? (text 999) = .error (.notAWord "999 ") := by decide +kernel
  rw [hrefused] at hread
  nomatch hread

end Rate

end Shaping
