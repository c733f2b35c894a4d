import Shaping.Rate
import Shaping.Proofs.Binary64.Arithmetic
import Shaping.Proofs.Text.Spans

/-!
# How a rate with a unit is read

A decimal is a run of digits, maybe with a point and more digits behind it (`Decimal.Writes`).  Behind a
decimal a unit is found whatever the decimal is, and blanks between the two do not matter
(`ofText?_of_unit`).  Then the decimal is rounded to a binary number, the product with the unit is rounded
again, and its fraction is cut off.

The result is not always the product of the two, even if that is a small whole number: what is rounded down a
little falls to the number before it when it is cut off.  It never falls further than that, nor does it rise
further than to the next number, and `decimals_are_read_exactly_iff` tells when it is exact.

## How the reading is followed

The text goes through a row of small functions: blanks are trimmed, letters become capitals, an ending is
taken off, a unit is looked for, and the rest is trimmed again and read as a number.  Each of them looks at
one end of the text only.  So the text is kept as a decimal in front, something in between and a last
character, and there is one lemma for each function, which asks nothing of the other end.

Nothing is said about texts that are no decimals with a unit.  The reader takes more than these, for example
signs and exponents, but no rate is ever written so.

## Why not all of them are read exactly

A decimal such as `1.001` is no binary number.  If the binary number that is nearest to it is smaller, then
so is its product with the unit, and if that is rounded down once more the whole number is missed by a
little and cut off to the one before.  Whether this happens depends on digits far behind the point, so there
is no shorter answer than to look at the product before it is rounded (`product`) and see whether it is
beyond the middle (`Binary64.Reaches`).

What can be said without looking is said too.  The error is a `2 ^ 53`-th part of a number below `2 ^ 53`,
so it is less than one; and for decimals that are binary numbers there is no error at all
(`ofText?_of_binary`).
-/

set_option autoImplicit false

namespace Shaping

/-! ## Capital letters

Letters become capitals in the way of Unicode, where one letter may become several.  Nothing of this matters
to characters that come before the small letters. -/

namespace Text

/-- There are no small letters in front of the small `a`. -/
theorem capital_eq_self {c : Char} (h : c.toNat < 97) : capital c = [c] := by
  rw [capital, if_pos (by omega), if_neg (by omega)]

theorem uppercase_eq_self {cs : List Char} (h : ∀ c ∈ cs, c.toNat < 97) : uppercase cs = cs := by
  rw [uppercase, List.flatMap_congr fun c hc => capital_eq_self (h c hc)]
  exact List.flatMap_singleton' cs

theorem uppercase_append (cs ds : List Char) : uppercase (cs ++ ds) = uppercase cs ++ uppercase ds :=
  List.flatMap_append

end Text

/-! ## Decimals -/

namespace Decimal

/-- The text is a decimal without a sign: `digits` in units of the last of its `places` after the point. -/
inductive Writes : List Char → Nat → Nat → Prop
  | whole {cs : List Char} : cs ≠ [] → (∀ c ∈ cs, isDigit c) → Writes cs (valueOf cs) 0
  | fraction {cs ds : List Char} : cs ≠ [] → (∀ c ∈ cs, isDigit c) → ds ≠ [] → (∀ c ∈ ds, isDigit c) →
      Writes (cs ++ '.' :: ds) (valueOf (cs ++ ds)) ds.length

theorem isDigit_iff {c : Char} : isDigit c = true ↔ 48 ≤ c.toNat ∧ c.toNat ≤ 57 := by
  rw [isDigit, Bool.and_eq_true, decide_eq_true_iff, decide_eq_true_iff]
  exact Iff.rfl

namespace Writes

variable {cs : List Char} {digits places : Nat}

theorem exists_cons (h : Writes cs digits places) : ∃ d rest, cs = d :: rest ∧ isDigit d := by
  cases h with
  | whole hne hcs | fraction hne hcs =>
    obtain ⟨d, rest, rfl⟩ := List.exists_cons_of_ne_nil hne
    exact ⟨d, _, rfl, hcs d (by simp)⟩

/-- A decimal is made of digits and the point. -/
theorem toNat_bounds (h : Writes cs digits places) : ∀ c ∈ cs, 46 ≤ c.toNat ∧ c.toNat ≤ 57 := by
  have hdigit : ∀ c : Char, isDigit c → 46 ≤ c.toNat ∧ c.toNat ≤ 57 := fun c hc => by
    have := isDigit_iff.mp hc
    omega
  cases h with
  | whole _ hcs => exact fun c hc => hdigit c (hcs c hc)
  | fraction _ hcs _ hds =>
    intro c hc
    rcases List.mem_append.mp hc with hc | hc
    · exact hdigit c (hcs c hc)
    · rcases List.mem_cons.mp hc with rfl | hc
      · decide
      · exact hdigit c (hds c hc)

theorem isBlank_eq_false (h : Writes cs digits places) {c : Char} (hc : c ∈ cs) :
    Text.isBlank c = false := by
  have := h.toNat_bounds c hc
  simp only [Text.isBlank, Bool.or_eq_false_iff, Bool.and_eq_false_iff, decide_eq_false_iff_not,
    beq_eq_false_iff_ne]
  omega

/-- A text that starts with a decimal starts with no blank. -/
theorem head_append (h : Writes cs digits places) (rest : List Char) :
    ∀ c ∈ (cs ++ rest).head?, Text.isBlank c = false := by
  obtain ⟨d, more, rfl, -⟩ := h.exists_cons
  simpa using h.isBlank_eq_false (List.mem_cons_self)

/-- A decimal has no letters. -/
theorem uppercase_append (h : Writes cs digits places) (rest : List Char) :
    Text.uppercase (cs ++ rest) = cs ++ Text.uppercase rest := by
  rw [Text.uppercase_append, Text.uppercase_eq_self fun c hc => by have := h.toNat_bounds c hc; omega]

end Writes

end Decimal

namespace Rate

open Decimal (Writes isDigit valueOf)
open Text (isBlank trim trim_eq uppercase)

/-! ## Numbers

Signs are looked for first.  A decimal starts with a digit, so there is none. -/

theorem spanDigits_append {ds rest : List Char} (hds : ∀ c ∈ ds, isDigit c)
    (hrest : ∀ c ∈ rest.head?, isDigit c = false) : spanDigits (ds ++ rest) = (ds, rest) :=
  Prod.ext_iff.mpr (Text.span_iff.mpr ⟨rfl, hds, hrest⟩)

theorem spanDigits_self {ds : List Char} (hds : ∀ c ∈ ds, isDigit c) : spanDigits ds = (ds, []) :=
  Prod.ext_iff.mpr (Text.span_iff.mpr ⟨(List.append_nil ds).symm, hds, by simp⟩)

/-- **A decimal is read as the number that it writes**, rounded. -/
theorem magnitude?_of_writes {cs : List Char} {digits places : Nat} (h : Writes cs digits places) :
    magnitude? cs = Binary64.ofDecimal? digits (-places) := by
  cases h with
  | whole hne hcs =>
    have hspan := spanDigits_self hcs
    simp [magnitude?, hspan, hne, exponent?]
  | @fraction cs ds hne hcs _ hds =>
    have hspan : spanDigits (cs ++ '.' :: ds) = (cs, '.' :: ds) :=
      spanDigits_append hcs (by simp; decide)
    have hbehind := spanDigits_self hds
    simp [magnitude?, hspan, hbehind, hne, exponent?]

theorem number?_of_writes {cs : List Char} {digits places : Nat} (h : Writes cs digits places) :
    number? cs = Binary64.ofDecimal? digits (-places) := by
  obtain ⟨d, rest, rfl, hd⟩ := h.exists_cons
  rw [number?.eq_3, magnitude?_of_writes h]
  · rintro cs heq
    obtain rfl : d = '+' := by simpa using (List.cons.inj heq).1
    exact absurd hd (by decide)
  · rintro cs heq
    obtain rfl : d = '-' := by simpa using (List.cons.inj heq).1
    exact absurd hd (by decide)

/-! ## Endings

An ending is taken off if it is there, and `S` is among the endings only as a part of `B/S`.  A text that
ends in neither `B` nor `S` has none of them. -/

theorem dropEnding?_append (front ending : List Char) :
    dropEnding? ending (front ++ ending) = some front := by
  simp [dropEnding?]

/-- A text with another last character has not the ending. -/
theorem dropEnding?_concat {e c : Char} (h : e ≠ c) (ending cs : List Char) :
    dropEnding? (ending ++ [e]) (cs ++ [c]) = none := by
  have hsuffix : ¬ ending ++ [e] <:+ cs ++ [c] := by
    rintro ⟨front, hfront⟩
    rw [← List.append_assoc] at hfront
    exact h (by simpa using (List.append_inj' hfront rfl).2)
  simpa [dropEnding?] using hsuffix

/-- A unit is found by its letter. -/
theorem splitUnit?_concat (front : List Char) {letter : Char} {unit : Nat}
    (hunit : (letter, unit) ∈ units) : splitUnit? (front ++ [letter]) = some (front, unit) := by
  have hother : ∀ {e : Char}, e ≠ letter → dropEnding? [e] (front ++ [letter]) = none := fun h =>
    dropEnding?_concat h [] front
  have hfound := dropEnding?_append front [letter]
  simp only [units, List.mem_cons, Prod.mk.injEq, List.not_mem_nil, or_false] at hunit
  rcases hunit with ⟨rfl, rfl⟩ | ⟨rfl, rfl⟩ | ⟨rfl, rfl⟩
  · simp [splitUnit?, units, hfound]
  · simp [splitUnit?, units, hfound, hother]
  · simp [splitUnit?, units, hfound, hother]

theorem splitUnit?_eq_none (front : List Char) {c : Char} (h : ∀ e ∈ units, e.1 ≠ c) :
    splitUnit? (front ++ [c]) = none := by
  rw [splitUnit?, List.findSome?_eq_none_iff]
  rintro ⟨letter, unit⟩ hunit
  have hother : dropEnding? [letter] (front ++ [c]) = none := dropEnding?_concat (h _ hunit) [] front
  simp [hother]

section

variable {cs back : List Char} {digits places : Nat} {c : Char}

/-- **A text in capitals that starts with a decimal** is kept as it is if it ends in neither `B` nor `S`. -/
theorem bare_concat (hcs : Writes cs digits places) (hback : ∀ x ∈ back ++ [c], x.toNat < 97)
    (hblank : isBlank c = false) (hb : 'B' ≠ c) (hs : 'S' ≠ c) :
    bare (String.ofList (cs ++ back ++ [c])) = cs ++ back ++ [c] := by
  have hlong : dropEnding? ['B', '/', 'S'] (cs ++ back ++ [c]) = none :=
    dropEnding?_concat hs ['B', '/'] (cs ++ back)
  have hshort : dropEnding? ['B'] (cs ++ back ++ [c]) = none := dropEnding?_concat hb [] (cs ++ back)
  have htrim : trim (cs ++ back ++ [c]) = cs ++ back ++ [c] :=
    Text.trim_eq_self (by simpa using hcs.head_append (back ++ [c])) (by simpa using hblank)
  rw [bare, String.toList_ofList, htrim, List.append_assoc, hcs.uppercase_append,
    Text.uppercase_eq_self hback, ← List.append_assoc, hlong, Option.getD_none, hshort, Option.getD_none]

/-- **What stands in front of `B/s`** is what counts. -/
theorem bare_perSecond (hcs : Writes cs digits places) (hback : ∀ x ∈ back ++ [c], x.toNat < 97)
    (hb : 'B' ≠ c) :
    bare (String.ofList (cs ++ back ++ [c] ++ ['B', '/', 's'])) = cs ++ back ++ [c] := by
  have hending : uppercase ['B', '/', 's'] = ['B', '/', 'S'] := by decide
  have hshort : dropEnding? ['B'] (cs ++ back ++ [c]) = none := dropEnding?_concat hb [] (cs ++ back)
  have htrim : trim (cs ++ back ++ [c] ++ ['B', '/', 's']) = cs ++ back ++ [c] ++ ['B', '/', 's'] :=
    Text.trim_eq_self (by simpa using hcs.head_append (back ++ [c] ++ ['B', '/', 's']))
      (by simp; decide)
  have hupper : uppercase (cs ++ back ++ [c] ++ ['B', '/', 's'])
      = cs ++ back ++ [c] ++ ['B', '/', 'S'] := by
    rw [Text.uppercase_append, hending, List.append_assoc, hcs.uppercase_append,
      Text.uppercase_eq_self hback, ← List.append_assoc]
  rw [bare, String.toList_ofList, htrim, hupper, dropEnding?_append, Option.getD_some, hshort,
    Option.getD_none]

end

/-! ## Units -/

theorem unit_bounds {letter : Char} {unit : Nat} (hunit : (letter, unit) ∈ units) :
    1000 ≤ unit ∧ unit ≤ 1000000000 := by
  simp only [units, List.mem_cons, Prod.mk.injEq, List.not_mem_nil, or_false] at hunit
  omega

/-- The letters of the units are capitals other than those that are taken off before. -/
theorem letter_spec {letter : Char} {unit : Nat} (hunit : (letter, unit) ∈ units) :
    letter.toNat < 97 ∧ isBlank letter = false ∧ 'B' ≠ letter ∧ 'S' ≠ letter := by
  simp only [units, List.mem_cons, Prod.mk.injEq, List.not_mem_nil, or_false] at hunit
  rcases hunit with ⟨rfl, -⟩ | ⟨rfl, -⟩ | ⟨rfl, -⟩ <;> decide

/-- **A decimal with a unit behind it** is read as their product, with both of them rounded. -/
theorem ofText?_of_unit {s : String} {cs blanks : List Char} {digits places : Nat}
    (hcs : Writes cs digits places) (hblanks : ∀ c ∈ blanks, isBlank c) {letter : Char} {unit : Nat}
    (hunit : (letter, unit) ∈ units) (hbare : bare s = cs ++ blanks ++ [letter])
    (hlow : digits = 0 ∨ 10 ^ places ≤ digits * 2 ^ 200) (hhigh : digits < 10 ^ places * 2 ^ 200) :
    ofText? s = .ok (Word.clamp
      ((Binary64.nearest digits (10 ^ places)).mul (Binary64.ofNat unit)).floor) := by
  have htrim : trim (cs ++ blanks) = cs := by
    refine trim_eq (show ∀ c ∈ [], isBlank c by simp) hblanks ?_ ?_
    · exact fun c hc => hcs.isBlank_eq_false (List.mem_of_mem_head? hc)
    · exact fun c hc => hcs.isBlank_eq_false (List.mem_of_getLast? hc)
  unfold ofText?
  simp only [hbare, splitUnit?_concat _ hunit, htrim, number?_of_writes hcs,
    Binary64.ofDecimal?_eq_some hlow hhigh]

/-! ## Exact reading -/

/-- The product of the rounded decimal and the unit, before it is rounded in its turn. -/
def product (digits places unit : Nat) : ℚ := (Binary64.nearest digits (10 ^ places)).value * unit

section

variable {cs : List Char} {letter : Char} {digits places unit n : Nat}

/-- **A decimal with a unit, the product of which is a moderate whole number**, is read as the rounded
product without its fraction. -/
theorem exists_read (hcs : Writes cs digits places) (hunit : (letter, unit) ∈ units)
    (hn : digits * unit = n * 10 ^ places) (hmax : n < 2 ^ 53) :
    ∃ x : Binary64, x.Rounded (product digits places unit) ∧
      ofText? (String.ofList (cs ++ [letter])) = .ok (Word.clamp x.floor) := by
  obtain ⟨hleast, hmost⟩ := unit_bounds hunit
  have hpower : 0 < 10 ^ places := Nat.pow_pos (by decide)
  have hhigh : digits < 10 ^ places * 2 ^ 200 :=
    calc digits ≤ digits * unit := Nat.le_mul_of_pos_right _ (by omega)
      _ = n * 10 ^ places := hn
      _ < 2 ^ 200 * 10 ^ places := Nat.mul_lt_mul_of_pos_right (by omega) hpower
      _ = 10 ^ places * 2 ^ 200 := Nat.mul_comm _ _
  have hlow : digits = 0 ∨ 10 ^ places ≤ digits * 2 ^ 200 := by
    rcases Nat.eq_zero_or_pos n with rfl | hpos
    · left
      rw [Nat.zero_mul, Nat.mul_eq_zero] at hn
      omega
    · right
      calc 10 ^ places ≤ n * 10 ^ places := Nat.le_mul_of_pos_left _ hpos
        _ = digits * unit := hn.symm
        _ ≤ digits * 2 ^ 200 := Nat.mul_le_mul_left _ (by omega)
  have hrounded := Binary64.rounded_mul (Binary64.nearest digits (10 ^ places)) (Binary64.ofNat unit)
  rw [Binary64.value_ofNat (by omega)] at hrounded
  obtain ⟨hcapital, hblank, hb, hs⟩ := letter_spec hunit
  have hback : ∀ x ∈ [] ++ [letter], x.toNat < 97 := by simpa using hcapital
  have hbare := bare_concat hcs hback hblank hb hs
  refine ⟨_, hrounded, ofText?_of_unit hcs (show ∀ c ∈ [], isBlank c by simp) hunit ?_ hlow hhigh⟩
  rwa [List.append_nil] at hbare ⊢

theorem exact_product (hn : digits * unit = n * 10 ^ places) :
    (digits / (10 ^ places : Nat) : ℚ) * unit = n := by
  have hpower : ((10 ^ places : Nat) : ℚ) ≠ 0 := by exact_mod_cast (Nat.pow_pos (by decide)).ne'
  rw [div_mul_eq_mul_div, div_eq_iff hpower]
  exact_mod_cast hn

/-- The product is off by its `2 ^ 53`-th part at most. -/
theorem product_error (hunit : (letter, unit) ∈ units) (hn : digits * unit = n * 10 ^ places) :
    |product digits places unit - n| ≤ n / 2 ^ 53 := by
  obtain ⟨hleast, hmost⟩ := unit_bounds hunit
  have hpos : (0 : ℚ) < unit := by exact_mod_cast (by omega : 0 < unit)
  have hround := Binary64.rounded_nearest digits (show 0 < 10 ^ places from Nat.pow_pos (by decide))
  have hexact := exact_product hn
  rw [product]
  generalize (digits / (10 ^ places : Nat) : ℚ) = q at hround hexact
  rcases Nat.eq_zero_or_pos n with rfl | hn
  · have hzero : q = 0 := by
      rw [Nat.cast_zero] at hexact
      exact (mul_eq_zero.mp hexact).resolve_right hpos.ne'
    have hvalue := hround.value_eq_of_digits (m := 0) (k := 0) (by decide) (by decide) (by simpa using hzero)
    simp [hvalue, hzero]
  · have hlarge : 1 / 2 ^ 30 ≤ q := by
      have hone : (1 : ℚ) ≤ n := by exact_mod_cast hn
      have hunit' : (unit : ℚ) ≤ 1000000000 := by exact_mod_cast hmost
      calc (1 : ℚ) / 2 ^ 30 ≤ 1 / unit := by gcongr; linarith
        _ ≤ n / unit := by gcongr
        _ = q := by rw [← hexact, mul_div_cancel_right₀ _ hpos.ne']
    rw [← hexact]
    exact hround.near_mul hlarge hpos.le

/-- **Decimals that are binary numbers are read exactly**, among them whole numbers and the halves of them. -/
theorem ofText?_of_binary (hcs : Writes cs digits places) (hunit : (letter, unit) ∈ units)
    (hn : digits * unit = n * 10 ^ places) (hmax : n < 2 ^ 53) {m : Nat} {k : ℤ} (hm : m < 2 ^ 53)
    (hk : Binary64.minExponent ≤ k) (hvalue : (digits / (10 ^ places : Nat) : ℚ) = m * 2 ^ k) :
    ofText? (String.ofList (cs ++ [letter])) = .ok (UInt64.ofNat n) := by
  obtain ⟨x, hx, hread⟩ := exists_read hcs hunit hn hmax
  have hround := Binary64.rounded_nearest digits (show 0 < 10 ^ places from Nat.pow_pos (by decide))
  have hexact := hround.value_eq_of_digits hm hk hvalue
  rw [product, hexact, exact_product hn] at hx
  have hfloor := Binary64.floor_eq_of_value (hx.value_eq_of_digits (k := 0) hmax (by decide) (by simp))
  rw [hread, hfloor, Word.clamp, if_pos (lt_trans hmax (by decide))]

/-- **Decimals with a unit are read exactly, or with the number next to it.**  If the product of the decimal
and the unit is a whole number of 53 digits, what is read is this number, the one before or the one after it.
It is the number itself if the product with the *rounded* decimal is so close to it that rounding brings it
there and not to the number after it.  So it is if the decimal is a binary number. -/
theorem decimals_are_read_exactly_iff (hcs : Writes cs digits places) (hunit : (letter, unit) ∈ units)
    (hn : digits * unit = n * 10 ^ places) (hmax : n < 2 ^ 53) :
    ∃ rate, ofText? (String.ofList (cs ++ [letter])) = .ok rate ∧ n ≤ rate.toNat + 1 ∧
      rate.toNat ≤ n + 1 ∧
      (rate.toNat = n ↔ Binary64.Reaches n (product digits places unit) ∧
        ¬ Binary64.Reaches (n + 1) (product digits places unit)) ∧
      ∀ (m : Nat) (k : ℤ), m < 2 ^ 53 → Binary64.minExponent ≤ k →
        (digits / (10 ^ places : Nat) : ℚ) = m * 2 ^ k → rate.toNat = n := by
  obtain ⟨x, hx, hread⟩ := exists_read hcs hunit hn hmax
  have hnear : |product digits places unit - n| < 1 := by
    refine lt_of_le_of_lt (product_error hunit hn) ?_
    rw [div_lt_one (by positivity)]
    exact_mod_cast hmax
  have hpos : 0 ≤ product digits places unit :=
    mul_nonneg (Binary64.value_nonneg _) (Nat.cast_nonneg _)
  obtain ⟨hlower, hupper⟩ := hx.floor_near hmax hnear
  have hword : (Word.clamp x.floor).toNat = x.floor := by
    have hsize : UInt64.size = 18446744073709551616 := rfl
    rw [Word.toNat_clamp]
    omega
  refine ⟨_, hread, by rwa [hword], by rwa [hword], ?_, ?_⟩
  · rw [hword]
    exact hx.floor_eq_iff hpos hmax
  · intro m k hm hk hvalue
    rw [Except.ok.inj (hread.symm.trans (ofText?_of_binary hcs hunit hn hmax hm hk hvalue))]
    exact UInt64.toNat_ofNat_of_lt (lt_trans hmax (by decide))

/-- One and a half `G` are read exactly. -/
theorem decimals_are_read_exactly_iff_of_half : ofText? "1.5G" = .ok 1500000000 := by
  have hwrites : Writes ['1', '.', '5'] 15 1 :=
    @Writes.fraction ['1'] ['5'] (by decide) (List.all_eq_true.mp (by decide)) (by decide)
      (List.all_eq_true.mp (by decide))
  have hunit : ('G', 1000000000) ∈ units := by decide
  have hwhole : 15 * 1000000000 = 1500000000 * 10 ^ 1 := by decide
  obtain ⟨rate, hread, -, -, -, hbinary⟩ := decimals_are_read_exactly_iff hwrites hunit hwhole (by decide)
  have hrate : rate = 1500000000 :=
    UInt64.toNat_inj.mp (hbinary 3 (-1) (by decide) (by decide) (by norm_num))
  rw [← hrate]
  exact hread

/-- `1.001K` are a thousand and one, and are read as a thousand. -/
theorem decimal_loses_one : ¬ ∀ (cs : List Char) (letter : Char) (digits places unit n : Nat),
    Writes cs digits places → (letter, unit) ∈ units → digits * unit = n * 10 ^ places → n < 2 ^ 53 →
      ofText? (String.ofList (cs ++ [letter])) = .ok (UInt64.ofNat n) := by
  intro hall
  have hwrites : Writes ['1', '.', '0', '0', '1'] 1001 3 :=
    @Writes.fraction ['1'] ['0', '0', '1'] (by decide) (List.all_eq_true.mp (by decide)) (by decide)
      (List.all_eq_true.mp (by decide))
  have hclaim := hall _ 'K' 1001 3 1000 1001 hwrites (by decide) (by decide) (by decide)
  have hread : ofText? (String.ofList (['1', '.', '0', '0', '1'] ++ ['K'])) = .ok 1000 := by
    decide +kernel
  rw [hread] at hclaim
  exact absurd hclaim (by decide)

end

end Rate

end Shaping
