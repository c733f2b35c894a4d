import Shaping.Proofs.Limiter.Refusal
import Mathlib.Algebra.Order.Field.Rat
import Mathlib.Tactic.Linarith

/-!
# Tokens at every magnitude

A bucket earns tokens by two formulas that meet at a full second.  Below it whole microseconds are
multiplied by the rate and the product is divided; from there on whole seconds are multiplied.  Both
products stop at the largest word, and both divisions cut off.

Each formula has its value in the natural numbers (`toNat_refill_short`, `toNat_refill_long`), and
what ties them together is that the first never gets beyond the rate and the second never stays below it
(`refill_le_rate`, `rate_le_refill`).  So nothing is lost at the threshold: the tokens grow with the time
as they do with the rate.  What the cutting off costs below a second is less than one token and what the
rate earns in a microsecond (`exact_lt_refill`), as long as no product has to stop.
-/

set_option autoImplicit false

namespace Shaping

namespace TokenBucket

/-! ## Across the threshold

Two times may be on the same side of the threshold or on different ones.  On the same side the formulas are
monotone by themselves; across it the rate stands between them. -/

/-- Before a second is over a bucket has not earned more than it holds. -/
theorem refill_le_rate (rate : UInt64) {elapsed : UInt64} (h : elapsed.toNat < 10 ^ 9) :
    (refill rate elapsed).toNat ≤ rate.toNat := by
  have hmicros : elapsed.toNat / 1000 ≤ 10 ^ 6 := by omega
  rw [toNat_refill_short rate h]
  refine Nat.div_le_of_le_mul (Nat.le_trans (Nat.min_le_left _ _) ?_)
  gcongr

/-- A higher rate earns no less. -/
theorem refill_mono_rate {rate rate' : UInt64} (h : rate ≤ rate') (elapsed : UInt64) :
    refill rate elapsed ≤ refill rate' elapsed := by
  rw [UInt64.le_iff_toNat_le] at h ⊢
  rcases Nat.lt_or_ge elapsed.toNat (10 ^ 9) with hshort | hlong
  · rw [toNat_refill_short rate hshort, toNat_refill_short rate' hshort]
    gcongr
  · rw [toNat_refill_long rate hlong, toNat_refill_long rate' hlong]
    gcongr

/-- **More time earns no less**, also where the second formula takes over from the first. -/
theorem refill_mono_elapsed (rate : UInt64) {elapsed elapsed' : UInt64} (h : elapsed ≤ elapsed') :
    refill rate elapsed ≤ refill rate elapsed' := by
  rw [UInt64.le_iff_toNat_le] at h ⊢
  rcases Nat.lt_or_ge elapsed'.toNat (10 ^ 9) with hshort' | hlong'
  · rw [toNat_refill_short rate (Nat.lt_of_le_of_lt h hshort'), toNat_refill_short rate hshort']
    gcongr
  · rcases Nat.lt_or_ge elapsed.toNat (10 ^ 9) with hshort | hlong
    · exact Nat.le_trans (refill_le_rate rate hshort) (rate_le_refill hlong')
    · rw [toNat_refill_long rate hlong, toNat_refill_long rate hlong']
      gcongr

/-! ## What is cut off -/

/-- **Less than a token and a microsecond is cut off**, in units of a token in a nanosecond. -/
theorem exact_lt_refill {rate elapsed : UInt64} (hrate : rate.toNat ≤ (2 ^ 64 - 1) / 10 ^ 6)
    (h : elapsed.toNat < 10 ^ 9) : rate.toNat * elapsed.toNat
      < (refill rate elapsed).toNat * 10 ^ 9 + 10 ^ 9 + 10 ^ 3 * rate.toNat := by
  have hword : rate.toNat * 10 ^ 6 < 2 ^ 64 := by omega
  -- the two divisions, each with what it leaves
  have htime : elapsed.toNat ≤ 1000 * (elapsed.toNat / 1000) + 1000 := by omega
  have htokens : elapsed.toNat / 1000 * rate.toNat
      < 10 ^ 6 * (refill rate elapsed).toNat + 10 ^ 6 := by
    rw [toNat_refill hword h, earned]
    omega
  calc rate.toNat * elapsed.toNat
      ≤ rate.toNat * (1000 * (elapsed.toNat / 1000) + 1000) := by gcongr
    _ = 1000 * (elapsed.toNat / 1000 * rate.toNat) + 10 ^ 3 * rate.toNat := by ring
    _ < 1000 * (10 ^ 6 * (refill rate elapsed).toNat + 10 ^ 6) + 10 ^ 3 * rate.toNat := by gcongr
    _ = _ := by ring

/-- **What is earned is sound at every magnitude.**  It is never more than the rate times the time.  It
does not shrink when the rate or the time grows.  After a full second it is enough to fill the bucket.  And
below a second, unless the rate is beyond eighteen terabytes per second, it falls short of the rate times the
time by less than one token and what the rate earns in a microsecond. -/
theorem refill_is_sound (rate elapsed : UInt64) :
    (refill rate elapsed).toNat ≤ rate.toNat * elapsed.toNat / 10 ^ 9 ∧
      (∀ rate' elapsed', rate ≤ rate' → elapsed ≤ elapsed' →
        refill rate elapsed ≤ refill rate' elapsed') ∧
      (second ≤ elapsed → rate ≤ refill rate elapsed) ∧
      (elapsed < second → rate.toNat ≤ (2 ^ 64 - 1) / 10 ^ 6 →
        (rate.toNat * elapsed.toNat : ℚ) / 10 ^ 9 - (refill rate elapsed).toNat
          < 1 + (rate.toNat : ℚ) / 10 ^ 6) := by
  refine ⟨?_, fun rate' elapsed' hrate htime => ?_, fun hlong => ?_, fun hshort hrate => ?_⟩
  · exact (Nat.le_div_iff_mul_le (by decide)).mpr (refill_le rate elapsed)
  · exact UInt64.le_trans (refill_mono_rate hrate elapsed) (refill_mono_elapsed rate' htime)
  · rw [UInt64.le_iff_toNat_le] at hlong ⊢
    exact rate_le_refill hlong
  · have hless : (rate.toNat * elapsed.toNat : ℚ)
        < (refill rate elapsed).toNat * 10 ^ 9 + 10 ^ 9 + 10 ^ 3 * rate.toNat := by
      exact_mod_cast exact_lt_refill hrate (UInt64.lt_iff_toNat_lt.mp hshort)
    rw [sub_lt_iff_lt_add, div_lt_iff₀ (by norm_num)]
    linarith

/-- At the highest rate for which no product has to stop, a nanosecond before the second is over. -/
theorem refill_is_sound_before_a_second :
    (refill 18446744073709 999999999).toNat ≤ 18446744073709 * 999999999 / 10 ^ 9 ∧
      refill 18446744073709 999999999 ≤ refill 18446744073710 1000000000 ∧
      (18446744073710 : UInt64) ≤ refill 18446744073710 1000000000 ∧
      (18446744073709 * 999999999 : ℚ) / 10 ^ 9 - (refill 18446744073709 999999999).toNat
        < 1 + (18446744073709 : ℚ) / 10 ^ 6 := by
  obtain ⟨hmost, hmono, -, hleast⟩ := refill_is_sound 18446744073709 999999999
  exact ⟨hmost, hmono _ _ (by decide) (by decide),
    (refill_is_sound 18446744073710 1000000000).2.2.1 (by decide),
    by simpa using hleast (by decide) (by decide)⟩

end TokenBucket

end Shaping
