import Shaping.Proofs.Allocator.Bounds

/-!
# No cap is lowered without overload

A run of the allocator first brings every cap into its bounds and then moves bandwidth.  As long as the
estimate, in whole megabytes per second, is not above the ceiling, it only gives; and giving sets a cap to
more megabytes than it had, or does not touch it.  So every cap ends up no lower than where its bounds put it
(`TierCaps.rate_le_rate_adjust`).

Odd bytes are no exception.  A cap that is raised is raised by one megabyte at least, which is more than all
the odd bytes that it loses.
-/

set_option autoImplicit false

namespace Shaping

namespace Allocator

variable {plan : RatePlan} {limiters : PerTier Limiter}

/-- Within its bounds a cap has the number of megabytes that the allocator counts with. -/
theorem megabytes_clampAll (plan : RatePlan) (limiters : PerTier Limiter) (t : Tier) :
    ((clampAll plan limiters).get t).rate.toNat / 1000000
      = ((clamped plan limiters).get t).toNat := by
  have hfits : Fits plan t ((clamped plan limiters).get t) := fits_clamped limiters
  rw [clampAll_get]
  split
  · rename_i hsame
    rw [hsame, UInt64.toNat_div, toNat_megabyte]
  · have hrate : ((limiters.get t).withRate
        (Word.mulSat ((clamped plan limiters).get t) megabyte)).rate.toNat
          = ((clamped plan limiters).get t).toNat * 1000000 := hfits.toNat_bytes
    rw [hrate, Nat.mul_div_cancel _ (by decide)]

/-- Giving keeps every cap at least where its bounds put it. -/
theorem le_rate_give {x : Transfer}
    (h : ∀ t, ((clampAll plan limiters).get t).rate ≤ (x.limiters.get t).rate) (t : Tier) :
    ∀ t', ((clampAll plan limiters).get t').rate
      ≤ ((x.give (uppers plan) (clamped plan limiters) t).limiters.get t').rate := by
  rcases give_cases (uppers plan) (clamped plan limiters) x t with hsame | ⟨m, hlow, hhigh, hset⟩
  · rw [hsame]
    exact h
  · intro t'
    rw [hset, setMegabytes_get]
    split
    · rename_i ht
      subst ht
      have hclamped : Fits plan t' ((clamped plan limiters).get t') := fits_clamped limiters
      have hfits : Fits plan t' m := ⟨Nat.le_trans hclamped.1 (Nat.le_of_lt hlow),
        Nat.le_trans (toNat_uppers plan t' ▸ hhigh) (Nat.le_max_right _ _)⟩
      have hbefore := megabytes_clampAll plan limiters t'
      rw [UInt64.le_iff_toNat_le, Limiter.withRate, hfits.toNat_bytes]
      omega
    · exact h t'

/-- Giving to one tier after the other keeps every cap at least where its bounds put it. -/
theorem le_rate_recover (headroom : UInt64) (t : Tier) :
    ((clampAll plan limiters).get t).rate
      ≤ ((recover headroom (uppers plan) (clamped plan limiters)
          (clampAll plan limiters)).get t).rate := by
  rw [recover]
  exact limiters_foldl (P := fun t l => ((clampAll plan limiters).get t).rate ≤ l.rate)
    (fun x t h => le_rate_give h t) Tier.recoverOrder
    (x := ⟨headroom, clampAll plan limiters⟩) (fun t => UInt64.le_refl _) t

/-- A run of the allocator that sees no overload lowers no cap. -/
theorem le_rate_redistribute {observed : UInt64}
    (h : observed.toNat / 1000000 ≤ plan.ceiling.toNat / 1000000) (t : Tier) :
    ((clampAll plan limiters).get t).rate ≤ ((redistribute plan observed limiters).get t).rate := by
  have hcalm : ¬ plan.ceiling / megabyte < observed / megabyte := by
    rw [UInt64.lt_iff_toNat_lt, UInt64.toNat_div, UInt64.toNat_div, toNat_megabyte]
    exact Nat.not_lt.mpr h
  rw [redistribute, if_neg hcalm]
  exact le_rate_recover _ t

end Allocator

namespace TierCaps

/-- The caps once they are brought into their bounds, which is what a run of the allocator does before it
moves any bandwidth.  While it is too early for a run they stay as they are. -/
def clampedAt (caps : TierCaps) (plan : RatePlan) (now : UInt64) : PerTier Limiter :=
  if caps.isSettled now then caps.limiters else Allocator.clampAll plan caps.limiters

/-- **Without overload no cap is lowered.** -/
theorem rate_le_rate_adjust (plan : RatePlan) (caps : TierCaps) (ring : RateRing) (now : UInt64)
    (h : (ring.average now).toNat / 1000000 ≤ plan.ceiling.toNat / 1000000) (t : Tier) :
    ((caps.clampedAt plan now).get t).rate ≤ ((caps.adjust plan ring now).limiters.get t).rate := by
  rw [clampedAt, adjust]
  split
  · exact UInt64.le_refl _
  · exact Allocator.le_rate_redistribute h t

end TierCaps

end Shaping
