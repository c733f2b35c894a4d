import Shaping.Proofs.Allocator.Shares
import Shaping.Proofs.Allocator.Recovery

/-!
# How the bandwidth is divided

A run of the allocator brings every cap into its bounds and then lets each tier have its share of what there
is to take or to give (`redistribute_get`).  From there on the two halves of a run can be told apart by the
numbers alone: what is taken away is the excess, or all that can be taken, and a tier gives something up
only when the less important ones have nothing left to give; what is given is the headroom, or all that can
be given, and a tier gets something only when the more important ones have all they may have
(`divides_by_priority`).

Floors above upper bounds are no exception.  Such a tier has been brought to its floor, from where there is
nothing to take, and there is no way up to an upper bound that lies below.

A run does two things to a cap, and they are not merged into one: a cap may be written in the first step,
lose its odd bytes, and be brought back in the second to the number that it had.  Then it would not be the
same to the byte although its megabytes are.  This cannot happen, and the bounds are the reason.  A cap that
was outside them is brought to the nearest bound, and from there no move leads out again
(`redistribute_get_of_megabytes_eq`).
-/

set_option autoImplicit false

namespace Shaping

namespace RatePlan

/-- The upper bound of a tier in whole megabytes. -/
def upperMegabytes (plan : RatePlan) (t : Tier) : Nat := (plan.upperBound t).toNat / 1000000

/-- A number of megabytes brought into the bounds of a tier.  Where they contradict each other, the floor
wins. -/
def clampMegabytes (plan : RatePlan) (t : Tier) (m : Nat) : Nat :=
  max (min m (plan.upperMegabytes t)) (plan.floorMegabytes t)

variable (plan : RatePlan) (t : Tier)

theorem floor_le_clamp (m : Nat) : plan.floorMegabytes t ≤ plan.clampMegabytes t m := Nat.le_max_right _ _

theorem floorMegabytes_le : plan.floorMegabytes t ≤ Word.top.toNat / 1000000 :=
  Nat.div_le_div_right (Nat.le_sub_one_of_lt (plan.tiers.get t).least.toNat_lt_size)

theorem upperMegabytes_le : plan.upperMegabytes t ≤ Word.top.toNat / 1000000 :=
  Nat.div_le_div_right (Nat.le_sub_one_of_lt (plan.upperBound t).toNat_lt_size)

/-- What is in its bounds can be written in bytes. -/
theorem clampMegabytes_le (m : Nat) : plan.clampMegabytes t m ≤ Word.top.toNat / 1000000 := by
  have hfloor := plan.floorMegabytes_le t
  have hupper := plan.upperMegabytes_le t
  rw [clampMegabytes]
  omega

end RatePlan

namespace Allocator

/-- Where a run brings the tiers, given where they stand within their bounds and the average in megabytes. -/
def goal (plan : RatePlan) (average : Nat) (stood : Tier → Nat) : Tier → Nat :=
  let ceiling := plan.ceiling.toNat / 1000000
  if ceiling < average then lower plan.floorMegabytes (average - ceiling) stood
  else raise plan.upperMegabytes (ceiling - average) stood

variable {plan : RatePlan} {average : Nat} {stood : Tier → Nat}

theorem goal_of_excess (h : plan.ceiling.toNat / 1000000 < average) :
    goal plan average stood
      = lower plan.floorMegabytes (average - plan.ceiling.toNat / 1000000) stood := if_pos h

theorem goal_of_headroom (h : average ≤ plan.ceiling.toNat / 1000000) :
    goal plan average stood
      = raise plan.upperMegabytes (plan.ceiling.toNat / 1000000 - average) stood :=
  if_neg (Nat.not_lt.mpr h)

/-- No tier is brought above its upper bound, unless it stood there. -/
theorem goal_le (plan : RatePlan) (average : Nat) (stood : Tier → Nat) (t : Tier) :
    goal plan average stood t ≤ max (stood t) (plan.upperMegabytes t) := by
  rcases Nat.lt_or_ge (plan.ceiling.toNat / 1000000) average with hexcess | hheadroom
  · rw [goal_of_excess hexcess]
    exact Nat.le_trans (lower_le _ t) (Nat.le_max_left _ _)
  · rw [goal_of_headroom hheadroom]
    exact raise_le _ t

/-- No tier is brought below its floor. -/
theorem floor_le_goal (average : Nat) {t : Tier} (h : plan.floorMegabytes t ≤ stood t) :
    plan.floorMegabytes t ≤ goal plan average stood t := by
  rcases Nat.lt_or_ge (plan.ceiling.toNat / 1000000) average with hexcess | hheadroom
  · rw [goal_of_excess hexcess]
    exact floor_le_lower _ h
  · rw [goal_of_headroom hheadroom]
    exact Nat.le_trans h (le_raise _ t)

/-! ## A run

Words are left behind here.  Once the bounds, the caps and the amounts are the numbers that they stand for,
where a run leaves the tiers is a function of these numbers (`goal`), and what has been shown of shares
applies to it as it is. -/

variable (plan) (limiters : PerTier Limiter)

/-- Where the tiers stand once they are brought into their bounds. -/
def stands (t : Tier) : Nat := plan.clampMegabytes t (limiters.get t).megabytes

theorem toNat_clamped (t : Tier) : ((clamped plan limiters).get t).toNat = stands plan limiters t := by
  rw [clamped, PerTier.get_ofFn, Word.toNat_max, Word.toNat_min, toNat_floors, toNat_uppers, UInt64.toNat_div,
    toNat_megabyte]
  rfl

/-- To bring caps into their bounds is to bring each to where it is to stand. -/
theorem clampAll_get_eq (t : Tier) :
    (clampAll plan limiters).get t = (limiters.get t).standAt (stands plan limiters t) := by
  have hbytes : Word.mulSat ((clamped plan limiters).get t) megabyte
      = Word.clamp (stands plan limiters t * 1000000) := by
    rw [← toNat_clamped]
    rfl
  have hsame : (clamped plan limiters).get t = (limiters.get t).rate / megabyte
      ↔ (limiters.get t).megabytes = stands plan limiters t := by
    rw [← UInt64.toNat_inj, toNat_clamped, UInt64.toNat_div, toNat_megabyte]
    exact eq_comm
  rw [clampAll_get, Limiter.standAt, hbytes]
  simp only [hsame]

theorem counted_clampAll : Counted (clamped plan limiters) (clampAll plan limiters) :=
  megabytes_clampAll plan limiters

/-- **What a run does to a cap.**  It is brought into its bounds, and then to where its share takes it. -/
theorem redistribute_get (observed : UInt64) (t : Tier) :
    (redistribute plan observed limiters).get t
      = ((limiters.get t).standAt (stands plan limiters t)).standAt
          (goal plan (observed.toNat / 1000000) (stands plan limiters) t) := by
  have hceiling : (plan.ceiling / megabyte).toNat = plan.ceiling.toNat / 1000000 := by
    rw [UInt64.toNat_div, toNat_megabyte]
  have haverage : (observed / megabyte).toNat = observed.toNat / 1000000 := by
    rw [UInt64.toNat_div, toNat_megabyte]
  have hcounted := counted_clampAll plan limiters
  have hfloors : numbers (floors plan) = plan.floorMegabytes := funext (toNat_floors plan)
  have huppers : numbers (uppers plan) = plan.upperMegabytes := funext (toNat_uppers plan)
  have hclamped : numbers (clamped plan limiters) = stands plan limiters :=
    funext (toNat_clamped plan limiters)
  rw [redistribute, goal, ← clampAll_get_eq]
  by_cases hexcess : plan.ceiling / megabyte < observed / megabyte
  · have hle := UInt64.le_of_lt hexcess
    rw [if_pos hexcess, suppress_get _ _ hcounted, UInt64.toNat_sub_of_le _ _ hle]
    rw [UInt64.lt_iff_toNat_lt, hceiling, haverage] at hexcess
    rw [if_pos hexcess, hceiling, haverage, hfloors, hclamped]
  · have hle := UInt64.not_lt.mp hexcess
    rw [if_neg hexcess, recover_get _ _ hcounted, UInt64.toNat_sub_of_le _ _ hle]
    rw [UInt64.lt_iff_toNat_lt, hceiling, haverage] at hexcess
    rw [if_neg hexcess, hceiling, haverage, huppers, hclamped]

/-- **Where a run leaves the tiers.** -/
theorem megabytes_redistribute (observed : UInt64) (t : Tier) :
    ((redistribute plan observed limiters).get t).megabytes
      = goal plan (observed.toNat / 1000000) (stands plan limiters) t := by
  rw [redistribute_get]
  refine Limiter.megabytes_standAt _ ?_
  have hle := goal_le plan (observed.toNat / 1000000) (stands plan limiters) t
  have hstands : stands plan limiters t ≤ _ := plan.clampMegabytes_le t (limiters.get t).megabytes
  have hupper := plan.upperMegabytes_le t
  omega

/-- **A cap keeps its bytes as long as it keeps its megabytes.**  The way back to where it stood before is barred
by its bounds. -/
theorem redistribute_get_of_megabytes_eq {observed : UInt64} {t : Tier}
    (h : ((redistribute plan observed limiters).get t).megabytes = (limiters.get t).megabytes) :
    (redistribute plan observed limiters).get t = limiters.get t := by
  rw [megabytes_redistribute] at h
  have hle := goal_le plan (observed.toNat / 1000000) (stands plan limiters) t
  have hfloor : plan.floorMegabytes t ≤ goal plan (observed.toNat / 1000000) (stands plan limiters) t :=
    floor_le_goal _ (plan.floor_le_clamp t _)
  have hstood : stands plan limiters t = (limiters.get t).megabytes := by
    rw [stands, RatePlan.clampMegabytes] at hle ⊢
    omega
  rw [redistribute_get, h, hstood, Limiter.standAt_megabytes, Limiter.standAt_megabytes]

/-- Only the rate of a limiter is written. -/
theorem exists_redistribute_get (observed : UInt64) (t : Tier) :
    ∃ rate, (redistribute plan observed limiters).get t = (limiters.get t).withRate rate :=
  (settled_redistribute plan observed limiters t).exists_withRate

end Allocator

/-! ## The whole -/

namespace TierCaps

theorem adjust_limiters {plan : RatePlan} {caps : TierCaps} {now : UInt64} (h : caps.isSettled now = false)
    (ring : RateRing) : (caps.adjust plan ring now).limiters
      = Allocator.redistribute plan (ring.average now) caps.limiters := by
  simp only [adjust, h, Bool.false_eq_true, if_false]

/-- **The bandwidth is divided by priority.**  Say that the allocator runs, and that `stood` is where the tiers
stand once they are brought into their bounds.  Above the ceiling, what is taken away is the excess or all that is
above the floors; no tier gains, and a tier loses something only if those before it end at their floors.  Otherwise
what is given is the headroom or all that is below the upper bounds; no tier loses, and a tier gains something only
if those before it end at their upper bounds at least.  A cap that has as many megabytes as before is the same to
the byte, and nothing but its rate is ever written. -/
theorem divides_by_priority (plan : RatePlan) (caps : TierCaps) (ring : RateRing) (now : UInt64)
    (h : caps.isSettled now = false) :
    let after := (caps.adjust plan ring now).limiters
    let stood (t : Tier) := plan.clampMegabytes t (caps.limiters.get t).megabytes
    let stands (t : Tier) := (after.get t).megabytes
    let ceiling := plan.ceiling.toNat / 1000000
    let average := (ring.average now).toNat / 1000000
    (ceiling < average →
      Tier.total (fun t => stood t - stands t)
          = min (average - ceiling) (Tier.total fun t => stood t - plan.floorMegabytes t) ∧
        (∀ t, stands t ≤ stood t) ∧
        ∀ t t', [t', t].Sublist Tier.suppressOrder → stands t < stood t →
          stands t' = plan.floorMegabytes t') ∧
      (average ≤ ceiling →
        Tier.total (fun t => stands t - stood t)
            = min (ceiling - average) (Tier.total fun t => plan.upperMegabytes t - stood t) ∧
          (∀ t, stood t ≤ stands t) ∧
          ∀ t t', [t', t].Sublist Tier.recoverOrder → stood t < stands t →
            plan.upperMegabytes t' ≤ stands t') ∧
      (∀ t, stands t = (caps.limiters.get t).megabytes → after.get t = caps.limiters.get t) ∧
      ∀ t, (after.get t).tokens = (caps.limiters.get t).tokens ∧
        (after.get t).refilledAt = (caps.limiters.get t).refilledAt ∧
        (after.get t).lastDeparture = (caps.limiters.get t).lastDeparture := by
  intro after stood stands ceiling average
  have hafter : after = Allocator.redistribute plan (ring.average now) caps.limiters := adjust_limiters h ring
  have hstands : stands = Allocator.goal plan average stood := by
    funext t
    simp only [stands, hafter]
    exact Allocator.megabytes_redistribute plan caps.limiters _ t
  refine ⟨fun hexcess => ?_, fun hheadroom => ?_, fun t ht => ?_, fun t => ?_⟩
  · rw [hstands, Allocator.goal_of_excess hexcess]
    exact ⟨Allocator.total_lower _, Allocator.lower_le _,
      fun t t' hbefore hloses => Allocator.lower_eq_floor (plan.floor_le_clamp t' _) hbefore hloses⟩
  · rw [hstands, Allocator.goal_of_headroom hheadroom]
    exact ⟨Allocator.total_raise _, Allocator.le_raise _,
      fun t t' hbefore hgains => Allocator.upper_le_raise hbefore hgains⟩
  · simp only [stands, hafter] at ht ⊢
    exact Allocator.redistribute_get_of_megabytes_eq plan caps.limiters ht
  · rw [hafter]
    obtain ⟨rate, hrate⟩ := Allocator.exists_redistribute_get plan caps.limiters (ring.average now) t
    rw [hrate]
    exact ⟨rfl, rfl, rfl⟩

end TierCaps

/-! ## Cases

Five megabytes too much are observed.  The least important tier has two to give, the next one enough for the rest,
and online traffic is left alone. -/

namespace SomeExcess

def plan : RatePlan :=
  ⟨true, 100000000, 100000000, ⟨⟨40000000, 100000000⟩, ⟨10000000, 30000000⟩, ⟨10000000, 30000000⟩⟩⟩

/-- Some of the caps have odd bytes. -/
def caps : TierCaps := ⟨0, ⟨.idle 100000007, .idle 30500000, .idle 12000000⟩⟩

/-- One epoch makes up for all of the average. -/
def ring (start : UInt64) : RateRing := ⟨.blank, RateRing.blank.slots.set 0 ⟨1, start, 1050000000⟩⟩

end SomeExcess

section

open SomeExcess

/-- The second tier loses something, so the last one ends at its floor; and the first one keeps its odd bytes. -/
theorem TierCaps.divides_by_priority_above_ceiling :
    let after := (caps.adjust plan (ring 0) second).limiters
    caps.isSettled second = false ∧ (after.get .l1).megabytes < 30 ∧
      Tier.total (fun t => plan.clampMegabytes t (caps.limiters.get t).megabytes - (after.get t).megabytes) = 5 ∧
      (after.get .l2).megabytes = plan.floorMegabytes .l2 ∧ after.get .l0 = caps.limiters.get .l0 := by
  intro after
  have hruns : caps.isSettled second = false := by decide
  have hloses : (after.get .l1).megabytes < 30 := by decide
  obtain ⟨hexcess, -, hkept, -⟩ := divides_by_priority plan caps (ring 0) second hruns
  obtain ⟨htotal, -, hfirst⟩ := hexcess (by decide)
  exact ⟨hruns, hloses, htotal.trans (by decide), hfirst .l1 .l2 (by decide) hloses, hkept .l0 (by decide)⟩

end

end Shaping
