import Shaping.Proofs.Limiter.Pacer
import Shaping.Proofs.Limiter.TokenBucket
import Shaping.Proofs.Shaper.TierCaps

/-!
# Tiers that no congestion can free

A limiter of too low a rate is no limiter: the discipline `Ignores` it, and lets every packet pass as if it
were not there.  How low that is depends on the discipline, but a megabyte per second is enough for both
(`Discipline.ignores_iff`, `Discipline.not_ignores`).

The allocator counts in whole megabytes, and so it can push a tier down to nothing whose minimum is below
one of them.  That is why such tiers are listed when a plan is checked (`BandwidthPlan.unshapedFloors`).
The others need no warning.  Their floor is one megabyte at least, and caps do not fall below the floor in
the course of any run, so there is always a limit for them (`TierCaps.never_ignored`).

That a limiter is ignored is defined by what it does and not by its rate.  The rate comes out as the reason,
in both directions; and for that a packet has to be found, for each discipline, which leaves its trace on a
limiter of sufficient rate.
-/

set_option autoImplicit false

namespace Shaping

/-! ## Limiters that are ignored -/

namespace Discipline

/-- Every packet passes as it is, and the limiter is not touched. -/
def Ignores (disc : Discipline) (l : Limiter) : Prop :=
  ∀ size departure now, disc.offer l size departure now = ⟨.pass, departure, l⟩

/-- Lower rates are no limit. -/
def leastRate : Discipline → UInt64
  | .tokenBucket => TokenBucket.minimumRate
  | .pacer => 1

/-- A bucket that limits is touched by a packet of one byte, at whatever time. -/
theorem not_ignores_tokenBucket {l : Limiter} (h : TokenBucket.minimumRate ≤ l.rate) :
    ¬ tokenBucket.Ignores l := by
  intro hignores
  obtain ⟨hsplit, htime⟩ := TokenBucket.offer_spec h 1 0 0
  have hanswer : (⟨l, 1, 0, 0⟩ : Offer).answer .tokenBucket = ⟨.pass, 0, l⟩ := hignores 1 0 0
  rw [Offer.passedBytes, Offer.passes, hanswer] at hsplit
  rw [hanswer] at htime
  have hused : l.refilledAt ≠ never := htime ▸ TokenBucket.refillTime_ne_never (by decide)
  have hbalance := TokenBucket.balance_le_tokens hused 0
  simp only [decide_true, if_true, UInt64.toNat_one, UInt64.toNat_zero, Nat.zero_sub, Nat.mul_zero,
    Nat.add_zero] at hsplit hbalance
  omega

/-- A pacer that limits keeps the time of the last packet, and so there are packets that touch it. -/
theorem not_ignores_pacer {l : Limiter} (h : l.rate ≠ 0) : ¬ pacer.Ignores l := by
  intro hignores
  have hkept : ∀ departure, (Pacer.offer l 0 departure 0).limiter.lastDeparture = l.lastDeparture :=
    fun departure => congrArg (·.limiter.lastDeparture) (hignores 0 departure 0)
  by_cases hidle : l.lastDeparture = never
  · have hfirst := hkept 0
    rw [Pacer.offer, if_neg h, if_pos hidle, hidle] at hfirst
    exact absurd hfirst (show max (0 : UInt64) 0 ≠ never by decide)
  · -- no turn comes after the last time that there is
    have hturn : Word.addSat l.lastDeparture (Pacer.transmissionTime 0 l.rate) ≤ max never 0 :=
      UInt64.le_iff_toNat_le.mpr (Nat.le_of_lt_succ (UInt64.toNat_lt_size _))
    have hlast := hkept never
    rw [Pacer.offer, if_neg h, if_neg hidle, if_pos hturn] at hlast
    exact hidle hlast.symm

/-- **What is ignored is ignored for its rate.** -/
theorem ignores_iff (disc : Discipline) (l : Limiter) : disc.Ignores l ↔ l.rate < disc.leastRate := by
  cases disc with
  | tokenBucket =>
    refine ⟨fun hignores => ?_, fun hlow size departure now => ?_⟩
    · by_contra hhigh
      exact not_ignores_tokenBucket (UInt64.not_lt.mp hhigh) hignores
    · have hrate : l.rate < TokenBucket.minimumRate := hlow
      simp only [offer, TokenBucket.offer, if_pos hrate]
  | pacer =>
    have hzero : l.rate < (1 : UInt64) ↔ l.rate = 0 := by
      rw [UInt64.lt_iff_toNat_lt, ← UInt64.toNat_inj, UInt64.toNat_one, UInt64.toNat_zero, Nat.lt_one_iff]
    refine ⟨fun hignores => ?_, fun hlow => offer_of_rate_zero .pacer (hzero.mp hlow)⟩
    by_contra hhigh
    exact not_ignores_pacer (fun hrate => hhigh (hzero.mpr hrate)) hignores

/-- No discipline ignores a megabyte per second. -/
theorem not_ignores (disc : Discipline) {l : Limiter} (h : megabyte ≤ l.rate) : ¬ disc.Ignores l := by
  rw [ignores_iff, UInt64.not_lt]
  have hleast : disc.leastRate ≤ megabyte := by cases disc <;> decide
  exact UInt64.le_trans hleast h

end Discipline

/-! ## Floors -/

namespace BandwidthPlan

/-- A tier that is not listed has a floor. -/
theorem megabyte_le_least {plan : BandwidthPlan} {t : Tier} (h : t ∉ plan.unshapedFloors) :
    megabyte ≤ (plan.tiers.get t).least := by
  have hall : t ∈ Tier.all := by cases t <;> decide
  refine UInt64.not_lt.mp fun hlow => h ?_
  rw [unshapedFloors, List.mem_filter]
  exact ⟨hall, decide_eq_true hlow⟩

end BandwidthPlan

/-- **A cap within its bounds is a limit**, if the tier is not listed. -/
theorem TierCaps.Within.megabyte_le {plan : BandwidthPlan} {caps : TierCaps}
    (h : caps.Within plan.toRatePlan) {t : Tier} (hlisted : t ∉ plan.unshapedFloors) :
    megabyte ≤ (caps.limiters.get t).rate := by
  have hleast := UInt64.le_iff_toNat_le.mp (BandwidthPlan.megabyte_le_least hlisted)
  have hfloor := (h t).1
  rw [RatePlan.floorMegabytes] at hfloor
  rw [UInt64.le_iff_toNat_le]
  rw [toNat_megabyte] at hleast ⊢
  have hone : 1 ≤ (plan.toRatePlan.tiers.get t).least.toNat / 1000000 :=
    (Nat.one_le_div_iff (by decide)).mpr hleast
  omega

/-- **Tiers that are not listed are never ignored.**  Under a plan that was written to an empty shaper, and
with every rewriting of it, the cap of such a tier is a megabyte per second at least from the moment on when
caps are set up, whatever packets come at whatever times; and so it is whenever it is asked about a packet. 
Neither discipline ignores it. -/
theorem TierCaps.never_ignored (u : Pipeline) {n : Nat} (plans : PerDirection BandwidthPlan) {s : Shaper}
    (d : Direction) (t : Tier) (earlier later : List Event)
    (hwrite : (Shaper.empty n).call (.writePlans plans) = (.ok (), s))
    (honline : (plans.get d).tiers.l0.least ≤ (plans.get d).guaranteed)
    (hlisted : t ∉ (plans.get d).withDefaults.unshapedFloors)
    (hcalls : u.KeepsPlan (plans.get d).withDefaults.toRatePlan d s (earlier ++ later))
    (hnow : ∀ x ∈ u.passages s (earlier ++ later), x.now ≠ never) :
    (((u.after s earlier).lane d).caps.isSetUp = true →
      let l := ((u.after s (earlier ++ later)).lane d).caps.limiters.get t
      megabyte ≤ l.rate ∧ ∀ disc : Discipline, ¬ disc.Ignores l) ∧
    ∀ x ∈ u.passages s (earlier ++ later), x.packet.direction = d →
      ∀ z, x.tierOffer? u = some (t, z) →
        megabyte ≤ z.limiter.rate ∧ ∀ disc : Discipline, ¬ disc.Ignores z.limiter := by
  have hplan := BandwidthPlan.consistent_of_check (Shaper.plan_of_writePlans hwrite d).1 honline
  obtain ⟨hend, hmeet⟩ := Pipeline.held_run hplan (earlier ++ later) (held_of_writePlans hwrite d) hcalls
  refine ⟨fun hset => ?_, fun x hx hdir z hz => ?_⟩
  · have hlater : ∀ x ∈ u.passages (u.after s earlier) later, x.now ≠ never := fun x hx =>
      hnow x (by rw [u.passages_append]; exact List.mem_append_right _ hx)
    have hstays := Pipeline.isSetUp_caps_after later hlater hset
    rw [← u.after_append] at hstays
    have hrate := (hend.within hstays).megabyte_le hlisted
    exact ⟨hrate, fun disc => disc.not_ignores hrate⟩
  · subst hdir
    obtain ⟨-, -, hlimiter, -⟩ := Passage.tierOffer?_eq_some u hz
    have hheld := hmeet x hx
    rw [Passage.lane, hheld.plan_eq] at hlimiter
    have hrate := (within_setUp hplan hheld.within x.now).megabyte_le hlisted
    rw [← hlimiter] at hrate
    exact ⟨hrate, fun disc => disc.not_ignores hrate⟩

/-! ## Cases

In the plan the offline tiers have floors of ten megabytes, and the allocator runs for the second packet. -/

section

open OnePlan

/-- The first offline tier is not listed, and it is asked about the packet that sets up the caps. -/
theorem TierCaps.never_ignored_of_one_plan :
    .l1 ∉ plan.withDefaults.unshapedFloors ∧
      (∀ disc : Discipline, ¬ disc.Ignores (((pipeline.after shaper
        ([.packet (packet .ingress) 0] ++ later .ingress)).lane .ingress).caps.limiters.get .l1)) ∧
      ∃ z, (⟨shaper, packet .ingress, 0⟩ : Passage).tierOffer? pipeline = some (.l1, z) ∧
        ∀ disc : Discipline, ¬ disc.Ignores z.limiter := by
  have hlisted : .l1 ∉ plan.withDefaults.unshapedFloors := by decide
  obtain ⟨hend, hoffers⟩ := TierCaps.never_ignored pipeline (.const plan) .ingress .l1
    [.packet (packet .ingress) 0] (later .ingress) call_writePlans (by decide) hlisted ⟨by decide, trivial⟩
    (by decide)
  obtain ⟨z, hz⟩ : ∃ z, (⟨shaper, packet .ingress, 0⟩ : Passage).tierOffer? pipeline = some (.l1, z) :=
    ⟨_, rfl⟩
  exact ⟨hlisted, (hend (by decide)).2, z, hz, (hoffers _ List.mem_cons_self rfl z hz).2⟩

end

end Shaping
