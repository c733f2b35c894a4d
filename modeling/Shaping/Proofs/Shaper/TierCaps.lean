import Shaping.Proofs.Control.Plans

/-!
# The caps of the tiers stay within their bounds

`Held` is what is true of a direction for as long as one plan is in force in it: once its caps are set up
they are within the bounds of the plan.  Setting them up, asking one of them about a packet and running the
allocator all keep that (`within_after`), no packet does anything else to caps (`held_packet`), and a call
may write the same plan again (`held_call`).

Being within the bounds needs a consistent plan.  That a run of the allocator corrects caps which are not,
counted in whole megabytes, needs nothing.

Before they are set up the caps are all zero, and zero is not within the bounds of a plan with minima.  So
the invariant cannot say that caps are within bounds; it says that they are if they are set up.  This is
enough to go on with, because the packet that asks a cap sets up all of them first, from the plan
(`within_setUp`).

A run keeps the invariant as soon as a packet does and a call does, and the call is where something is
presupposed: it may do anything but put another plan into force.  That is asked of the shaper after the call
and not of the call, so that a call that fails counts, and one that writes the plan of the other direction
too.

The allocator gets the caps as they are when the packet has passed, with one limiter changed.  Its theory is
about rates, so of that limiter only the rate matters, which no packet changes (`rate_offer`).
-/

set_option autoImplicit false

namespace Shaping

namespace TierCaps

variable {plan : RatePlan} {caps : TierCaps} {disc : Discipline} {ring : RateRing} {t : Tier}
  {z : Offer}

/-- The caps of a packet that asked one of them: that one is as it answered, the others are as they were,
but for rates. -/
theorem limiter_after (caps : TierCaps) (disc : Discipline) (plan : RatePlan) (ring : RateRing)
    (t : Tier) (z : Offer) (t' : Tier) : ∃ rate, (caps.after disc plan ring t z).limiters.get t'
    = (if t' = t then (z.answer disc).limiter
        else (caps.setUp plan z.now).limiters.get t').withRate rate := by
  have hget : ((caps.setUp plan z.now).limiters.modify t fun _ => (z.answer disc).limiter).get t'
      = if t' = t then (z.answer disc).limiter else (caps.setUp plan z.now).limiters.get t' := by
    split
    · rename_i ht
      rw [ht, PerTier.get_modify_self]
    · rename_i ht
      rw [PerTier.get_modify_of_ne _ ht]
  rw [← hget, after]
  split
  · rw [adjust]
    split
    · exact ⟨_, rfl⟩
    · exact (Allocator.settled_redistribute plan _ _ t').exists_withRate
  · exact ⟨_, rfl⟩

/-- **Asking a cap leaves all caps within their bounds.** -/
theorem within_after (hplan : plan.Consistent) (h : caps.isSetUp = true → caps.Within plan)
    (hz : z.limiter = (caps.setUp plan z.now).limiters.get t) :
    (caps.after disc plan ring t z).Within plan := by
  have hset := within_setUp hplan h z.now
  have hasked : TierCaps.Within plan ⟨(caps.setUp plan z.now).adjustedAt,
      (caps.setUp plan z.now).limiters.modify t fun _ => (z.answer disc).limiter⟩ := by
    intro t'
    by_cases ht : t' = t
    · subst ht
      rw [PerTier.get_modify_self, Offer.answer, rate_offer, hz]
      exact hset t'
    · rw [PerTier.get_modify_of_ne _ ht]
      exact hset t'
  rw [after]
  split
  · exact within_adjust hplan hasked ring z.now
  · exact hasked

theorem isSetUp_after (h : z.now ≠ never) : (caps.after disc plan ring t z).isSetUp = true := by
  have hset := isSetUp_setUp caps plan h
  rw [isSetUp] at hset ⊢
  rw [after]
  split
  · rw [adjust]
    split
    · exact hset
    · exact bne_iff_ne.mpr h
  · exact hset

end TierCaps

/-- One plan is in force in a direction, and the caps are within its bounds. -/
structure Held (plan : RatePlan) (d : Direction) (s : Shaper) : Prop where
  wellFormed : s.WellFormed
  plan_eq : (s.lane d).plan = plan
  within : (s.lane d).caps.isSetUp = true → (s.lane d).caps.Within plan

namespace Pipeline

variable (u : Pipeline) {plan : RatePlan} {d : Direction}

/-- The calls leave the plan of a direction in force. -/
def KeepsPlan (plan : RatePlan) (d : Direction) : Shaper → List Event → Prop :=
  u.EveryCall fun s c => ((s.call c).2.lane d).plan = plan

variable {u} {s : Shaper}

/-- What becomes of the caps of a direction when a packet comes. -/
theorem caps_packet_cases (p : Packet) (now : UInt64) (d : Direction) :
    let x : Passage := ⟨s, p, now⟩
    (((u.step s (.packet p now)).lane d).caps = (s.lane d).caps ∧
        (p.direction = d → x.tierOffer? u = none)) ∨
      ∃ t z ring, p.direction = d ∧ x.tierOffer? u = some (t, z) ∧
        ((u.step s (.packet p now)).lane d).caps
          = (s.lane d).caps.after (u.options.stages.get d).global (s.lane d).plan ring t z := by
  intro x
  by_cases hd : d = p.direction
  · subst hd
    have hcaps := u.caps_packet (s := s) p now
    dsimp only at hcaps
    rw [hcaps]
    cases hz : x.tierOffer? u with
    | none => exact Or.inl ⟨rfl, fun _ => rfl⟩
    | some z => exact Or.inr ⟨z.1, z.2, _, rfl, rfl, rfl⟩
  · exact Or.inl ⟨by rw [u.lane_packet_of_ne p now hd], fun h => absurd h.symm hd⟩

theorem held_packet (hplan : plan.Consistent) (h : Held plan d s) (p : Packet) (now : UInt64) :
    Held plan d (u.step s (.packet p now)) := by
  refine ⟨u.wellFormed_step h.wellFormed _, (u.plan_packet p now d).trans h.plan_eq, ?_⟩
  rcases caps_packet_cases (u := u) (s := s) p now d with ⟨hsame, -⟩ | ⟨t, z, ring, rfl, hz, hafter⟩
  · rw [hsame]
    exact h.within
  · rw [hafter, h.plan_eq]
    obtain ⟨-, -, hlim, -, hnow, -⟩ := Passage.tierOffer?_eq_some u hz
    rw [← hnow, Passage.lane, h.plan_eq] at hlim
    exact fun _ => TierCaps.within_after hplan h.within hlim

theorem held_call (h : Held plan d s) {c : Call} (hc : ((s.call c).2.lane d).plan = plan) :
    Held plan d (s.call c).2 := by
  have hcaps := (Shaper.stable_caps d (s.lane d).caps).call (s := s) rfl c
  refine ⟨Shaper.stable_wellFormed.call h.wellFormed c, hc, ?_⟩
  rw [hcaps]
  exact h.within

/-- **Caps are within their bounds in the course of every run** that leaves the plan in force. -/
theorem held_run (hplan : plan.Consistent) (events : List Event) (h : Held plan d s)
    (hcalls : u.KeepsPlan plan d s events) :
    Held plan d (u.after s events) ∧ ∀ x ∈ u.passages s events, Held plan d x.shaper :=
  u.invariant (P := Held plan d) (fun _ p now h => held_packet hplan h p now)
    (fun _ _ h hc => held_call h hc) events h hcalls

/-- **Caps stay set up**, at whatever times packets come. -/
theorem isSetUp_caps_after (events : List Event)
    (hnow : ∀ x ∈ u.passages s events, x.now ≠ never) (h : (s.lane d).caps.isSetUp = true) :
    ((u.after s events).lane d).caps.isSetUp = true := by
  induction events generalizing s with
  | nil => exact h
  | cons e events ih =>
    cases e with
    | packet p now =>
      rw [passages, List.forall_mem_cons] at hnow
      refine ih hnow.2 ?_
      rcases caps_packet_cases (u := u) (s := s) p now d with ⟨hsame, -⟩ | ⟨t, z, ring, -, hz, hafter⟩
      · rw [hsame]
        exact h
      · rw [hafter]
        refine TierCaps.isSetUp_after ?_
        rw [(Passage.tierOffer?_eq_some u hz).2.2.2.2.1]
        exact hnow.1
    | call c =>
      have hcaps := (Shaper.stable_caps d (s.lane d).caps).call (s := s) rfl c
      refine ih hnow ?_
      rw [step, hcaps]
      exact h

end Pipeline

/-- Writing plans to an empty shaper puts them into force. -/
theorem held_of_writePlans {n : Nat} {plans : PerDirection BandwidthPlan} {s : Shaper}
    (hwrite : (Shaper.empty n).call (.writePlans plans) = (.ok (), s)) (d : Direction) :
    Held (plans.get d).withDefaults.toRatePlan d s := by
  have hs : s = ((Shaper.empty n).call (.writePlans plans)).2 := by rw [hwrite]
  have hblank : ((Shaper.empty n).lane d).caps = .blank := by cases d <;> rfl
  have hcaps := (Shaper.stable_caps d .blank).call hblank (.writePlans plans)
  refine ⟨?_, (Shaper.plan_of_writePlans hwrite d).2, ?_⟩
  · rw [hs]
    exact Shaper.stable_wellFormed.call (Shaper.wellFormed_empty n) _
  · rw [hs, hcaps]
    exact fun hset => absurd hset (by decide)

/-- **Caps stay inside their bounds.**  Under a plan that was written to an empty shaper, and with every
rewriting of it, they do so from the moment on when they are set up, whatever packets come at whatever
times; and whatever the plan and the caps are, they do so, counted in whole megabytes, as soon as the
allocator has run. -/
theorem TierCaps.stay_inside_bounds :
    (∀ (u : Pipeline) (n : Nat) (plans : PerDirection BandwidthPlan) (s : Shaper) (d : Direction)
        (earlier later : List Event), (Shaper.empty n).call (.writePlans plans) = (.ok (), s) →
      (plans.get d).tiers.l0.least ≤ (plans.get d).guaranteed →
      u.KeepsPlan (plans.get d).withDefaults.toRatePlan d s (earlier ++ later) →
      (∀ x ∈ u.passages s (earlier ++ later), x.now ≠ never) →
      ((u.after s earlier).lane d).caps.isSetUp = true →
      ((u.after s (earlier ++ later)).lane d).caps.isSetUp = true ∧
        ((u.after s (earlier ++ later)).lane d).caps.Within
          (plans.get d).withDefaults.toRatePlan) ∧
    ∀ (plan : RatePlan) (caps : TierCaps) (ring : RateRing) (now : UInt64) (t : Tier),
      caps.isSettled now = false →
      (plan.tiers.get t).least.toNat / 1000000
          ≤ ((caps.adjust plan ring now).limiters.get t).rate.toNat / 1000000 ∧
        ((caps.adjust plan ring now).limiters.get t).rate.toNat / 1000000
          ≤ max ((plan.tiers.get t).least.toNat / 1000000) ((plan.upperBound t).toNat / 1000000) := by
  refine ⟨?_, fun plan caps ring now t h => megabytes_adjust plan caps ring now h t⟩
  intro u n plans s d earlier later hwrite honline hcalls hnow hset
  have hplan := BandwidthPlan.consistent_of_check (Shaper.plan_of_writePlans hwrite d).1 honline
  have hheld := (Pipeline.held_run hplan (earlier ++ later) (held_of_writePlans hwrite d) hcalls).1
  have hlater : ∀ x ∈ u.passages (u.after s earlier) later, x.now ≠ never := fun x hx =>
    hnow x (by rw [u.passages_append]; exact List.mem_append_right _ hx)
  have hstays : ((u.after s (earlier ++ later)).lane d).caps.isSetUp = true := by
    rw [u.after_append]
    exact Pipeline.isSetUp_caps_after later hlater hset
  exact ⟨hstays, hheld.within hstays⟩

/-! ## Cases

One plan, which is in force in both directions, and packets that belong to nobody. -/

namespace OnePlan

/-- A plan that leaves out what has a default. -/
def plan : BandwidthPlan :=
  ⟨100000000, 0, ⟨⟨0, 0⟩, ⟨10000000, 30000000⟩, ⟨10000000, 30000000⟩⟩⟩

/-- The class of a packet decides about its tier. -/
def pipeline : Pipeline := ⟨.standard, .constant none⟩

/-- The plan is written for both directions. -/
def shaper : Shaper := ((Shaper.empty 1).call (.writePlans (.const plan))).2

theorem call_writePlans :
    (Shaper.empty 1).call (.writePlans (.const plan)) = (.ok (), shaper) := rfl

/-- A packet of the first offline tier. -/
def packet (d : Direction) : Packet := ⟨1500, d, 0, some ⟨.v4 0, .v4 0⟩, 1⟩

/-- The plan is written once more, and later another packet comes. -/
def later (d : Direction) : List Event :=
  [.call (.writePlans (.const plan)), .packet (packet d) 2000000000]

end OnePlan

section

open OnePlan

/-- The allocator runs for the second packet; and it corrects caps of zero. -/
theorem TierCaps.stay_inside_bounds_of_one_plan :
    ((pipeline.after shaper ([.packet (packet .ingress) 0] ++ later .ingress)).lane
        .ingress).caps.Within plan.withDefaults.toRatePlan ∧
      10 ≤ ((TierCaps.blank.adjust plan.toRatePlan .blank 0).limiters.get .l1).rate.toNat / 1000000 :=
  ⟨(stay_inside_bounds.1 pipeline 1 (.const plan) shaper .ingress [.packet (packet .ingress) 0]
      (later .ingress) call_writePlans (by decide) ⟨by decide, trivial⟩ (by decide) (by decide)).2,
    (stay_inside_bounds.2 plan.toRatePlan .blank .blank 0 .l1 (by decide)).1⟩

end

end Shaping
