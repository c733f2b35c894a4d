import Shaping.Proofs.Shaper.TierCaps
import Shaping.Proofs.Shaper.Windows

/-!
# The upper bound of a tier holds

The cap of a tier moves all the time, but the bookkeeping of its limiter stays: the limiter of a tier sees
one course of offers (`course_tier`), in which nothing is changed from one to the next but the rate.  The
rate is never above the upper bound of the tier (`Held`), so a tier gets no more than that; and if its
minimum is a megabyte per second at least, the rate is never so low that a bucket does not limit.

The first packet sets the caps up and thereby puts fresh limiters in place, so what the limiter of a tier is
before that is what it would be set up as (`limiterOf`).

This is where it pays that a course allows for changes of the rate.  The allocator changes nothing but
rates, and caps that are set up are not set up again, so a packet leaves the limiter of every tier as it
answered, or as it was, up to the rate (`TierCaps.limiter_after`).  One step of the induction is then the
same for all packets: the offer is the next of the course if the packet asks the cap of this tier, and
otherwise nothing has happened to the limiter (`course_packet`).

The second gate is the last, and a packet leaves when it says.  So there is no slack in the bound for
pacers, unlike in that for entities.  But the packet comes from the first gate, which may have told it to
leave later, and it has to be known that this is a time at all (`departure_ne_never`): a pacer takes the
last of all times for none.
-/

set_option autoImplicit false

namespace Shaping

namespace TierCaps

/-- The limiter that the next packet of a tier meets. -/
def limiterOf (caps : TierCaps) (plan : RatePlan) (t : Tier) : Limiter :=
  (caps.setUp plan 0).limiters.get t

theorem limiters_setUp (caps : TierCaps) (plan : RatePlan) (now now' : UInt64) :
    (caps.setUp plan now).limiters = (caps.setUp plan now').limiters := by
  rw [setUp, setUp]
  split <;> rfl

theorem limiterOf_of_isSetUp {caps : TierCaps} (h : caps.isSetUp = true) (plan : RatePlan)
    (t : Tier) : caps.limiterOf plan t = caps.limiters.get t := by
  rw [limiterOf, setUp, if_pos h]

end TierCaps

/-- A limiter that had another rate before sees the same courses. -/
theorem Course.of_withRate {disc : Discipline} {l : Limiter} {rate : UInt64} {xs : List Offer}
    (h : Course disc (l.withRate rate) xs) : Course disc l xs :=
  h.mono l.rate

/-- What a gate lets pass may leave at a time that is one. -/
theorem departure_ne_never {disc : Discipline} {y : Offer} (hnow : Pacer.Early y.now)
    (hdep : Pacer.Early y.departure) (hpass : y.passes disc = true) :
    (y.answer disc).departure ≠ never := by
  cases disc with
  | tokenBucket => exact hdep.ne_never
  | pacer =>
    have hnear := (Pacer.leaves_near hnow hdep.ne_never hpass).2
    have hleaves : (y.leaves .pacer).toNat = max (y.answer .pacer).departure.toNat y.now.toNat :=
      Word.toNat_max _ _
    have hsoon : max y.departure.toNat y.now.toNat + Pacer.horizon.toNat < never.toNat := by
      have h1 : y.departure.toNat + Pacer.horizon.toNat < never.toNat := hdep
      have h2 : y.now.toNat + Pacer.horizon.toNat < never.toNat := hnow
      omega
    intro h
    rw [hleaves, h] at hnear
    omega

namespace Pipeline

variable (u : Pipeline)

/-! ## What a tier is asked

As for entities, the questions are picked out of the passages of a run by a function (`askTier`).  The
limiter in the question is the one that the caps have when the packet comes, so from a question one gets
back to the caps, about whose rates there is an invariant. -/

/-- The packets of a direction that are shaped in a tier. -/
def ofTier (d : Direction) (t : Tier) (x : Passage) : Bool :=
  x.packet.direction = d ∧ x.tier? u = some t

/-- What the cap of a tier is asked about a packet. -/
def askTier (d : Direction) (t : Tier) (x : Passage) : Option Offer :=
  if x.packet.direction = d then
    match x.tierOffer? u with
    | none => none
    | some (t', z) => if t = t' then some z else none
  else none

variable {u} {plan : RatePlan} {d : Direction} {t : Tier}

theorem askTier_eq_some_iff {x : Passage} {z : Offer} :
    u.askTier d t x = some z ↔ x.packet.direction = d ∧ x.tierOffer? u = some (t, z) := by
  rw [askTier]
  by_cases hd : x.packet.direction = d
  · rw [if_pos hd]
    cases hz : x.tierOffer? u with
    | none => simp
    | some z' =>
      obtain ⟨t', z'⟩ := z'
      by_cases ht : t = t'
      · simp [hd, ht]
      · simp [hd, ht, Ne.symm ht]
  · rw [if_neg hd]
    simp [hd]

/-- What the cap is asked when its tier is asked: about the packet, with the limiter of the tier. -/
theorem askTier_eq_some {x : Passage} {z : Offer} (h : u.askTier d t x = some z)
    (hplan : (x.shaper.lane d).plan = plan) :
    x.tier? u = some t ∧ z.limiter = (x.shaper.lane d).caps.limiterOf plan t ∧
      z.size = x.packet.length ∧ z.now = x.now ∧
      (Pacer.Early x.now → Pacer.Early x.packet.departure → z.departure ≠ never) := by
  obtain ⟨hd, hz⟩ := askTier_eq_some_iff.mp h
  obtain ⟨htier, -, hlim, hsize, hnow, hdep⟩ := Passage.tierOffer?_eq_some u hz
  rw [Passage.lane, hd, hplan] at hlim
  refine ⟨htier, ?_, hsize, hnow, fun hearly hearly' => ?_⟩
  · rw [hlim, TierCaps.limiterOf, TierCaps.limiters_setUp _ _ x.now 0]
  · rcases hdep with ⟨-, hdep⟩ | ⟨y, hy, hpass, hdep⟩
    · rw [hdep]
      exact hearly'.ne_never
    · obtain ⟨state, -, hstate⟩ := Option.map_eq_some_iff.mp hy
      rw [hdep]
      subst hstate
      exact departure_ne_never hearly hearly' hpass

/-! ## One course

The step is proved for a packet and any course that follows it.  This way the induction over events has
nothing to do in the case of a packet but to apply it. -/

/-- A packet goes on with the course of a tier, or does not concern it. -/
theorem course_packet {s : Shaper} (h : Held plan d s) {p : Packet} {now : UInt64}
    (hnow : now ≠ never) {xs : List Passage}
    (hcourse : Course (u.options.stages.get d).global
      (((u.step s (.packet p now)).lane d).caps.limiterOf plan t) (xs.filterMap (u.askTier d t))) :
    Course (u.options.stages.get d).global ((s.lane d).caps.limiterOf plan t)
      ((⟨s, p, now⟩ :: xs).filterMap (u.askTier d t)) := by
  rcases caps_packet_cases (u := u) (s := s) p now d with ⟨hsame, hnone⟩ |
    ⟨t', z, ring, hd, hz, hafter⟩
  · have hask : u.askTier d t ⟨s, p, now⟩ = none := by
      rw [Option.eq_none_iff_forall_ne_some]
      intro z hask
      obtain ⟨hd, hz⟩ := askTier_eq_some_iff.mp hask
      rw [hnone hd] at hz
      cases hz
    rw [List.filterMap_cons_none hask]
    rw [hsame] at hcourse
    exact hcourse
  · have hznow : z.now = now := (Passage.tierOffer?_eq_some u hz).2.2.2.2.1
    have hset : ((u.step s (.packet p now)).lane d).caps.isSetUp = true := by
      rw [hafter]
      exact TierCaps.isSetUp_after (hznow.symm ▸ hnow)
    rw [TierCaps.limiterOf_of_isSetUp hset, hafter] at hcourse
    obtain ⟨rate, hrate⟩ := (s.lane d).caps.limiter_after (u.options.stages.get d).global
      (s.lane d).plan ring t' z t
    rw [hrate] at hcourse
    have hcourse := hcourse.of_withRate
    by_cases ht : t = t'
    · subst ht
      have hask : u.askTier d t ⟨s, p, now⟩ = some z := askTier_eq_some_iff.mpr ⟨hd, hz⟩
      have hlim := (askTier_eq_some hask h.plan_eq).2.1
      rw [List.filterMap_cons_some hask]
      rw [if_pos rfl] at hcourse
      exact ⟨⟨_, hlim⟩, hcourse⟩
    · have hask : u.askTier d t ⟨s, p, now⟩ = none := by
        rw [Option.eq_none_iff_forall_ne_some]
        intro z' hask
        have hz' := (askTier_eq_some_iff.mp hask).2
        rw [hz] at hz'
        cases hz'
        exact ht rfl
      rw [List.filterMap_cons_none hask]
      rw [if_neg ht, h.plan_eq, TierCaps.limiters_setUp _ _ z.now 0] at hcourse
      exact hcourse

/-- **The limiter of a tier sees one course of offers**, but for its rate. -/
theorem course_tier (hplan : plan.Consistent) (events : List Event) {s : Shaper}
    (h : Held plan d s) (hcalls : u.KeepsPlan plan d s events)
    (hnow : ∀ x ∈ u.passages s events, x.now ≠ never) :
    Course (u.options.stages.get d).global ((s.lane d).caps.limiterOf plan t)
      ((u.passages s events).filterMap (u.askTier d t)) := by
  induction events generalizing s with
  | nil => trivial
  | cons e events ih =>
    cases e with
    | call c =>
      have hcaps := (Shaper.stable_caps d (s.lane d).caps).call (s := s) rfl c
      have hcourse := ih (held_call h hcalls.1) hcalls.2 hnow
      rw [hcaps] at hcourse
      exact hcourse
    | packet p now =>
      rw [passages, List.forall_mem_cons] at hnow
      have hcourse := ih (held_packet (u := u) hplan h p now) hcalls hnow.2
      exact course_packet h hnow.1 hcourse

/-! ## The bound

A law of limiters wants every rate in the course below one rate and not below another.  Both come from
`Held`: the upper bound of the tier, and the floor, which is a megabyte per second at least if the
minimum is. -/

/-- The rate at which a tier is limited is between a megabyte per second and its upper bound. -/
theorem rate_limiterOf {caps : TierCaps} (hplan : plan.Consistent)
    (h : caps.isSetUp = true → caps.Within plan) (hmin : megabyte ≤ (plan.tiers.get t).least) :
    TokenBucket.minimumRate ≤ (caps.limiterOf plan t).rate ∧
      (caps.limiterOf plan t).rate.toNat ≤ (plan.upperBound t).toNat := by
  obtain ⟨hlow, hhigh⟩ := TierCaps.within_setUp hplan h 0 t
  refine ⟨?_, hhigh⟩
  rw [UInt64.le_iff_toNat_le, toNat_megabyte] at hmin
  rw [RatePlan.floorMegabytes] at hlow
  rw [UInt64.le_iff_toNat_le, TokenBucket.minimumRate, toNat_megabyte]
  have : 1 ≤ (plan.tiers.get t).least.toNat / 10 ^ 6 := by omega
  exact Nat.le_trans (by omega) hlow

/-- A packet of the tier that is let go was let pass by the cap of the tier, and leaves when that says. -/
theorem exists_askTier {x : Passage} (h : Held plan d x.shaper) (hconf : plan.configured = true)
    (hof : u.ofTier d t x = true) (hpass : x.passes u = true) :
    ∃ z, u.askTier d t x = some z ∧ z.passes (u.options.stages.get d).global = true ∧
      x.leaves u = z.leaves (u.options.stages.get d).global := by
  obtain ⟨hd, ht⟩ := of_decide_eq_true hof
  have hplan : x.lane.plan.configured = true := by
    rw [Passage.lane, hd, h.plan_eq]
    exact hconf
  obtain ⟨z, hz, hzpass, hleaves⟩ := Passage.passes_tier u hpass ht hplan
  have hstages : x.stages u = u.options.stages.get d := by rw [Passage.stages, hd]
  rw [hstages] at hzpass hleaves
  exact ⟨z, askTier_eq_some_iff.mpr ⟨hd, hz⟩, hzpass, hleaves⟩

/-- **Token buckets**: in a window of time a tier gets no more than a bucket of its upper bound holds and
earns. -/
theorem bytesBetween_ofTier_le {s : Shaper} (hplan : plan.Consistent) (hs : Held plan d s)
    (hconf : plan.configured = true) (hmin : megabyte ≤ (plan.tiers.get t).least)
    {events : List Event} (hcalls : u.KeepsPlan plan d s events)
    (hnow : ∀ x ∈ u.passages s events, x.now ≠ never)
    (hstage : (u.options.stages.get d).global = .tokenBucket)
    (hsorted : (u.passages s events).Pairwise fun x y => x.now ≤ y.now) (t1 t2 : Nat) :
    u.bytesBetween (u.ofTier d t) t1 t2 (u.passages s events)
      ≤ (plan.upperBound t).toNat + (plan.upperBound t).toNat * (t2 - t1) / 10 ^ 9 := by
  have hheld := (held_run hplan events hs hcalls).2
  have hcourse := course_tier (t := t) hplan events hs hcalls hnow
  rw [hstage] at hcourse
  refine Nat.le_trans (bytesBetween_le t1 t2 fun x hx hof hpass => ?_)
    (TokenBucket.windowBytes_le t1 t2 hcourse (fun z hz => ?_) ?_)
  · obtain ⟨z, hask, hz, -⟩ := exists_askTier (hheld x hx) hconf hof hpass
    obtain ⟨-, -, hsize, hznow, -⟩ := askTier_eq_some hask (hheld x hx).plan_eq
    rw [hstage] at hz
    exact ⟨z, hask, hz, hsize, hznow⟩
  · obtain ⟨x, hx, hask⟩ := List.mem_filterMap.mp hz
    obtain ⟨-, hlim, -, hznow, -⟩ := askTier_eq_some hask (hheld x hx).plan_eq
    have hrate := rate_limiterOf hplan (hheld x hx).within hmin
    rw [← hlim] at hrate
    exact ⟨hrate.1, hrate.2, hznow ▸ hnow x hx⟩
  · refine List.pairwise_filterMap.mpr (hsorted.imp_of_mem fun {x x'} hx hx' hle z hz z' hz' => ?_)
    rw [(askTier_eq_some hz (hheld x hx).plan_eq).2.2.2.1,
      (askTier_eq_some hz' (hheld x' hx').plan_eq).2.2.2.1]
    exact hle

/-- **Pacers**: the packets of a tier take no longer to be sent at its upper bound than they are apart when
they leave. -/
theorem sendingTime_ofTier_le {s : Shaper} (hplan : plan.Consistent) (hs : Held plan d s)
    (hconf : plan.configured = true) (hmin : megabyte ≤ (plan.tiers.get t).least)
    {events : List Event} (hcalls : u.KeepsPlan plan d s events)
    (hearly : ∀ x ∈ u.passages s events, Pacer.Early x.now ∧ Pacer.Early x.packet.departure)
    (hstage : (u.options.stages.get d).global = .pacer) (a b : Nat) :
    u.sendingTime (u.ofTier d t) (plan.upperBound t) a b (u.passages s events) ≤ b - a := by
  have hheld := (held_run hplan events hs hcalls).2
  have hcourse := course_tier (t := t) hplan events hs hcalls fun x hx => (hearly x hx).1.ne_never
  rw [hstage] at hcourse
  have hpaces : ∀ z ∈ (u.passages s events).filterMap (u.askTier d t),
      Pacer.Paces (plan.upperBound t) z := by
    intro z hz
    obtain ⟨x, hx, hask⟩ := List.mem_filterMap.mp hz
    obtain ⟨-, hlim, -, hznow, hzdep⟩ := askTier_eq_some hask (hheld x hx).plan_eq
    obtain ⟨hlow, hhigh⟩ := rate_limiterOf hplan (hheld x hx).within hmin
    rw [← hlim] at hlow hhigh
    obtain ⟨hnow, hdep⟩ := hearly x hx
    refine ⟨fun hzero => ?_, hhigh, hznow ▸ hnow, hzdep hnow hdep⟩
    rw [hzero] at hlow
    exact absurd hlow (by decide)
  refine Nat.lt_succ_iff.mp (sendingTime_lt a b (Nat.zero_lt_one)
    (Pacer.pairwise_spaced hcourse hpaces) fun x hx hof hpass => ?_)
  obtain ⟨z, hask, hz, hleaves⟩ := exists_askTier (hheld x hx) hconf hof hpass
  obtain ⟨-, -, hsize, -, -⟩ := askTier_eq_some hask (hheld x hx).plan_eq
  rw [hstage] at hz hleaves
  exact ⟨z, hask, hz, hsize, by rw [hleaves], by rw [hleaves]; omega⟩

end Pipeline

/-- A plan with a minimum is one. -/
theorem BandwidthPlan.configured_of_least {plan : BandwidthPlan} {t : Tier}
    (h : megabyte ≤ (plan.tiers.get t).least) : plan.toRatePlan.configured = true := by
  by_cases hunset : plan.isUnset
  · have hplan : plan = unset := of_decide_eq_true hunset
    rw [hplan] at h
    cases t <;> exact absurd h (by decide)
  · rw [toRatePlan, Bool.not_eq_true _ |>.mp hunset]
    rfl

/-- **The upper bound of a tier holds**, however the allocator moves the cap below it. -/
theorem Shaper.tier_bound_holds (u : Pipeline) {n : Nat} {plans : PerDirection BandwidthPlan}
    {s : Shaper} (hwrite : (Shaper.empty n).call (.writePlans plans) = (.ok (), s)) {d : Direction}
    (honline : (plans.get d).tiers.l0.least ≤ (plans.get d).guaranteed) {t : Tier}
    (hmin : megabyte ≤ ((plans.get d).withDefaults.tiers.get t).least) (events : List Event)
    (hcalls : u.KeepsPlan (plans.get d).withDefaults.toRatePlan d s events)
    (hearly : ∀ x ∈ u.passages s events, Pacer.Early x.now ∧ Pacer.Early x.packet.departure) :
    let bound := (plans.get d).withDefaults.toRatePlan.upperBound t
    ((u.options.stages.get d).global = .tokenBucket →
      ((u.passages s events).Pairwise fun x y => x.now ≤ y.now) →
      ∀ t1 t2, u.bytesBetween (u.ofTier d t) t1 t2 (u.passages s events)
        ≤ bound.toNat + bound.toNat * (t2 - t1) / 10 ^ 9) ∧
    ((u.options.stages.get d).global = .pacer →
      ∀ a b, u.sendingTime (u.ofTier d t) bound a b (u.passages s events) ≤ b - a) := by
  have hplan := BandwidthPlan.consistent_of_check (plan_of_writePlans hwrite d).1 honline
  have hheld := held_of_writePlans hwrite d
  have hconf := BandwidthPlan.configured_of_least hmin
  exact ⟨fun hstage hsorted => Pipeline.bytesBetween_ofTier_le hplan hheld hconf hmin hcalls
      (fun x hx => (hearly x hx).1.ne_never) hstage hsorted,
    fun hstage => Pipeline.sendingTime_ofTier_le hplan hheld hconf hmin hcalls hearly hstage⟩

section

open OnePlan

/-- The first offline tier of one plan, with a bucket in one direction and a pacer in the other. -/
theorem Shaper.tier_bound_holds_of_one_plan :
    pipeline.bytesBetween (pipeline.ofTier .ingress .l1) 0 2000000000
        (pipeline.passages shaper (.packet (packet .ingress) 0 :: later .ingress))
          ≤ 30000000 + 30000000 * (2000000000 - 0) / 10 ^ 9 ∧
      pipeline.sendingTime (pipeline.ofTier .egress .l1) 30000000 0 2000000000
        (pipeline.passages shaper (.packet (packet .egress) 0 :: later .egress))
          ≤ 2000000000 - 0 :=
  ⟨(tier_bound_holds pipeline call_writePlans (d := .ingress) (by decide) (t := .l1) (by decide)
      (.packet (packet .ingress) 0 :: later .ingress) ⟨by decide, trivial⟩ (by decide)).1 rfl
      (by decide) 0 2000000000,
    (tier_bound_holds pipeline call_writePlans (d := .egress) (by decide) (t := .l1) (by decide)
      (.packet (packet .egress) 0 :: later .egress) ⟨by decide, trivial⟩ (by decide)).2 rfl
      0 2000000000⟩

end

end Shaping
