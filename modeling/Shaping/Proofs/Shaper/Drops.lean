import Shaping.Proofs.Limiter.Refusal
import Shaping.Proofs.Shaper.EntityLimit
import Shaping.Proofs.Shaper.TierCaps

/-!
# Who drops a packet, and what that costs

A packet is dropped at one of two gates, and there a limiter refuses it: the limit of its entity at the
first (`Passage.dropped_first`), the cap of its tier at the second (`Passage.dropped_second`).  A limiter
only refuses if it has a rate that it can enforce (`Offer.refused_of_drop`), and it is spared by what it
refuses (`Offer.spared_of_drop`): no tokens are taken, and the next packet has its turn when it would have
had it anyway.

But a packet gets to the second gate because the first limiter let it pass.  That limiter has paid with
tokens, or given away a turn, and is not paid back when the packet is dropped after all.  So a dropped
packet is free of charge only for the limiter that refuses it.

Both parts are proved for offers first, where there is no shaper yet, and then carried over to the two
gates.  It is clear which gate refused a packet from the verdict of the first one, since the second is not
asked after a refusal.  Nothing has to be said about runs: the law is about one packet and whatever shaper
it meets.

A bucket that refuses a packet has been refilled on the occasion, so what is spared is not the same limiter
but one with at least as many tokens.  For this it must not hold more than its rate to begin with, for a
refill also cuts off what is above.
-/

set_option autoImplicit false

namespace Shaping

/-! ## Refusals -/

/-- A limiter is not charged. -/
structure Limiter.Spared (before after : Limiter) : Prop where
  /-- No turn is given away. -/
  lastDeparture_eq : after.lastDeparture = before.lastDeparture
  /-- No tokens are taken. -/
  tokens_le : before.tokens ≤ after.tokens

namespace Offer

/-- A limiter refuses a packet, and it has a rate to do so. -/
structure Refused (d : Discipline) (y : Offer) : Prop where
  drop : (y.answer d).verdict = .drop
  rate_ne_zero : y.limiter.rate ≠ 0
  /-- Buckets of lower rates do not limit. -/
  minimumRate_le : d = .tokenBucket → TokenBucket.minimumRate ≤ y.limiter.rate

variable {d : Discipline} {y : Offer}

/-- **Only a limiter with a rate that it can enforce drops a packet.** -/
theorem refused_of_drop (h : (y.answer d).verdict = .drop) : y.Refused d := by
  refine ⟨h, fun hzero => ?_, ?_⟩
  · rw [answer, offer_of_rate_zero d hzero] at h
    cases h
  · rintro rfl
    exact (TokenBucket.offer_of_drop h).1

/-- **A limiter is spared by what it refuses.** -/
theorem spared_of_drop (htokens : y.limiter.tokens ≤ y.limiter.rate)
    (h : (y.answer d).verdict = .drop) : y.limiter.Spared (y.answer d).limiter := by
  cases d with
  | tokenBucket =>
    have hlook : (y.answer .tokenBucket).limiter = TokenBucket.lookedAt y.limiter y.now :=
      (TokenBucket.offer_of_drop h).2.2
    rw [hlook]
    exact ⟨rfl, TokenBucket.tokens_le_balance htokens y.now⟩
  | pacer =>
    rw [answer, Discipline.offer] at h ⊢
    rcases Pacer.offer_cases (refused_of_drop (d := .pacer) h).rate_ne_zero y.size y.departure y.now with
      ⟨hpass, -⟩ | ⟨hpass, -⟩ | ⟨hdrop, -⟩
    · rw [hpass] at h
      cases h
    · rw [hpass] at h
      cases h
    · rw [hdrop]
      exact ⟨rfl, UInt64.le_refl _⟩

end Offer

/-! ## The two gates -/

namespace Passage

variable {u : Pipeline} {x : Passage}

/-- A packet that the first gate drops is not asked about at the second. -/
theorem dropped_first (h : (x.entityOutcome u).verdict = .drop) :
    x.tierOffer? u = none ∧
      ∃ y, x.entityOffer? u = some y ∧ (y.answer (x.stages u).entity).verdict = .drop := by
  refine ⟨(tierOffer?_eq_none_iff u).mpr (Or.inl h), ?_⟩
  cases hy : x.entityOffer? u with
  | none =>
    rw [entityOutcome_of_none u hy] at h
    cases h
  | some y =>
    rw [entityOutcome_of_some u hy] at h
    exact ⟨y, rfl, h⟩

/-- A packet that is dropped although the first gate let it pass is refused at the second. -/
theorem dropped_second (h : (x.outcome u).verdict = .drop)
    (hpass : (x.entityOutcome u).verdict = .pass) :
    ∃ t z, x.tierOffer? u = some (t, z) ∧ (z.answer (x.stages u).global).verdict = .drop := by
  rw [outcome_eq] at h
  cases hz : x.tierOffer? u with
  | none =>
    rw [hz, Option.elim_none, hpass] at h
    cases h
  | some z =>
    rw [hz, Option.elim_some] at h
    exact ⟨z.1, z.2, rfl, h⟩

end Passage

namespace Pipeline

variable (u : Pipeline) {s : Shaper} {p : Packet} {now : UInt64}

/-- What a packet leaves of the limit of its entity. -/
theorem limiter_packet (hwell : s.WellFormed) {e : EntityId} {state : EntityState}
    (he : (⟨s, p, now⟩ : Passage).entity? u = some e) (hstate : s.entity? p.direction e = some state) :
    ∃ state', (u.step s (.packet p now)).entity? p.direction e = some state' ∧ state'.limiter =
      ((⟨state.limiter, p.length, p.departure, now⟩ : Offer).answer
        (u.options.stages.get p.direction).entity).limiter := by
  have hafter := u.entity?_packet hwell p now p.direction e
  dsimp only at hafter
  rw [if_pos ⟨rfl, he⟩, hstate, Option.map_some] at hafter
  exact ⟨_, hafter, (state.gate_spec _ _ _ _).2⟩

/-- **At the first gate**: the limit of the entity is spared, and the caps are not touched. -/
theorem spared_entity (hwell : s.WellFormed)
    (hdrop : ((⟨s, p, now⟩ : Passage).entityOutcome u).verdict = .drop) :
    ∃ e state state', (⟨s, p, now⟩ : Passage).entity? u = some e ∧
      s.entity? p.direction e = some state ∧
      (u.step s (.packet p now)).entity? p.direction e = some state' ∧
      (state.limiter.tokens ≤ state.limiter.rate → state.limiter.Spared state'.limiter) ∧
      ((u.step s (.packet p now)).lane p.direction).caps = (s.lane p.direction).caps := by
  obtain ⟨hnone, y, hy, hrefused⟩ := Passage.dropped_first hdrop
  obtain ⟨e, state, he, hstate, rfl⟩ := Passage.entityOffer?_eq_some u hy
  obtain ⟨state', hstate', hlimiter⟩ := u.limiter_packet hwell he hstate
  have hcaps := u.caps_packet (s := s) p now
  dsimp only at hcaps
  rw [hnone] at hcaps
  refine ⟨e, state, state', he, hstate, hstate', fun htokens => ?_, hcaps⟩
  rw [hlimiter]
  exact Offer.spared_of_drop htokens hrefused

/-- **At the second gate**: the cap of the tier is spared. -/
theorem spared_tier (hdrop : ((⟨s, p, now⟩ : Passage).outcome u).verdict = .drop)
    (hpass : ((⟨s, p, now⟩ : Passage).entityOutcome u).verdict = .pass) :
    ∃ t, (⟨s, p, now⟩ : Passage).tier? u = some t ∧ (s.lane p.direction).plan.configured = true ∧
      let met := ((s.lane p.direction).caps.setUp (s.lane p.direction).plan now).limiters.get t
      met.tokens ≤ met.rate →
        met.Spared (((u.step s (.packet p now)).lane p.direction).caps.limiters.get t) := by
  obtain ⟨t, z, hz, hrefused⟩ := Passage.dropped_second hdrop hpass
  obtain ⟨ht, hplan, hlimiter, -⟩ := Passage.tierOffer?_eq_some u hz
  refine ⟨t, ht, hplan, fun htokens => ?_⟩
  have hcaps := u.caps_packet (s := s) p now
  dsimp only at hcaps
  rw [hz] at hcaps
  obtain ⟨rate, hrate⟩ := (s.lane p.direction).caps.limiter_after
    (u.options.stages.get p.direction).global (s.lane p.direction).plan
    ((s.lane p.direction).ring.record p.length now) t z t
  rw [if_pos rfl] at hrate
  have hafter : ((u.step s (.packet p now)).lane p.direction).caps.limiters.get t
      = (z.answer (u.options.stages.get p.direction).global).limiter.withRate rate := by
    rw [hcaps]
    exact hrate
  have hmet : z.limiter
      = ((s.lane p.direction).caps.setUp (s.lane p.direction).plan now).limiters.get t := hlimiter
  rw [← hmet] at htokens
  obtain ⟨hlast, hle⟩ := Offer.spared_of_drop htokens hrefused
  rw [hafter, ← hmet]
  exact ⟨hlast, hle⟩

end Pipeline

/-- **A refusal takes nothing from the limiter that refuses.**  Neither does a packet that is refused by the
limit of its entity take anything from the caps of the direction.  But one that is refused by the cap of its
tier was let pass by the limit of its entity, if it has one, and this has been charged for it. -/
theorem Shaper.refusals_take_no_capacity (u : Pipeline) {s : Shaper} (hs : s.Reachable) (p : Packet)
    (now : UInt64) (hdrop : ((⟨s, p, now⟩ : Passage).outcome u).verdict = .drop) :
    let x : Passage := ⟨s, p, now⟩
    let after := u.step s (.packet p now)
    ((x.entityOutcome u).verdict = .drop →
      ∃ e state state', x.entity? u = some e ∧ s.entity? p.direction e = some state ∧
        after.entity? p.direction e = some state' ∧
        (state.limiter.tokens ≤ state.limiter.rate → state.limiter.Spared state'.limiter) ∧
        (after.lane p.direction).caps = (s.lane p.direction).caps) ∧
    ((x.entityOutcome u).verdict = .pass →
      (∃ t, x.tier? u = some t ∧ (s.lane p.direction).plan.configured = true ∧
        let met := ((s.lane p.direction).caps.setUp (s.lane p.direction).plan now).limiters.get t
        met.tokens ≤ met.rate → met.Spared ((after.lane p.direction).caps.limiters.get t)) ∧
      ∀ e state, x.entity? u = some e → s.entity? p.direction e = some state →
        let y : Offer := ⟨state.limiter, p.length, p.departure, now⟩
        y.passes (x.stages u).entity = true ∧ ∃ state', after.entity? p.direction e = some state' ∧
          state'.limiter = (y.answer (x.stages u).entity).limiter) := by
  intro x after
  refine ⟨u.spared_entity hs.wellFormed, fun hpass => ⟨u.spared_tier hdrop hpass, ?_⟩⟩
  intro e state he hstate y
  refine ⟨?_, u.limiter_packet hs.wellFormed he hstate⟩
  have hy : x.entityOffer? u = some y := by
    rw [Passage.entityOffer?_of_entity u he]
    exact congrArg (Option.map _) hstate
  rw [Passage.entityOutcome_of_some u hy] at hpass
  exact decide_eq_true hpass

/-! ## Cases

An entity whose bucket holds more than that of its tier. -/

namespace LargeEntity

/-- Every packet belongs to entity 7, and to the last tier. -/
def pipeline : Pipeline := ⟨.standard, .constant (some ⟨7, some .l2⟩)⟩

/-- A packet on the way in. -/
def packet (length : UInt64) : Packet := ⟨length, .ingress, 0, some ⟨.v4 0, .v4 0⟩, 3⟩

/-- The tier gets 30 megabytes per second at most, and the entity 50.  One byte has come in. -/
def shaper : Shaper :=
  pipeline.after (.empty 1) [.call (.writePlans (.const OnePlan.plan)),
    .call (.writeRates 7 (.const 50000000)), .packet (packet 1) 0]

theorem reachable : shaper.Reachable := Shaper.Reachable.after (.empty 1) pipeline _

end LargeEntity

section

open LargeEntity

/-- 40 megabytes at once are too much for the tier, whose bucket is spared, and 60 for the entity already,
so that the tiers do not notice. -/
theorem Shaper.refusals_take_no_capacity_when_large :
    ((shaper.lane .ingress).caps.limiters.get .l2).Spared
        (((pipeline.step shaper (.packet (packet 40000000) 0)).lane .ingress).caps.limiters.get .l2) ∧
      ((pipeline.step shaper (.packet (packet 60000000) 0)).lane .ingress).caps
        = (shaper.lane .ingress).caps := by
  obtain ⟨t, ht, -, hspared⟩ := ((refusals_take_no_capacity pipeline reachable (packet 40000000) 0
    (by decide)).2 (by decide)).1
  obtain ⟨e, state, state', -, -, -, -, hcaps⟩ :=
    (refusals_take_no_capacity pipeline reachable (packet 60000000) 0 (by decide)).1 (by decide)
  have htier : some Tier.l2 = some t := ht
  cases htier
  exact ⟨hspared (by decide), hcaps⟩

/-- It is not true that a dropped packet takes nothing at all.  What the cap of the tier refuses has been
taken out of the bucket of the entity before. -/
theorem Shaper.tier_drop_charges_entity :
    ¬ ∀ (u : Pipeline) (s : Shaper) (p : Packet) (now : UInt64), s.Reachable →
      ((⟨s, p, now⟩ : Passage).outcome u).verdict = .drop →
      (∀ e state state', (⟨s, p, now⟩ : Passage).entity? u = some e →
        s.entity? p.direction e = some state →
        (u.step s (.packet p now)).entity? p.direction e = some state' →
        state.limiter.tokens ≤ state.limiter.rate → state.limiter.Spared state'.limiter) ∧
      (∀ t, (⟨s, p, now⟩ : Passage).tier? u = some t →
        ((s.lane p.direction).caps.limiters.get t).tokens
          ≤ ((s.lane p.direction).caps.limiters.get t).rate →
        ((s.lane p.direction).caps.limiters.get t).Spared
          (((u.step s (.packet p now)).lane p.direction).caps.limiters.get t)) ∧
      (((⟨s, p, now⟩ : Passage).entityOutcome u).verdict = .drop →
        ((u.step s (.packet p now)).lane p.direction).caps = (s.lane p.direction).caps) := by
  intro h
  obtain ⟨hentity, -, -⟩ := h pipeline shaper (packet 40000000) 0 reachable (by decide)
  have hspared := hentity 7
    ⟨⟨50000000, 0, 49999999, never⟩, { packetsTotal := 1, bytesTotal := 1 }⟩
    ⟨⟨50000000, 0, 9999999, never⟩, { packetsTotal := 2, bytesTotal := 40000001 }⟩
    rfl (by decide) (by decide) (by decide)
  exact absurd hspared.tokens_le (by decide)

end

end Shaping
