import Shaping.Proofs.Shaper.Drops

/-!
# The shaper fails open

Where there is nothing to go by, a packet passes.  That is so if its header cannot be read, if nobody is
known to own its address and such packets are exempt, and if it meets neither a limit nor a cap
(`FailsOpen`).  Such a packet leaves behind what it found, apart from accounts, and from the ring if it is a
packet that is shaped (`Undisturbed`).  Nothing is presupposed about the shaper for this, not even that its
tables are well-formed.

Of the three cases the first two are cases of the third, since a packet that is not shaped has neither an
entity nor a tier (`FailsOpen.unlimited`, `FailsOpen.uncapped`).  They are kept apart because they are what
one looks for.

The other way round, a packet that is dropped was refused by somebody: by the limit of its entity or by the
cap of its tier, in its direction, and at a rate that is one.

That limits are left alone is stated about the table and not about what is found in it: the tables are
compared when everything but the limiters has been taken out of their entries (`OpenTable.map_visit`).  This
is why they need not be well-formed.  A limiter of rate zero is asked like any other and stays as it was,
and that is the whole reason.
-/

set_option autoImplicit false

namespace Shaping

namespace Passage

variable (u : Pipeline) (x : Passage)

/-- The owner of the packet's address is not known, and such packets are not shaped. -/
def Exempt : Prop := x.owner u = some none ∧ u.options.unresolved = .exempt

/-- The packet belongs to nobody, or to an entity without a limit in this direction, or to one whose limit
has rate zero. -/
def Unlimited : Prop :=
  ∀ e state, x.entity? u = some e → x.shaper.entity? x.packet.direction e = some state →
    state.limiter.rate = 0

/-- The packet is in no tier, or its direction has no plan. -/
def Uncapped : Prop := x.tier? u = none ∨ x.lane.plan.configured = false

/-- There is nothing to go by in deciding about the packet. -/
inductive FailsOpen : Prop
  | malformed (h : x.packet.headers = none)
  | exempt (h : x.Exempt u)
  | ungated (hunlimited : x.Unlimited u) (huncapped : x.Uncapped u)

/-- The packet changes nothing but accounts in its own direction, and the ring there if it is shaped. -/
structure Undisturbed : Prop where
  directory : (x.decision u).2.2.directory = x.shaper.directory
  /-- The other direction stays as it is, with its accounts. -/
  others : ∀ d, d ≠ x.packet.direction → (x.decision u).2.2.lane d = x.shaper.lane d
  plan : ((x.decision u).2.2.lane x.packet.direction).plan = x.lane.plan
  caps : ((x.decision u).2.2.lane x.packet.direction).caps = x.lane.caps
  /-- The table of the entities is the same but for accounts. -/
  limiters : ((x.decision u).2.2.lane x.packet.direction).entities.map (·.limiter)
    = x.lane.entities.map (·.limiter)
  unshaped : x.packet.headers = none ∨ x.Exempt u →
    ((x.decision u).2.2.lane x.packet.direction).ring = x.lane.ring
  shaped : x.packet.headers ≠ none → ¬ x.Exempt u →
    ((x.decision u).2.2.lane x.packet.direction).ring = x.lane.ring.record x.packet.length x.now

variable {u x}

/-! ## Packets that are not shaped -/

theorem owner_eq_none_iff : x.owner u = none ↔ x.packet.headers = none := by
  simp [owner, Packet.localAddress?]

theorem route?_eq_none_iff : x.route? u = none ↔ x.packet.headers = none ∨ x.Exempt u := by
  rw [← owner_eq_none_iff (u := u), Exempt, route?]
  rcases x.owner u with - | - | resolved
  · simp [Shaping.route?]
  · simp [Shaping.route?]
  · simp [Shaping.route?]

theorem FailsOpen.unlimited (h : x.FailsOpen u) : x.Unlimited u := by
  rcases h with h | ⟨h, -⟩ | ⟨h, -⟩
  · intro e state he
    rw [entity?, owner_eq_none_iff.mpr h] at he
    cases he
  · intro e state he
    rw [entity?, h] at he
    cases he
  · exact h

theorem FailsOpen.uncapped (h : x.FailsOpen u) : x.Uncapped u := by
  rcases h with h | h | ⟨-, h⟩
  · left
    rw [tier?, route?_eq_none_iff.mpr (Or.inl h), Option.bind_none]
  · left
    rw [tier?, route?_eq_none_iff.mpr (Or.inr h), Option.bind_none]
  · exact h

/-! ## Packets that meet no limiter with a rate -/

theorem Uncapped.tierOffer?_eq_none (h : x.Uncapped u) : x.tierOffer? u = none :=
  (tierOffer?_eq_none_iff u).mpr (Or.inr h)

theorem Unlimited.entityOutcome_eq (h : x.Unlimited u) :
    x.entityOutcome u = ⟨.pass, x.packet.departure⟩ := by
  cases hy : x.entityOffer? u with
  | none => exact entityOutcome_of_none u hy
  | some y =>
    obtain ⟨e, state, he, hstate, rfl⟩ := entityOffer?_eq_some u hy
    rw [entityOutcome_of_some u hy, Offer.answer, offer_of_rate_zero _ (h e state he hstate)]
    rfl

/-- Limits without a rate stay as they are. -/
theorem Unlimited.map_limiter (h : x.Unlimited u) :
    ((x.decision u).2.2.lane x.packet.direction).entities.map (·.limiter)
      = x.lane.entities.map (·.limiter) := by
  have hents := u.entities_packet (s := x.shaper) x.packet x.now
  dsimp only at hents
  rw [decision, ← Pipeline.step, hents]
  cases he : x.entity? u with
  | none => rfl
  | some e =>
    refine OpenTable.map_visit _ fun state hstate => ?_
    rw [(state.gate_spec _ _ _ _).2, Offer.answer, offer_of_rate_zero _ (h e state he hstate)]

/-- **A packet that meets no limiter with a rate disturbs nothing.** -/
theorem undisturbed (hunlimited : x.Unlimited u) (huncapped : x.Uncapped u) : x.Undisturbed u := by
  obtain ⟨s, p, now⟩ := x
  have hcaps := u.caps_packet (s := s) p now
  have hring := u.ring_packet (s := s) p now
  dsimp only at hcaps hring
  rw [huncapped.tierOffer?_eq_none] at hcaps
  refine ⟨u.directory_packet s p now,
    fun d hd => u.lane_packet_of_ne p now hd, u.plan_packet p now _, hcaps, hunlimited.map_limiter,
    fun h => ?_, fun hheaders hexempt => ?_⟩
  · rw [route?_eq_none_iff.mpr h] at hring
    exact hring
  · have hsome : (⟨s, p, now⟩ : Passage).route? u ≠ none := fun hnone =>
      (route?_eq_none_iff.mp hnone).elim hheaders hexempt
    obtain ⟨route, hroute⟩ := Option.ne_none_iff_exists'.mp hsome
    rw [hroute] at hring
    exact hring

theorem outcome_of_ungated (hunlimited : x.Unlimited u) (huncapped : x.Uncapped u) :
    x.outcome u = ⟨.pass, x.packet.departure⟩ := by
  rw [outcome_eq, huncapped.tierOffer?_eq_none, Option.elim_none, hunlimited.entityOutcome_eq]

/-- Of a packet nothing but its departure is ever changed. -/
theorem packet_decision : (x.decision u).2.1 = { x.packet with departure := (x.outcome u).departure } := by
  obtain ⟨-, hpacket, -⟩ := x.shaper.process_spec u.options u.resolver x.packet x.now
  rw [outcome, decision, hpacket]

end Passage

/-- **The shaper fails open.**  Where there is nothing to go by a packet passes as it is, and disturbs
nothing.  And whatever is dropped was refused by the limit of its entity or the cap of its tier, which has
a rate. -/
theorem Shaper.fails_open (u : Pipeline) (x : Passage) :
    (x.FailsOpen u →
      (x.decision u).1 = .pass ∧ (x.decision u).2.1 = x.packet ∧ x.Undisturbed u) ∧
    ((x.decision u).1 = .drop →
      (∃ e state, x.entity? u = some e ∧ x.shaper.entity? x.packet.direction e = some state ∧
        Offer.Refused (x.stages u).entity
          ⟨state.limiter, x.packet.length, x.packet.departure, x.now⟩) ∨
      ∃ t departure, x.tier? u = some t ∧ x.lane.plan.configured = true ∧
        Offer.Refused (x.stages u).global
          ⟨(x.lane.caps.setUp x.lane.plan x.now).limiters.get t, x.packet.length, departure,
            x.now⟩) := by
  constructor
  · intro h
    have houtcome := Passage.outcome_of_ungated h.unlimited h.uncapped
    refine ⟨congrArg Outcome.verdict houtcome, ?_, Passage.undisturbed h.unlimited h.uncapped⟩
    rw [Passage.packet_decision, houtcome]
  · intro hdrop
    cases hfirst : (x.entityOutcome u).verdict with
    | drop =>
      left
      obtain ⟨-, y, hy, hrefused⟩ := Passage.dropped_first hfirst
      obtain ⟨e, state, he, hstate, rfl⟩ := Passage.entityOffer?_eq_some u hy
      exact ⟨e, state, he, hstate, Offer.refused_of_drop hrefused⟩
    | pass =>
      right
      obtain ⟨t, z, hz, hrefused⟩ := Passage.dropped_second hdrop hfirst
      obtain ⟨departure, -, ht, hplan, rfl⟩ := (Passage.tierOffer?_eq_some_iff u).mp hz
      exact ⟨t, departure, ht, hplan, Offer.refused_of_drop hrefused⟩

section

open OneEntity

/-- The same packet comes to a bucket that has just been emptied, once with a header that cannot be read and
once as it is.  The first time it passes, and the second time the bucket refuses it. -/
theorem Shaper.fails_open_when_unreadable :
    let emptied := pipeline.step shaper (.packet (packet .ingress) 0)
    let unreadable : Passage := ⟨emptied, { packet .ingress with headers := none }, 0⟩
    ((unreadable.decision pipeline).1 = .pass ∧ unreadable.Undisturbed pipeline) ∧
      ∃ state, emptied.entity? .ingress 7 = some state ∧
        Offer.Refused .tokenBucket ⟨state.limiter, 1000000, 0, 0⟩ := by
  intro emptied unreadable
  obtain ⟨hpass, -, hsame⟩ := (fails_open pipeline unreadable).1 (.malformed rfl)
  refine ⟨⟨hpass, hsame⟩, ?_⟩
  rcases (fails_open pipeline ⟨emptied, packet .ingress, 0⟩).2 (by decide) with
    ⟨e, state, he, hstate, hrefused⟩ | ⟨t, departure, ht, -⟩
  · have hseven : some (7 : EntityId) = some e := he
    cases hseven
    exact ⟨state, hstate, hrefused⟩
  · have hnone : (none : Option Tier) = some t := ht
    cases hnone

end

end Shaping
