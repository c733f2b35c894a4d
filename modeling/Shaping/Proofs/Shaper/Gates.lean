import Shaping.Shaper
import Shaping.Proofs.Limiter.Pacer
import Shaping.Proofs.Limiter.TokenBucket
import Shaping.Proofs.OpenTable.Entries

/-!
# What becomes of one packet

`Lane.process` takes a packet through counters, the ring, two gates and the allocator.  For the theory of
limits it is enough to know which limiters are asked, what they are asked, and what becomes of them.

* `route?` is whether the packet is shaped at all, and by whose limits;
* `entityOffer?` is the question at the first gate, `tierOffer?` the one at the second, if the packet gets
  that far;
* `process_spec` says that the packet ends as the last question was answered, and what is left of the plan,
  the caps, the ring and the entities.

A limiter of rate zero is not asked by the first gate, but had it been asked it would have let the packet
pass and stayed as it was (`offer_of_rate_zero`), so nothing has to be said of that case.

Questions come first and answers second, since the answer to a question is known from the theory of
limiters.  A question is an `Offer`, with the limiter as it was, so two packets that ask the same limiter
one after the other ask two offers of a course.  How the counters go on is left out of all that, and has a
theory of its own, which is about nothing else.

Each function of the code has one lemma that says what it leaves of the plan, of the caps, of the ring and
of the entities.  They are proved in the order in which a packet meets the functions, and each cites those
before it, so that no function is unfolded twice.
-/

set_option autoImplicit false

namespace Shaping

/-! ## Answers as outcomes

An answer has a limiter in it, and an outcome is what remains of it when the limiter has been put back. -/

/-- What an answer says about the packet. -/
def Admission.outcome (a : Admission) : Outcome := ⟨a.verdict, a.departure⟩

theorem Outcome.eq_of_pass {o : Outcome} (h : o.verdict = .pass) : o = ⟨.pass, o.departure⟩ := by
  cases o
  cases h
  rfl

/-- A limiter without rate is no limit. -/
theorem offer_of_rate_zero (d : Discipline) {l : Limiter} (h : l.rate = 0)
    (size departure now : UInt64) : d.offer l size departure now = ⟨.pass, departure, l⟩ := by
  cases d with
  | tokenBucket =>
    have hlow : l.rate < TokenBucket.minimumRate := h ▸ (by decide)
    simp only [Discipline.offer, TokenBucket.offer, if_pos hlow]
  | pacer => simp only [Discipline.offer, Pacer.offer, if_pos h]

/-- Changing the rate is no business of a packet. -/
theorem rate_offer (d : Discipline) (l : Limiter) (size departure now : UInt64) :
    (d.offer l size departure now).limiter.rate = l.rate := by
  cases d with
  | tokenBucket => exact TokenBucket.rate_offer l size now
  | pacer =>
    by_cases hrate : l.rate = 0
    · rw [offer_of_rate_zero .pacer hrate]
    · have hlast : ∃ last, (Pacer.offer l size departure now).limiter
          = { l with lastDeparture := last } := by
        rcases Pacer.offer_cases hrate size departure now with ⟨h, -⟩ | ⟨h, -⟩ | ⟨h, -⟩
        · exact ⟨_, congrArg Admission.limiter h⟩
        · exact ⟨_, congrArg Admission.limiter h⟩
        · exact ⟨_, congrArg Admission.limiter h⟩
      obtain ⟨last, hlast⟩ := hlast
      rw [Discipline.offer, hlast]

/-- The limiter of an entity is asked, whatever its rate. -/
theorem EntityState.gate_spec (e : EntityState) (d : Discipline) (size departure now : UInt64) :
    let x : Offer := ⟨e.limiter, size, departure, now⟩
    (e.gate d size departure now).1 = (x.answer d).outcome ∧
      (e.gate d size departure now).2.limiter = (x.answer d).limiter := by
  intro x
  rw [gate]
  split
  · rename_i hzero
    simp only [x, Offer.answer, offer_of_rate_zero d hzero, Admission.outcome]
    exact ⟨trivial, trivial⟩
  · exact ⟨rfl, rfl⟩

theorem EntityState.rate_gate (e : EntityState) (d : Discipline) (size departure now : UInt64) :
    (e.gate d size departure now).2.limiter.rate = e.limiter.rate := by
  rw [(e.gate_spec d size departure now).2, Offer.answer, rate_offer]

/-! ## The way of a packet

The definitions of this section say the same as the code with the state taken out: they are functions of a
lane to what a limiter is asked, and do not return a lane.  That the second gate is asked on the lane as the
first one left it makes no difference, because the first gate changes entities and counters only, and caps
and plan are all that the second question is about. -/

/-- Whose limits a packet meets. -/
structure Route where
  entity : Option EntityId
  tier : Option Tier

/-- The route of a packet, if it is shaped. -/
def route? (unresolved : UnresolvedPolicy) (owner : Option (Option Resolved)) (p : Packet) :
    Option Route :=
  match owner with
  | none => none
  | some resolved =>
    if resolved = none ∧ unresolved = .exempt then none
    else some ⟨resolved.map (·.entity), (resolved.bind (·.tier)).or (Tier.ofClass? p.classId)⟩

namespace Lane

/-- What the limit of the packet's entity is asked, if there is such a limit. -/
def entityOffer? (entity : Option EntityId) (size departure now : UInt64) (entities : EntityTable) :
    Option Offer :=
  (entity.bind entities.get?).map fun e => ⟨e.limiter, size, departure, now⟩

/-- What the first gate makes of a packet. -/
def entityOutcome (d : Discipline) (entity : Option EntityId) (size departure now : UInt64)
    (entities : EntityTable) : Outcome :=
  match entityOffer? entity size departure now entities with
  | none => ⟨.pass, departure⟩
  | some x => (x.answer d).outcome

/-- The entities after the first gate. -/
def entitiesAfter (d : Discipline) (entity : Option EntityId) (size departure now : UInt64)
    (entities : EntityTable) : EntityTable :=
  match entity with
  | none => entities
  | some id => (entities.visit id (EntityState.gate d size departure now)).2

theorem kept_entitiesAfter {Q : EntityTable → Prop} (hQ : OpenTable.Kept Q) {entities : EntityTable}
    (h : Q entities) (d : Discipline) (entity : Option EntityId) (size departure now : UInt64) :
    Q (entitiesAfter d entity size departure now entities) := by
  cases entity with
  | none => exact h
  | some id => exact hQ.visit _ id _ h

/-- What the cap of a tier is asked about a packet that wants to leave at `departure`, if there is such a
tier, and a plan that caps it. -/
def capOffer? (t : Option Tier) (size departure now : UInt64) (lane : Lane) : Option (Tier × Offer) :=
  match t with
  | none => none
  | some t =>
    if lane.plan.configured then
      some (t, ⟨(lane.caps.setUp lane.plan now).limiters.get t, size, departure, now⟩)
    else none

/-- What the cap of the packet's tier is asked, if the packet gets to it. -/
def tierOffer? (d : Discipline) (route : Route) (size departure now : UInt64) (lane : Lane) :
    Option (Tier × Offer) :=
  match entityOutcome d route.entity size departure now lane.entities with
  | ⟨.drop, _⟩ => none
  | ⟨.pass, departure⟩ => lane.capOffer? route.tier size departure now

/-- A packet gets to the cap of its tier if the first gate lets it pass, and then wants to leave when that
gate says. -/
theorem tierOffer?_eq_some_iff {d : Discipline} {route : Route} {size departure now : UInt64}
    {lane : Lane} {t : Tier} {z : Offer} :
    lane.tierOffer? d route size departure now = some (t, z) ↔
      ∃ departure', entityOutcome d route.entity size departure now lane.entities
          = ⟨.pass, departure'⟩ ∧
        route.tier = some t ∧ lane.plan.configured = true ∧
        z = ⟨(lane.caps.setUp lane.plan now).limiters.get t, size, departure', now⟩ := by
  rw [tierOffer?]
  generalize entityOutcome d route.entity size departure now lane.entities = o
  obtain ⟨verdict, departure'⟩ := o
  cases verdict with
  | drop => simp
  | pass =>
    cases htier : route.tier with
    | none => simp [capOffer?]
    | some t' =>
      by_cases hplan : lane.plan.configured = true
      · dsimp only
        rw [capOffer?, if_pos hplan]
        constructor
        · intro h
          cases h
          exact ⟨departure', rfl, rfl, hplan, rfl⟩
        · rintro ⟨departure'', ho, ht, -, rfl⟩
          cases ho
          cases ht
          rfl
      · simp [capOffer?, hplan]

end Lane

/-- The caps after one of them was asked. -/
def TierCaps.after (caps : TierCaps) (d : Discipline) (plan : RatePlan) (ring : RateRing) (t : Tier)
    (x : Offer) : TierCaps :=
  let caps := caps.setUp plan x.now
  let caps : TierCaps := ⟨caps.adjustedAt, caps.limiters.modify t fun _ => (x.answer d).limiter⟩
  if x.passes d then caps.adjust plan ring x.now else caps

namespace Lane

variable {lane : Lane}

/-! ## The gates

The cases of a proof are those of the function: is there an entity, has it an entry, what is the verdict.
In each of them both sides compute. -/

theorem entityGate_spec (d : Discipline) (entity : Option EntityId) (size departure now : UInt64) :
    let after := lane.entityGate d entity size departure now
    after.1 = entityOutcome d entity size departure now lane.entities ∧
      after.2.plan = lane.plan ∧ after.2.caps = lane.caps ∧ after.2.ring = lane.ring ∧
      after.2.entities = entitiesAfter d entity size departure now lane.entities := by
  obtain ⟨plan, caps, ring, counters, entities⟩ := lane
  cases entity with
  | none => exact ⟨rfl, rfl, rfl, rfl, rfl⟩
  | some id =>
    have hfst := entities.visit_fst id (EntityState.gate d size departure now)
    rw [entityOutcome, entityOffer?, Option.bind_some]
    simp only [entityGate, entitiesAfter]
    generalize entities.visit id (EntityState.gate d size departure now) = r at hfst
    obtain ⟨answer, after⟩ := r
    dsimp only at hfst
    cases he : entities.get? id with
    | none =>
      rw [he] at hfst
      subst hfst
      exact ⟨rfl, rfl, rfl, rfl, rfl⟩
    | some e =>
      rw [he, Option.map_some, (e.gate_spec d size departure now).1] at hfst
      subst hfst
      simp only [Option.map_some]
      split
      · exact ⟨rfl, rfl, rfl, rfl, rfl⟩
      · exact ⟨rfl, rfl, rfl, rfl, rfl⟩

theorem tierGate_spec (d : Discipline) (t : Option Tier) (size departure now : UInt64) :
    let after := lane.tierGate d t size departure now
    let asked := lane.capOffer? t size departure now
    after.1 = (asked.map fun (_, x) => (x.answer d).outcome).getD ⟨.pass, departure⟩ ∧
      after.2.plan = lane.plan ∧
      after.2.caps
        = (asked.map fun (t, x) => lane.caps.after d lane.plan lane.ring t x).getD lane.caps ∧
      after.2.ring = lane.ring ∧ after.2.entities = lane.entities := by
  cases t with
  | none => exact ⟨rfl, rfl, rfl, rfl, rfl⟩
  | some t =>
    by_cases hplan : lane.plan.configured
    · let x : Offer := ⟨(lane.caps.setUp lane.plan now).limiters.get t, size, departure, now⟩
      have hx : d.offer ((lane.caps.setUp lane.plan now).limiters.get t) size departure now
          = x.answer d := rfl
      have hpass : x.passes d = decide ((x.answer d).verdict = .pass) := rfl
      have hask : lane.capOffer? (some t) size departure now = some (t, x) := by
        rw [capOffer?, if_pos hplan]
      rw [hask]
      simp only [tierGate, if_pos hplan, hx, Option.map_some, Option.getD_some, TierCaps.after, hpass,
        Admission.outcome]
      generalize x.answer d = a
      obtain ⟨verdict, departure', limiter⟩ := a
      cases verdict with
      | pass => exact ⟨rfl, rfl, rfl, rfl, rfl⟩
      | drop => exact ⟨rfl, rfl, rfl, rfl, rfl⟩
    · simp only [tierGate, capOffer?, if_neg hplan]
      exact ⟨rfl, trivial, rfl, trivial, trivial⟩

/-! ## The whole way

Here the gates are put in a row.  What the first one returns is generalised before its verdict is split, so
that the second is about some lane of which four things are known, and not about a term that contains the
first gate. -/

theorem arrive_spec (size departure now : UInt64) :
    let after := lane.arrive size departure now
    after.plan = lane.plan ∧ after.caps = lane.caps ∧ after.ring = lane.ring.record size now ∧
      after.entities = lane.entities := ⟨rfl, rfl, rfl, rfl⟩

/-- What is left to do behind the second gate changes neither the outcome nor any limit. -/
theorem release_spec (requested : UInt64) (r : Outcome × Lane) :
    let after : Outcome × Lane := match r with
      | (⟨.drop, d⟩, lane) => (⟨.drop, d⟩, lane)
      | (⟨.pass, d⟩, lane) => (⟨.pass, d⟩, lane.release requested d)
    after.1 = r.1 ∧ after.2.plan = r.2.plan ∧ after.2.caps = r.2.caps ∧ after.2.ring = r.2.ring ∧
      after.2.entities = r.2.entities := by
  obtain ⟨⟨verdict, d⟩, after⟩ := r
  cases verdict with
  | drop => exact ⟨rfl, rfl, rfl, rfl, rfl⟩
  | pass =>
    simp only [release]
    split <;> exact ⟨trivial, rfl, rfl, rfl, rfl⟩

/-- How a packet on its route ends: as the last limiter answered that was asked. -/
def routeOutcome (stages : StageDisciplines) (route : Route) (size departure now : UInt64)
    (lane : Lane) : Outcome :=
  match lane.tierOffer? stages.entity route size departure now with
  | none => entityOutcome stages.entity route.entity size departure now lane.entities
  | some (_, x) => (x.answer stages.global).outcome

/-- The caps after a packet on its route. -/
def routeCaps (stages : StageDisciplines) (route : Route) (size departure now : UInt64)
    (lane : Lane) : TierCaps :=
  match lane.tierOffer? stages.entity route size departure now with
  | none => lane.caps
  | some (t, x) => lane.caps.after stages.global lane.plan (lane.ring.record size now) t x

/-- **A packet on its route.** -/
theorem shape_spec (stages : StageDisciplines) (route : Route) (size departure now : UInt64) :
    let after := lane.shape stages route.entity route.tier size departure now
    after.1 = lane.routeOutcome stages route size departure now ∧ after.2.plan = lane.plan ∧
      after.2.caps = lane.routeCaps stages route size departure now ∧
      after.2.ring = lane.ring.record size now ∧
      after.2.entities = entitiesAfter stages.entity route.entity size departure now lane.entities := by
  intro after
  obtain ⟨hplan, hcaps, hring, hents⟩ := lane.arrive_spec size departure now
  have hgate := (lane.arrive size departure now).entityGate_spec stages.entity route.entity size
    departure now
  rw [hplan, hcaps, hring, hents] at hgate
  simp only [after, shape, routeOutcome, routeCaps, tierOffer?]
  generalize (lane.arrive size departure now).entityGate stages.entity route.entity size departure now
    = r at hgate
  obtain ⟨o, gated⟩ := r
  obtain ⟨ho, hplan, hcaps, hring, hents⟩ := hgate
  dsimp only at ho hplan hcaps hring hents
  rw [← ho]
  obtain ⟨verdict, d⟩ := o
  cases verdict with
  | drop => exact ⟨rfl, hplan, hcaps, hring, hents⟩
  | pass =>
    have hask : gated.capOffer? route.tier size d now = lane.capOffer? route.tier size d now := by
      simp only [capOffer?, hplan, hcaps]
    obtain ⟨hout, hplan', hcaps', hring', hents'⟩ :=
      gated.tierGate_spec stages.global route.tier size d now
    rw [hask] at hout hcaps'
    rw [hplan, hcaps, hring] at hcaps'
    obtain ⟨hfst, hplan'', hcaps'', hring'', hents''⟩ := release_spec (max departure now)
      (gated.tierGate stages.global route.tier size d now)
    rw [hout] at hfst
    rw [hcaps'] at hcaps''
    dsimp only
    refine ⟨hfst.trans ?_, hplan''.trans (hplan'.trans hplan), hcaps''.trans ?_,
      hring''.trans (hring'.trans hring), hents''.trans (hents'.trans hents)⟩
    · cases lane.capOffer? route.tier size d now <;> rfl
    · cases lane.capOffer? route.tier size d now <;> rfl

/-! ## The decision

A packet that is not shaped has no route, and what is said about it is what is said of nothing happening. -/

/-- **A packet ends as the last limiter answered that was asked**; a packet that is not shaped passes. -/
theorem process_spec (stages : StageDisciplines) (unresolved : UnresolvedPolicy)
    (owner : Option (Option Resolved)) (p : Packet) (now : UInt64) :
    let after := lane.process stages unresolved owner p now
    let route := route? unresolved owner p
    after.1 = (match route with
      | none => ⟨.pass, p.departure⟩
      | some r => lane.routeOutcome stages r p.length p.departure now) ∧
    after.2.plan = lane.plan ∧
    after.2.caps = (match route with
      | none => lane.caps
      | some r => lane.routeCaps stages r p.length p.departure now) ∧
    after.2.ring = (match route with
      | none => lane.ring
      | some _ => lane.ring.record p.length now) ∧
    after.2.entities = (match route with
      | none => lane.entities
      | some r => entitiesAfter stages.entity r.entity p.length p.departure now lane.entities) := by
  obtain ⟨plan, caps, ring, counters, entities⟩ := lane
  cases owner with
  | none => exact ⟨rfl, rfl, rfl, rfl, rfl⟩
  | some resolved =>
    simp only [process, route?]
    split
    · exact ⟨rfl, rfl, rfl, rfl, rfl⟩
    · let counted : Lane := ⟨plan, caps, ring, counters.seen p.length, entities⟩
      exact counted.shape_spec stages
        ⟨resolved.map (·.entity), (resolved.bind (·.tier)).or (Tier.ofClass? p.classId)⟩ p.length
        p.departure now

end Lane

end Shaping
