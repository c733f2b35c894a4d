import Shaping.Proofs.Allocator.Exact
import Shaping.Proofs.Limiter.Exact
import Shaping.Proofs.OpenTable.Exact
import Shaping.Proofs.Shaper.Run

/-!
# Packets in exact arithmetic

The way of a packet once more, with exact arithmetic all along and with an access by place wherever
something is kept in an array: the tiers, the faults that are counted, and the two directions.  Both ways
come to the same end (`Shaper.processExact_eq`), so a packet never meets a sum that is too large, a
difference below zero, a divisor zero or a place that is not there.

Of the shaper only one thing is presupposed, that its tables can be addressed.  Plans, caps, rings, limiters
and counters may be anything at all, also what no run leads to: a plan that is half written, an epoch that
begins in the future, more tokens than a bucket holds.

This is more than the claim for shapers that can come about, and it is easier to prove.  An invariant that
excludes such states would have to be shown for every packet and every call, and it would be of no use: that
a sum fits, or a divisor is not zero, follows from the lines around it, whatever the values are.  Only an
access to a table relies on something that was settled when the table was made.

The exact functions are written line by line like the others, so one can see that nothing which could trap
was left out.  An equation is proved by turning each exact operation into a plain one as it comes
(`pure_bind`), and splitting where the code branches on the answer.
-/

set_option autoImplicit false

namespace Shaping

/-! ## Accounts -/

/-- `bump` by the place of the fault. -/
def FaultCounts.bumpExact (c : FaultCounts) (f : Fault) : Except Trap FaultCounts := do
  let _ ← element c.toList.toArray f.index
  return c.bump f

namespace Counters

/-- `fault` by the place of the fault. -/
def faultExact (c : Counters) (f : Fault) : Except Trap Counters := do
  return { c with faults := ← c.faults.bumpExact f }

/-- Count a fault if it was met. -/
def faultIfExact (c : Counters) (met : Prop) [Decidable met] (f : Fault) : Except Trap Counters :=
  if met then c.faultExact f else pure c

/-- `refused` by the place of the fault. -/
def refusedExact (c : Counters) (bytes : UInt64) : Except Trap Counters :=
  (c.dropped bytes).faultExact .capacityExceeded

theorem faultExact_eq (c : Counters) (f : Fault) : c.faultExact f = pure (c.fault f) := by
  cases f <;> rfl

theorem faultIfExact_eq (c : Counters) (met : Prop) [Decidable met] (f : Fault) :
    c.faultIfExact met f = pure (if met then c.fault f else c) := by
  rw [faultIfExact, faultExact_eq, apply_ite pure]

theorem refusedExact_eq (c : Counters) (bytes : UInt64) :
    c.refusedExact bytes = pure (c.refused bytes) :=
  faultExact_eq _ _

end Counters

/-! ## Gates

A gate asks a limiter and looks at the answer.  The limiter has its own equation
(`Discipline.offerExact_eq`), and so has the allocator, hence what remains is the text of the gates. -/

/-- `gate` in exact arithmetic. -/
def EntityState.gateExact (discipline : Discipline) (size departure now : UInt64) (e : EntityState) :
    Except Trap (Outcome × EntityState) := do
  let counters := e.counters.seen size
  if e.limiter.rate = 0 then
    return (⟨.pass, departure⟩, ⟨e.limiter, ← counters.faultExact .rateUnconfigured⟩)
  else
    let a ← discipline.offerExact e.limiter size departure now
    match a.verdict with
    | .drop => return (⟨a.verdict, a.departure⟩, ⟨a.limiter, ← counters.refusedExact size⟩)
    | .pass =>
      let counters := if max departure now < a.departure then counters.paced else counters
      return (⟨a.verdict, a.departure⟩, ⟨a.limiter, counters⟩)

theorem EntityState.gateExact_eq (discipline : Discipline) (size departure now : UInt64)
    (e : EntityState) :
    e.gateExact discipline size departure now = pure (e.gate discipline size departure now) := by
  rw [gateExact, gate]
  dsimp only
  split
  · rw [Counters.faultExact_eq, pure_bind]
  · rw [Discipline.offerExact_eq, pure_bind]
    rcases discipline.offer e.limiter size departure now with ⟨- | -, turn, limiter⟩
    · rfl
    · dsimp only
      rw [Counters.refusedExact_eq, pure_bind]

namespace Lane

/-- `entityGate` in exact arithmetic. -/
def entityGateExact (discipline : Discipline) (entity : Option EntityId)
    (size departure now : UInt64) (lane : Lane) : Except Trap (Outcome × Lane) :=
  match entity with
  | none => return (⟨.pass, departure⟩, lane)
  | some id => do
    let ⟨plan, caps, ring, counters, entities⟩ := lane
    match ← entities.visitExact id (EntityState.gateExact discipline size departure now) with
    | (none, entities) => return (⟨.pass, departure⟩, ⟨plan, caps, ring, counters, entities⟩)
    | (some outcome, entities) =>
      match outcome.verdict with
      | .pass => return (outcome, ⟨plan, caps, ring, counters, entities⟩)
      | .drop => return (outcome, ⟨plan, caps, ring, ← counters.refusedExact size, entities⟩)

/-- `tierGate` in exact arithmetic. -/
def tierGateExact (discipline : Discipline) (tier : Option Tier) (size departure now : UInt64)
    (lane : Lane) : Except Trap (Outcome × Lane) :=
  match tier with
  | none => return (⟨.pass, departure⟩, lane)
  | some t => do
    let ⟨plan, caps, ring, counters, entities⟩ := lane
    if plan.configured then
      let caps ← caps.setUpExact plan now
      let limiter ← caps.limiters.getExact t
      let counters ← counters.faultIfExact (limiter.rate = 0) .rateUnconfigured
      let a ← discipline.offerExact limiter size departure now
      let limiters ← caps.limiters.modifyExact t fun _ => a.limiter
      let caps : TierCaps := ⟨caps.adjustedAt, limiters⟩
      match a.verdict with
      | .drop =>
        return (⟨.drop, a.departure⟩, ⟨plan, caps, ring, ← counters.refusedExact size, entities⟩)
      | .pass =>
        let caps ← caps.adjustExact plan ring now
        return (⟨.pass, a.departure⟩, ⟨plan, caps, ring, counters, entities⟩)
    else
      let counters ← counters.faultExact .configurationMissing
      return (⟨.pass, departure⟩, ⟨plan, caps, ring, counters.failedOpen, entities⟩)

/-- `arrive` in exact arithmetic. -/
def arriveExact (size departure now : UInt64) (lane : Lane) : Except Trap Lane := do
  let ⟨plan, caps, ring, counters, entities⟩ := lane
  let counters ← counters.faultIfExact (departure ≠ 0 ∧ departure < now) .clockSkew
  return ⟨plan, caps, ← ring.recordExact size now, counters, entities⟩

/-- `shape` in exact arithmetic. -/
def shapeExact (stages : StageDisciplines) (entity : Option EntityId) (tier : Option Tier)
    (size departure now : UInt64) (lane : Lane) : Except Trap (Outcome × Lane) := do
  let arrived ← lane.arriveExact size departure now
  match ← entityGateExact stages.entity entity size departure now arrived with
  | (⟨.drop, d⟩, lane) => return (⟨.drop, d⟩, lane)
  | (⟨.pass, d⟩, lane) =>
    match ← tierGateExact stages.global tier size d now lane with
    | (⟨.drop, d⟩, lane) => return (⟨.drop, d⟩, lane)
    | (⟨.pass, d⟩, lane) => return (⟨.pass, d⟩, lane.release (max departure now) d)

/-- `process` in exact arithmetic. -/
def processExact (stages : StageDisciplines) (unresolved : UnresolvedPolicy)
    (owner : Option (Option Resolved)) (p : Packet) (now : UInt64) (lane : Lane) :
    Except Trap (Outcome × Lane) := do
  let ⟨plan, caps, ring, counters, entities⟩ := lane
  let counters := counters.seen p.length
  match owner with
  | none =>
    let counters ← counters.faultExact .malformedPacket
    return (⟨.pass, p.departure⟩, ⟨plan, caps, ring, counters.failedOpen, entities⟩)
  | some resolved =>
    let lane : Lane := ⟨plan, caps, ring, counters, entities⟩
    if resolved = none ∧ unresolved = .exempt then return (⟨.pass, p.departure⟩, lane)
    else
      let tier := (resolved.bind (·.tier)).or (Tier.ofClass? p.classId)
      lane.shapeExact stages (resolved.map (·.entity)) tier p.length p.departure now

variable {lane : Lane} (h : lane.entities.Addressable)

include h in
theorem entityGateExact_eq (discipline : Discipline) (entity : Option EntityId)
    (size departure now : UInt64) :
    lane.entityGateExact discipline entity size departure now
      = pure (lane.entityGate discipline entity size departure now) := by
  cases entity with
  | none => rfl
  | some id =>
    rw [entityGateExact, entityGate, OpenTable.visitExact_eq h id
      (EntityState.gateExact_eq discipline size departure now), pure_bind]
    rcases lane.entities.visit id (EntityState.gate discipline size departure now) with
      ⟨- | ⟨- | -, d⟩, entities⟩
    · rfl
    · rfl
    · dsimp only
      rw [Counters.refusedExact_eq, pure_bind]

theorem tierGateExact_eq (lane : Lane) (discipline : Discipline) (tier : Option Tier)
    (size departure now : UInt64) :
    lane.tierGateExact discipline tier size departure now
      = pure (lane.tierGate discipline tier size departure now) := by
  cases tier with
  | none => rfl
  | some t =>
    rw [tierGateExact, tierGate]
    dsimp only
    split
    · rw [TierCaps.setUpExact_eq, pure_bind, PerTier.getExact_eq, pure_bind, Counters.faultIfExact_eq,
        pure_bind, Discipline.offerExact_eq, pure_bind, PerTier.modifyExact_eq, pure_bind]
      rcases discipline.offer ((lane.caps.setUp lane.plan now).limiters.get t) size departure now with
        ⟨- | -, turn, limiter⟩
      · dsimp only
        rw [TierCaps.adjustExact_eq, pure_bind]
      · dsimp only
        rw [Counters.refusedExact_eq, pure_bind]
    · rw [Counters.faultExact_eq, pure_bind]

theorem arriveExact_eq (lane : Lane) (size departure now : UInt64) :
    lane.arriveExact size departure now = pure (lane.arrive size departure now) := by
  rw [arriveExact, arrive, Counters.faultIfExact_eq, pure_bind, RateRing.recordExact_eq, pure_bind]

include h in
theorem shapeExact_eq (stages : StageDisciplines) (entity : Option EntityId) (tier : Option Tier)
    (size departure now : UInt64) :
    lane.shapeExact stages entity tier size departure now
      = pure (lane.shape stages entity tier size departure now) := by
  have harrived : (lane.arrive size departure now).entities.Addressable := h
  rw [shapeExact, shape, arriveExact_eq, pure_bind, entityGateExact_eq harrived, pure_bind]
  rcases (lane.arrive size departure now).entityGate stages.entity entity size departure now with
    ⟨⟨- | -, d⟩, gated⟩
  · dsimp only
    rw [tierGateExact_eq, pure_bind]
    rcases gated.tierGate stages.global tier size d now with ⟨⟨- | -, d'⟩, capped⟩ <;> rfl
  · rfl

include h in
theorem processExact_eq (stages : StageDisciplines) (unresolved : UnresolvedPolicy)
    (owner : Option (Option Resolved)) (p : Packet) (now : UInt64) :
    lane.processExact stages unresolved owner p now
      = pure (lane.process stages unresolved owner p now) := by
  obtain ⟨plan, caps, ring, counters, entities⟩ := lane
  cases owner with
  | none =>
    rw [processExact, process, Counters.faultExact_eq, pure_bind]
  | some resolved =>
    rw [processExact, process]
    dsimp only
    split
    · rfl
    · have hseen : (⟨plan, caps, ring, counters.seen p.length, entities⟩ : Lane).entities.Addressable := h
      exact shapeExact_eq hseen _ _ _ _ _ _

end Lane

/-! ## The shaper

Where the owner of an address is looked up in the directory, that is exact as well.  But a resolver may be
somebody else's, and then nothing is known about how it finds what it finds.  So the packet is followed for
any resolver that does not trap, and the directory is one of them (`ExactResolver.directory_eq`). -/

namespace PerDirection

variable {α β : Type}

/-- `get` by the place of the direction. -/
def getExact (p : PerDirection α) (d : Direction) : Except Trap α :=
  element #[p.ingress, p.egress] d.index

/-- `update` by the place of the direction. -/
def updateExact (p : PerDirection α) (d : Direction) (f : α → Except Trap (β × α)) :
    Except Trap (β × PerDirection α) := do
  let (b, a) ← f (← element #[p.ingress, p.egress] d.index)
  return (b, p.modify d fun _ => a)

theorem getExact_eq (p : PerDirection α) (d : Direction) : p.getExact d = pure (p.get d) := by
  cases d <;> rfl

theorem updateExact_eq (p : PerDirection α) (d : Direction) {f : α → Except Trap (β × α)}
    {g : α → β × α} (h : f (p.get d) = pure (g (p.get d))) :
    p.updateExact d f = pure (p.update d g) := by
  rw [updateExact, ← getExact, getExact_eq, pure_bind, h, pure_bind]
  cases d <;> rfl

end PerDirection

/-- A way to find the owner of an address in exact arithmetic. -/
abbrev ExactResolver := Directory → Direction → Address → Except Trap (Option Resolved)

namespace ExactResolver

/-- `Directory.resolve` in exact arithmetic. -/
def directory : ExactResolver := fun directory _ a => do
  match ← directory.getExact a.key with
  | none => return none
  | some entry =>
    if entry.entity = 0 then return none
    else return some ⟨entry.entity, Tier.ofClass? entry.classId⟩

/-- A way of somebody else's, of which it is only known what it finds. -/
def of (resolver : Resolver) : ExactResolver := fun directory d a => return resolver directory d a

theorem directory_eq {table : Directory} (h : table.Addressable) (d : Direction) (a : Address) :
    directory table d a = pure (Resolver.directory table d a) := by
  rw [directory, OpenTable.getExact_eq h, pure_bind, Resolver.directory, Directory.resolve]
  cases table.get? a.key with
  | none => rfl
  | some entry =>
    dsimp only
    split <;> rfl

end ExactResolver

namespace Shaper

/-- `process` in exact arithmetic. -/
def processExact (options : ShapingOptions) (resolver : ExactResolver) (s : Shaper) (p : Packet)
    (now : UInt64) : Except Trap (Verdict × Packet × Shaper) := do
  let owner ← p.localAddress?.mapM (resolver s.directory p.direction)
  let stages := options.stages.get p.direction
  let (outcome, lanes) ← s.lanes.updateExact p.direction
    (Lane.processExact stages options.unresolved owner p now)
  return (outcome.verdict, { p with departure := outcome.departure }, ⟨s.directory, lanes⟩)

/-- All tables of the shaper can be addressed. -/
abbrev Addressable (s : Shaper) : Prop := s.InTables OpenTable.Addressable OpenTable.Addressable

theorem addressable_of_create {n : Nat} {s : Shaper} (h : create n = .ok s) : s.Addressable := by
  rw [create] at h
  cases hcheck : OpenTable.checkCapacity n with
  | error trap => rw [hcheck] at h; cases h
  | ok _ =>
    rw [hcheck] at h
    cases h
    exact ⟨OpenTable.addressable_empty hcheck,
      fun d => by cases d <;> exact OpenTable.addressable_empty hcheck⟩

/-- A packet never traps if finding its owner does not. -/
theorem processExact_eq {s : Shaper} (h : s.Addressable) (options : ShapingOptions)
    {exact : ExactResolver} {resolver : Resolver} (p : Packet) (now : UInt64)
    (hresolve : ∀ a, exact s.directory p.direction a = pure (resolver s.directory p.direction a)) :
    s.processExact options exact p now = pure (s.process options resolver p now) := by
  have howner : p.localAddress?.mapM (exact s.directory p.direction)
      = pure (p.localAddress?.map (resolver s.directory p.direction)) := by
    cases p.localAddress? with
    | none => rfl
    | some a =>
      rw [Option.mapM_some, hresolve]
      rfl
  rw [processExact, howner, pure_bind]
  dsimp only
  rw [PerDirection.updateExact_eq _ _ (Lane.processExact_eq (h.entities p.direction) _ _ _ p now),
    pure_bind]
  rfl

/-- **The packet path never traps.**  A shaper that is made has tables that can be addressed, and whatever
happens to it, it keeps them.  And if a shaper has such tables, then whatever else there is in it, a packet
comes to its end in exact arithmetic, and to the same end, at whatever time it comes, however it is shaped and
whether its owner is found in the directory or elsewhere. -/
theorem packets_never_trap :
    (∀ n s, create n = .ok s → s.Addressable) ∧
    (∀ (u : Pipeline) (s : Shaper) (e : Event), s.Addressable → (u.step s e).Addressable) ∧
    ∀ s : Shaper, s.Addressable → ∀ (options : ShapingOptions) (p : Packet) (now : UInt64),
      s.processExact options .directory p now = .ok (s.process options .directory p now) ∧
      ∀ resolver : Resolver,
        s.processExact options (.of resolver) p now = .ok (s.process options resolver p now) :=
  ⟨fun _ _ => addressable_of_create,
    fun u _ e h => u.inTables_step OpenTable.kept_addressable OpenTable.kept_addressable h e,
    fun _ h options p now =>
      ⟨processExact_eq h options p now (ExactResolver.directory_eq h.directory p.direction),
        fun _ => processExact_eq h options p now fun _ => rfl⟩⟩

end Shaper

/-! ## Cases

A shaper in which nothing goes together: all words are at one end of their range or at the other. -/

namespace Disorder

def pipeline : Pipeline := ⟨.standard, .constant (some ⟨7, some .l2⟩)⟩

/-- The largest limit that there is, in both directions. -/
def limited : Shaper := pipeline.step (.empty 1) (.call (.writeRates 7 (.const Word.top)))

/-- Every tier has to get more than it may, and more than there is; the ring is in the future, and the
accounts are full. -/
def spoil (lane : Lane) : Lane where
  plan := ⟨true, 1, 0, .const ⟨Word.top, 0⟩⟩
  caps := ⟨0, .const ⟨Word.top, 0, Word.top, 0⟩⟩
  ring := ⟨⟨Word.top, 0, Word.top⟩, .replicate 10 ⟨Word.top, Word.top, Word.top⟩⟩
  counters := ⟨Word.top, Word.top, Word.top, Word.top, Word.top, Word.top,
    ⟨Word.top, Word.top, Word.top, Word.top, Word.top⟩⟩
  entities := lane.entities

def shaper : Shaper :=
  ⟨limited.directory, ⟨spoil limited.lanes.ingress, spoil limited.lanes.egress⟩⟩

/-- A packet of the largest length. -/
def packet : Packet := ⟨Word.top, .ingress, 1, some ⟨.v4 0, .v4 0⟩, 3⟩

end Disorder

section

open Disorder

/-- The packet passes both gates, and the allocator runs. -/
theorem Shaper.packets_never_trap_in_disorder :
    let after := (shaper.process .standard pipeline.resolver packet (Word.top - 1)).2.2
    shaper.processExact .standard (.of pipeline.resolver) packet (Word.top - 1)
        = .ok (.pass, packet, after) ∧ (after.lane .ingress).caps.adjustedAt = Word.top - 1 := by
  have hmade : (Shaper.empty 1).Addressable := packets_never_trap.1 1 _ rfl
  have hlimited : limited.Addressable := packets_never_trap.2.1 pipeline _ _ hmade
  have hspoiled : shaper.Addressable := by
    refine ⟨hlimited.directory, fun d => ?_⟩
    cases d with
    | ingress => exact hlimited.entities .ingress
    | egress => exact hlimited.entities .egress
  exact ⟨(packets_never_trap.2.2 shaper hspoiled .standard packet (Word.top - 1)).2 _, rfl⟩

end

end Shaping
