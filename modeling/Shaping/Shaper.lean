import Shaping.Allocator
import Shaping.Counters
import Shaping.OpenTable
import Shaping.Options
import Shaping.Packet

/-!
# The shaper

A `Shaper` is all that is kept between packets: a `Directory`, which says to which entity an address
belongs, and for each direction a `Lane` with its bandwidth plan, the caps of its tiers, its rate
ring, its counters, and the limiters of its entities.  The two lanes share nothing, so traffic in one
direction never affects the other.

`Shaper.process` decides about one packet.  A packet passes two gates, in this order:

1. `EntityState.gate`, the limit of the entity that the packet's local address belongs to;
2. `Lane.tierGate`, the cap of the packet's tier.

Between its arrival and the gates the packet is counted and its bytes go into the rate ring, whatever
becomes of it.  A gate that cannot be applied lets the packet pass: the shaper fails open.  A refusal
at the first gate ends the matter, so the second gate and the allocator never see the packet.

Each gate may move the packet's departure into the future, and the second one starts from what the
first one asked for.  A packet counts as paced if in the end it leaves later than the later of what it
requested and now.
-/

set_option autoImplicit false

namespace Shaping

/-! ## State -/

/-- The limit of one entity in one direction, and its account. -/
structure EntityState where
  limiter : Limiter
  counters : Counters
  deriving DecidableEq

/-- An entity that was just entered into the table. -/
def EntityState.fresh : EntityState := ⟨.idle 0, .zero⟩

/-- What the directory knows about an address. -/
structure PodEntry where
  entity : EntityId
  classId : UInt32
  deriving DecidableEq

/-- An address that was just entered into the directory. -/
def PodEntry.fresh : PodEntry := ⟨0, 0⟩

/-- Whom an address belongs to. -/
abbrev Directory := OpenTable AddressKey PodEntry

/-- The limiters of the entities in one direction. -/
abbrev EntityTable := OpenTable EntityId EntityState

/-- The state of one direction. -/
structure Lane where
  plan : RatePlan
  caps : TierCaps
  ring : RateRing
  counters : Counters
  entities : EntityTable

/-- The state of the shaper. -/
structure Shaper where
  directory : Directory
  lanes : PerDirection Lane

namespace Lane

/-- A direction without plan, limits or traffic. -/
def empty (maxEntries : Nat) : Lane := ⟨.blank, .blank, .blank, .zero, .empty maxEntries⟩

/-- Meet a fault. -/
def fault (lane : Lane) (f : Fault) : Lane := { lane with counters := lane.counters.fault f }

end Lane

namespace Shaper

/-- A shaper without plans, limits or traffic. -/
def empty (maxEntries : Nat) : Shaper :=
  ⟨.empty maxEntries, ⟨.empty maxEntries, .empty maxEntries⟩⟩

/-- An empty shaper, if tables of this capacity can be addressed. -/
def create (maxEntries : Nat) : Except Trap Shaper :=
  (OpenTable.checkCapacity maxEntries).map fun _ => empty maxEntries

/-- The state of one direction. -/
def lane (s : Shaper) (d : Direction) : Lane := s.lanes.get d

end Shaper

/-! ## Whom a packet belongs to -/

/-- The answer to the question whom an address belongs to. -/
structure Resolved where
  entity : EntityId
  /-- The tier of the entity's traffic, if its class has one. -/
  tier : Option Tier
  deriving DecidableEq

namespace Directory

/-- The owner of an address.  An entry for entity zero is not complete and counts as none. -/
def resolve (directory : Directory) (a : Address) : Option Resolved :=
  match directory.get? a.key with
  | none => none
  | some entry =>
    if entry.entity = 0 then none else some ⟨entry.entity, Tier.ofClass? entry.classId⟩

end Directory

/-- A way to find the owner of an address. -/
abbrev Resolver := Directory → Direction → Address → Option Resolved

namespace Resolver

/-- Ask the directory. -/
def directory : Resolver := fun directory _ a => directory.resolve a

/-- Always give the same answer. -/
def constant (answer : Option Resolved) : Resolver := fun _ _ _ => answer

end Resolver

/-! ## The gates -/

/-- What a gate, or all of them, decided. -/
structure Outcome where
  verdict : Verdict
  /-- When the packet may leave. -/
  departure : UInt64
  deriving DecidableEq

/-- Ask the limiter of an entity about a packet, and keep the entity's account.  Without a limit the
packet passes. -/
def EntityState.gate (discipline : Discipline) (size departure now : UInt64) (e : EntityState) :
    Outcome × EntityState :=
  let counters := e.counters.seen size
  if e.limiter.rate = 0 then
    (⟨.pass, departure⟩, ⟨e.limiter, counters.fault .rateUnconfigured⟩)
  else
    let a := discipline.offer e.limiter size departure now
    let counters :=
      match a.verdict with
      | .drop => counters.refused size
      | .pass => if max departure now < a.departure then counters.paced else counters
    (⟨a.verdict, a.departure⟩, ⟨a.limiter, counters⟩)

namespace Lane

/-- Take a packet past the limit of its entity, if it has one. -/
def entityGate (discipline : Discipline) (entity : Option EntityId) (size departure now : UInt64)
    (lane : Lane) : Outcome × Lane :=
  match entity with
  | none => (⟨.pass, departure⟩, lane)
  | some id =>
    match lane with
    | ⟨plan, caps, ring, counters, entities⟩ =>
      match entities.visit id (EntityState.gate discipline size departure now) with
      | (none, entities) => (⟨.pass, departure⟩, ⟨plan, caps, ring, counters, entities⟩)
      | (some outcome, entities) =>
        match outcome.verdict with
        | .pass => (outcome, ⟨plan, caps, ring, counters, entities⟩)
        | .drop => (outcome, ⟨plan, caps, ring, counters.refused size, entities⟩)

/-- Take a packet past the cap of its tier, if it has one, and let the allocator run after it.
Without a plan the packet passes. -/
def tierGate (discipline : Discipline) (tier : Option Tier) (size departure now : UInt64)
    (lane : Lane) : Outcome × Lane :=
  match tier with
  | none => (⟨.pass, departure⟩, lane)
  | some t =>
    match lane with
    | ⟨plan, caps, ring, counters, entities⟩ =>
      if plan.configured then
        let caps := caps.setUp plan now
        let limiter := caps.limiters.get t
        let counters := if limiter.rate = 0 then counters.fault .rateUnconfigured else counters
        let a := discipline.offer limiter size departure now
        let caps : TierCaps := ⟨caps.adjustedAt, caps.limiters.modify t fun _ => a.limiter⟩
        match a.verdict with
        | .drop =>
          (⟨.drop, a.departure⟩, ⟨plan, caps, ring, counters.refused size, entities⟩)
        | .pass =>
          (⟨.pass, a.departure⟩, ⟨plan, caps.adjust plan ring now, ring, counters, entities⟩)
      else
        let counters := (counters.fault .configurationMissing).failedOpen
        (⟨.pass, departure⟩, ⟨plan, caps, ring, counters, entities⟩)

/-- Note the arrival of a packet that is going to be shaped. -/
def arrive (size departure now : UInt64) (lane : Lane) : Lane :=
  match lane with
  | ⟨plan, caps, ring, counters, entities⟩ =>
    let counters :=
      if departure ≠ 0 ∧ departure < now then counters.fault .clockSkew else counters
    ⟨plan, caps, ring.record size now, counters, entities⟩

/-- Note that a packet is let go, having been requested for one time and leaving at another. -/
def release (requested departure : UInt64) (lane : Lane) : Lane :=
  if requested < departure then { lane with counters := lane.counters.paced } else lane

/-- Take a packet past both gates. -/
def shape (stages : StageDisciplines) (entity : Option EntityId) (tier : Option Tier)
    (size departure now : UInt64) (lane : Lane) : Outcome × Lane :=
  match entityGate stages.entity entity size departure now (lane.arrive size departure now) with
  | (⟨.drop, d⟩, lane) => (⟨.drop, d⟩, lane)
  | (⟨.pass, d⟩, lane) =>
    match tierGate stages.global tier size d now lane with
    | (⟨.drop, d⟩, lane) => (⟨.drop, d⟩, lane)
    | (⟨.pass, d⟩, lane) => (⟨.pass, d⟩, lane.release (max departure now) d)

/-- Decide about a packet whose local address, if it has a readable one, was asked after already.
The tier is that of the owner's traffic, or else that of the packet's own class. -/
def process (stages : StageDisciplines) (unresolved : UnresolvedPolicy)
    (owner : Option (Option Resolved)) (p : Packet) (now : UInt64) (lane : Lane) : Outcome × Lane :=
  match lane with
  | ⟨plan, caps, ring, counters, entities⟩ =>
    let counters := counters.seen p.length
    match owner with
    | none =>
      (⟨.pass, p.departure⟩,
        ⟨plan, caps, ring, (counters.fault .malformedPacket).failedOpen, entities⟩)
    | some resolved =>
      let lane : Lane := ⟨plan, caps, ring, counters, entities⟩
      if resolved = none ∧ unresolved = .exempt then (⟨.pass, p.departure⟩, lane)
      else
        let tier := (resolved.bind (·.tier)).or (Tier.ofClass? p.classId)
        lane.shape stages (resolved.map (·.entity)) tier p.length p.departure now

end Lane

namespace Shaper

/-- Decide about a packet at time `now`.  Of the packet, only the departure may change. -/
def process (options : ShapingOptions) (resolver : Resolver) (s : Shaper) (p : Packet) (now : UInt64) :
    Verdict × Packet × Shaper :=
  match s with
  | ⟨directory, lanes⟩ =>
    let owner := p.localAddress?.map (resolver directory p.direction)
    let stages := options.stages.get p.direction
    match lanes.update p.direction (Lane.process stages options.unresolved owner p now) with
    | (outcome, lanes) =>
      (outcome.verdict, { p with departure := outcome.departure }, ⟨directory, lanes⟩)

end Shaper

end Shaping
