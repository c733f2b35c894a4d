import Shaping.Proofs.Control.Frames
import Shaping.Proofs.Shaper.Gates

/-!
# What happens to a shaper

Between the packets of a run the control plane is called, any of its operations at any time.  An `Event` is
a packet or a call, and a `Pipeline` runs through a list of them; what it makes of each packet is a
`Passage`, which knows the shaper that the packet met.

How a packet ends is said by the last limiter that was asked about it (`Passage.outcome_eq`), and so it is
known what let a packet pass that was let go (`Passage.passes_entity`, `Passage.passes_tier`).  What a
packet leaves behind is said for each part of the shaper on its own: for the caps and the ring of its
direction (`caps_packet`, `ring_packet`), and for the limit of an entity (`entity?_packet`).  The last of
these needs well-formed tables, which all shapers have that can come about (`Reachable.wellFormed`).  What
every event keeps a run keeps (`Pipeline.invariant`).

It would be shorter to have one equation for the whole shaper after a packet.  But no law is about all of
it, and whoever used the equation would have to open it and look past the other parts.  With one equation
for each part a law about limits of entities never mentions caps, and one about caps never mentions tables.

That packets and calls come in any order is no generality for its own sake.  A limit may be set while it is
in use, and then what the packets before have made of it and of its account is what the call finds.
-/

set_option autoImplicit false

namespace Shaping

/-! ## Calls

The operations of the control plane are one type, so that a run can be a list.  A call is what it leaves
behind, no matter whether it fails, because the packets that come next are shaped by that. -/

/-- A call of the control plane. -/
inductive Call where
  | writePlans (plans : PerDirection BandwidthPlan)
  | writePod (pod : Pod)
  | deletePod (pod : Pod)
  | writeRates (entity : EntityId) (rates : PerDirection UInt64)
  | deleteRates (entity : EntityId)
  | apply (config : Config)

/-- What a call does. -/
def Call.control : Call → Control Unit
  | .writePlans plans => Control.writePlans plans
  | .writePod pod => Control.writePod pod
  | .deletePod pod => Control.deletePod pod
  | .writeRates entity rates => Control.writeRates entity rates
  | .deleteRates entity => Control.deleteRates entity
  | .apply config => Control.apply config

/-- Call the control plane: how it went, and the shaper afterwards in either case. -/
def Shaper.call (s : Shaper) (c : Call) : Except Failure Unit × Shaper :=
  match c.control.run.run ⟨s, #[]⟩ with
  | (result, after) => (result, after.shaper)

/-- What an operation leads to, the call of it leads to. -/
theorem Shaper.call_leads {P Q : Shaper → Prop} {c : Call} (h : Control.Leads P Q c.control)
    {s : Shaper} (hs : P s) : Q (s.call c).2 :=
  h ⟨s, #[]⟩ hs

/-- What every operation keeps, every call keeps. -/
theorem Stable.call {P : Shaper → Prop} (h : Stable (fun _ _ => True) P) {s : Shaper} (hs : P s)
    (c : Call) : P (s.call c).2 := by
  refine Shaper.call_leads (Q := P) ?_ hs
  cases c with
  | writePlans plans => exact h.writePlans plans
  | writePod pod => exact h.writePod fun _ => trivial
  | deletePod pod => exact h.deletePod pod
  | writeRates entity rates => exact h.writeRates (fun _ => trivial) rates
  | deleteRates entity => exact h.deleteRates fun _ => trivial
  | apply config => exact h.apply fun _ _ _ => trivial

/-! ## Events

A passage takes the shaper with it that the packet met.  Otherwise a statement about the packets of a run
would have to speak of positions in the list of events and of the run up to there.  With passages it is a
statement about the members of a list, and two packets are compared by `List.Pairwise`.

What a law presupposes about calls is of the same kind: not that a call is one of a certain sort, but that
the shaper before it and the one after it are related in some way (`EveryCall`).  So the invariant of a run
may use that condition at the place where the call is made. -/

/-- A way to shape. -/
structure Pipeline where
  options : ShapingOptions
  resolver : Resolver

/-- Something that happens to a shaper. -/
inductive Event where
  | packet (p : Packet) (now : UInt64)
  | call (c : Call)

/-- A packet comes to a shaper. -/
structure Passage where
  shaper : Shaper
  packet : Packet
  now : UInt64

namespace Pipeline

variable (u : Pipeline)

/-- The shaper after an event. -/
def step (s : Shaper) : Event → Shaper
  | .packet p now => (s.process u.options u.resolver p now).2.2
  | .call c => (s.call c).2

/-- The shaper after a run. -/
def after (s : Shaper) (events : List Event) : Shaper := events.foldl u.step s

/-- The packets of a run, in the order in which they come. -/
def passages : Shaper → List Event → List Passage
  | _, [] => []
  | s, .packet p now :: events => ⟨s, p, now⟩ :: passages (u.step s (.packet p now)) events
  | s, .call c :: events => passages (u.step s (.call c)) events

/-- Every call of a run satisfies a condition, given the shaper before it. -/
def EveryCall (condition : Shaper → Call → Prop) : Shaper → List Event → Prop
  | _, [] => True
  | s, .packet p now :: events => EveryCall condition (u.step s (.packet p now)) events
  | s, .call c :: events => condition s c ∧ EveryCall condition (u.step s (.call c)) events

theorem after_append (s : Shaper) (earlier later : List Event) :
    u.after s (earlier ++ later) = u.after (u.after s earlier) later := List.foldl_append

theorem passages_append (s : Shaper) (earlier later : List Event) :
    u.passages s (earlier ++ later)
      = u.passages s earlier ++ u.passages (u.after s earlier) later := by
  induction earlier generalizing s with
  | nil => rfl
  | cons e earlier ih =>
    cases e with
    | packet p now =>
      rw [List.cons_append, passages, passages, ih, List.cons_append]
      rfl
    | call c =>
      rw [List.cons_append, passages, passages, ih]
      rfl

/-- **What every event keeps a run keeps**, and every packet of the run meets.  Of a call it may be
presupposed what is asked of the calls of the run. -/
theorem invariant {P : Shaper → Prop} {condition : Shaper → Call → Prop}
    (hpacket : ∀ s p now, P s → P (u.step s (.packet p now)))
    (hcall : ∀ s c, P s → condition s c → P (s.call c).2) (events : List Event) {s : Shaper}
    (hs : P s) (hcalls : u.EveryCall condition s events) :
    P (u.after s events) ∧ ∀ x ∈ u.passages s events, P x.shaper := by
  induction events generalizing s with
  | nil => exact ⟨hs, by simp [passages]⟩
  | cons e events ih =>
    cases e with
    | packet p now =>
      obtain ⟨hafter, hmeet⟩ := ih (hpacket s p now hs) hcalls
      exact ⟨hafter, List.forall_mem_cons.mpr ⟨hs, hmeet⟩⟩
    | call c => exact ih (hcall s c hs hcalls.1) hcalls.2

end Pipeline

/-- The shapers that can come about, by packets in whichever way they are shaped and by calls. -/
inductive Shaper.Reachable : Shaper → Prop
  | empty (maxEntries : Nat) : Reachable (Shaper.empty maxEntries)
  | step {s : Shaper} (u : Pipeline) (e : Event) : Reachable s → Reachable (u.step s e)

/-- Runs lead to shapers that can come about. -/
theorem Shaper.Reachable.after {s : Shaper} (h : s.Reachable) (u : Pipeline) (events : List Event) :
    (u.after s events).Reachable := by
  induction events generalizing s with
  | nil => exact h
  | cons e events ih => exact ih (h.step u e)

/-- Calls lead to shapers that can come about, whether they fail or not. -/
theorem Shaper.Reachable.of_call {s s' : Shaper} (h : s.Reachable) {c : Call}
    {result : Except Failure Unit} (hcall : s.call c = (result, s')) : s'.Reachable := by
  have hstep := h.step ⟨.standard, .directory⟩ (.call c)
  rwa [Pipeline.step, hcall] at hstep

/-! ## A packet

Questions about a packet are asked of its passage.  The names are those of the theory of a lane, with the
arguments filled in that the passage knows. -/

namespace Passage

variable (u : Pipeline) (x : Passage)

/-- The direction that the packet goes through. -/
def lane : Lane := x.shaper.lane x.packet.direction

/-- The disciplines of that direction. -/
def stages : StageDisciplines := u.options.stages.get x.packet.direction

/-- What is known of the owner of the packet; nothing at all if the packet has no readable address. -/
def owner : Option (Option Resolved) :=
  x.packet.localAddress?.map (u.resolver x.shaper.directory x.packet.direction)

/-- The entity that the packet is resolved to. -/
def entity? : Option EntityId := (x.owner u).join.map (·.entity)

/-- The route of the packet, if it is shaped. -/
def route? : Option Route := Shaping.route? u.options.unresolved (x.owner u) x.packet

/-- The tier that the packet is shaped in. -/
def tier? : Option Tier := (x.route? u).bind (·.tier)

/-- What is made of the packet. -/
def decision : Verdict × Packet × Shaper := x.shaper.process u.options u.resolver x.packet x.now

/-- What is decided about the packet in the end. -/
def outcome : Outcome := ⟨(x.decision u).1, (x.decision u).2.1.departure⟩

/-- Is the packet let go? -/
def passes : Bool := (x.decision u).1 = .pass

/-- When the packet leaves, if it is let go: what is in the past stands for now. -/
def leaves : UInt64 := max (x.decision u).2.1.departure x.now

/-- What the limit of the packet's entity is asked. -/
def entityOffer? : Option Offer :=
  Lane.entityOffer? (x.entity? u) x.packet.length x.packet.departure x.now x.lane.entities

/-- What the limit of the packet's entity says. -/
def entityOutcome : Outcome :=
  Lane.entityOutcome (x.stages u).entity (x.entity? u) x.packet.length x.packet.departure x.now
    x.lane.entities

/-- What the cap of the packet's tier is asked. -/
def tierOffer? : Option (Tier × Offer) :=
  (x.route? u).bind fun route =>
    x.lane.tierOffer? (x.stages u).entity route x.packet.length x.packet.departure x.now

end Passage

/-! ## One event

A packet goes through the directory, one lane and back, and `Shaper.process_spec` says so once.  All that is
proved here about packets takes the lane from it and goes on with `Lane.process_spec`.

If a packet was let go, the last question was answered in its favour.  The case to be careful about is the
one in which the second gate was not asked at all, because then it is the first answer that counts.  A
packet of a capped tier is not in that case: if it had passed the first gate it would have been asked about
at the second. -/

/-- A packet that is resolved to an entity is always shaped. -/
theorem route?_entity (unresolved : UnresolvedPolicy) (owner : Option (Option Resolved)) (p : Packet) :
    (route? unresolved owner p).bind (·.entity) = owner.join.map (·.entity) := by
  rcases owner with - | - | resolved
  · rfl
  · rw [route?]
    split <;> rfl
  · rfl

namespace Shaper

/-- A packet changes its own direction only. -/
theorem process_spec (s : Shaper) (options : ShapingOptions) (resolver : Resolver) (p : Packet)
    (now : UInt64) :
    let owner := p.localAddress?.map (resolver s.directory p.direction)
    let decided := (s.lane p.direction).process (options.stages.get p.direction) options.unresolved
      owner p now
    let after := s.process options resolver p now
    after.1 = decided.1.verdict ∧ after.2.1 = { p with departure := decided.1.departure } ∧
      after.2.2.directory = s.directory ∧ after.2.2.lane p.direction = decided.2 ∧
      ∀ d, d ≠ p.direction → after.2.2.lane d = s.lane d := by
  obtain ⟨directory, lanes⟩ := s
  intro owner decided after
  let decide := Lane.process (options.stages.get p.direction) options.unresolved owner p now
  have hafter : after = ((lanes.update p.direction decide).1.verdict,
      { p with departure := (lanes.update p.direction decide).1.departure },
      ⟨directory, (lanes.update p.direction decide).2⟩) := rfl
  have hfst : (lanes.update p.direction decide).1 = decided.1 := PerDirection.fst_update _ _ _
  rw [hfst] at hafter
  rw [hafter]
  exact ⟨rfl, rfl, rfl, PerDirection.get_update_self _ _ _,
    fun d hd => PerDirection.get_update_of_ne _ hd _⟩

/-- A packet does no more to tables than to visit an entity. -/
theorem InTables.process {P : Directory → Prop} {Q : EntityTable → Prop} (hQ : OpenTable.Kept Q)
    {s : Shaper} (h : s.InTables P Q) (options : ShapingOptions) (resolver : Resolver) (p : Packet)
    (now : UInt64) : (s.process options resolver p now).2.2.InTables P Q := by
  obtain ⟨-, -, hdir, hlane, hother⟩ := s.process_spec options resolver p now
  refine ⟨hdir ▸ h.directory, fun d => ?_⟩
  by_cases hd : d = p.direction
  · obtain ⟨-, -, -, -, hents⟩ := (s.lane p.direction).process_spec (options.stages.get p.direction)
      options.unresolved (p.localAddress?.map (resolver s.directory p.direction)) p now
    rw [hd, hlane, hents]
    split
    · exact h.entities _
    · exact Lane.kept_entitiesAfter hQ (h.entities _) _ _ _ _ _
  · rw [hother d hd]
    exact h.entities d

end Shaper

namespace Pipeline

variable (u : Pipeline)

/-- **What tables keep every event keeps.** -/
theorem inTables_step {P : Directory → Prop} {Q : EntityTable → Prop} (hP : OpenTable.Kept P)
    (hQ : OpenTable.Kept Q) {s : Shaper} (h : s.InTables P Q) (e : Event) :
    (u.step s e).InTables P Q := by
  cases e with
  | packet p now => exact h.process hQ u.options u.resolver p now
  | call c => exact (Shaper.stable_inTables hP hQ).call h c

/-- **Every event leaves the tables well-formed.** -/
theorem wellFormed_step {s : Shaper} (h : s.WellFormed) (e : Event) : (u.step s e).WellFormed := by
  rw [Shaper.wellFormed_eq] at h ⊢
  exact u.inTables_step OpenTable.kept_wellFormed OpenTable.kept_wellFormed h e

end Pipeline

theorem Shaper.Reachable.wellFormed {s : Shaper} (h : s.Reachable) : s.WellFormed := by
  induction h with
  | empty n => exact Shaper.wellFormed_empty n
  | step u e _ ih => exact u.wellFormed_step ih e

namespace Passage

variable (u : Pipeline) {x : Passage}

/-- **A packet and its lane go by nothing but the lane and the directory.** -/
theorem decided :
    (x.outcome u, (u.step x.shaper (.packet x.packet x.now)).lane x.packet.direction)
      = x.lane.process (x.stages u) u.options.unresolved (x.owner u) x.packet x.now := by
  obtain ⟨hverdict, hpacket, -, hlane, -⟩ :=
    x.shaper.process_spec u.options u.resolver x.packet x.now
  rw [outcome, decision, hverdict, hpacket, Pipeline.step, hlane]
  rfl

/-- **A packet ends as the last limiter answered that was asked.** -/
theorem outcome_eq : x.outcome u =
    (x.tierOffer? u).elim (x.entityOutcome u) fun z => (z.2.answer (x.stages u).global).outcome := by
  have houtcome := congrArg Prod.fst (decided u (x := x))
  have hlane := (x.lane.process_spec (x.stages u) u.options.unresolved (x.owner u) x.packet x.now).1
  dsimp only at houtcome
  rw [houtcome, hlane, tierOffer?, entityOutcome, entity?,
    ← route?_entity u.options.unresolved _ x.packet, ← route?]
  cases x.route? u with
  | none => rfl
  | some route =>
    simp only [Option.bind_some, Lane.routeOutcome]
    cases x.lane.tierOffer? (x.stages u).entity route x.packet.length x.packet.departure x.now <;> rfl

/-- At the first gate it is up to the one limiter that is asked there, if there is one. -/
theorem entityOutcome_eq_elim : x.entityOutcome u =
    (x.entityOffer? u).elim ⟨.pass, x.packet.departure⟩ fun y =>
      (y.answer (x.stages u).entity).outcome := by
  rw [entityOutcome, Lane.entityOutcome, entityOffer?]
  cases Lane.entityOffer? (x.entity? u) x.packet.length x.packet.departure x.now x.lane.entities <;> rfl

theorem entityOutcome_of_none (h : x.entityOffer? u = none) :
    x.entityOutcome u = ⟨.pass, x.packet.departure⟩ := by
  rw [entityOutcome_eq_elim, h, Option.elim_none]

theorem entityOutcome_of_some {y : Offer} (h : x.entityOffer? u = some y) :
    x.entityOutcome u = (y.answer (x.stages u).entity).outcome := by
  rw [entityOutcome_eq_elim, h, Option.elim_some]

/-- The limit that is asked is the one that is kept for the entity. -/
theorem entityOffer?_of_entity {e : EntityId} (he : x.entity? u = some e) :
    x.entityOffer? u = (x.shaper.entity? x.packet.direction e).map fun state =>
      ⟨state.limiter, x.packet.length, x.packet.departure, x.now⟩ := by
  rw [entityOffer?, Lane.entityOffer?, he, Option.bind_some]
  rfl

theorem entityOffer?_eq_some {y : Offer} (h : x.entityOffer? u = some y) :
    ∃ e state, x.entity? u = some e ∧ x.shaper.entity? x.packet.direction e = some state ∧
      y = ⟨state.limiter, x.packet.length, x.packet.departure, x.now⟩ := by
  obtain ⟨state, hstate, rfl⟩ := Option.map_eq_some_iff.mp h
  obtain ⟨e, he, hget⟩ := Option.bind_eq_some_iff.mp hstate
  exact ⟨e, state, he, hget, rfl⟩

/-- A packet is asked about at the second gate if the first one let it pass and there is a cap. -/
theorem tierOffer?_eq_some_iff {t : Tier} {z : Offer} :
    x.tierOffer? u = some (t, z) ↔ ∃ departure, x.entityOutcome u = ⟨.pass, departure⟩ ∧
      x.tier? u = some t ∧ x.lane.plan.configured = true ∧
      z = ⟨(x.lane.caps.setUp x.lane.plan x.now).limiters.get t, x.packet.length, departure,
        x.now⟩ := by
  rw [tierOffer?, tier?, entityOutcome, entity?, ← route?_entity u.options.unresolved _ x.packet]
  cases hroute : x.route? u with
  | none => simp
  | some route =>
    rw [route?] at hroute
    rw [hroute, Option.bind_some, Option.bind_some, Option.bind_some]
    exact Lane.tierOffer?_eq_some_iff

/-- The second gate is left out for a packet that was dropped at the first, and where there is no cap. -/
theorem tierOffer?_eq_none_iff : x.tierOffer? u = none ↔
    (x.entityOutcome u).verdict = .drop ∨ x.tier? u = none ∨ x.lane.plan.configured = false := by
  constructor
  · intro hnone
    cases hgate : (x.entityOutcome u).verdict with
    | drop => exact Or.inl rfl
    | pass =>
      right
      cases ht : x.tier? u with
      | none => exact Or.inl rfl
      | some t =>
        right
        rw [Bool.eq_false_iff]
        intro hplan
        have hsome := (tierOffer?_eq_some_iff u).mpr ⟨_, Outcome.eq_of_pass hgate, ht, hplan, rfl⟩
        rw [hnone] at hsome
        cases hsome
  · intro h
    rw [Option.eq_none_iff_forall_ne_some]
    rintro ⟨t, z⟩ hz
    obtain ⟨departure, hgate, ht, hplan, -⟩ := (tierOffer?_eq_some_iff u).mp hz
    simp [hgate, ht, hplan] at h

/-- A packet is only asked about at the second gate as the first gate let it pass. -/
theorem tierOffer?_eq_some {t : Tier} {z : Offer} (h : x.tierOffer? u = some (t, z)) :
    x.tier? u = some t ∧ x.lane.plan.configured = true ∧
      z.limiter = (x.lane.caps.setUp x.lane.plan x.now).limiters.get t ∧
      z.size = x.packet.length ∧ z.now = x.now ∧
      ((x.entityOffer? u = none ∧ z.departure = x.packet.departure) ∨
        ∃ y, x.entityOffer? u = some y ∧ y.passes (x.stages u).entity = true ∧
          z.departure = (y.answer (x.stages u).entity).departure) := by
  obtain ⟨departure, hgate, htier, hplan, rfl⟩ := (tierOffer?_eq_some_iff u).mp h
  refine ⟨htier, hplan, rfl, rfl, rfl, ?_⟩
  cases hy : x.entityOffer? u with
  | none =>
    rw [entityOutcome_of_none u hy] at hgate
    cases hgate
    exact Or.inl ⟨rfl, rfl⟩
  | some y =>
    rw [entityOutcome_of_some u hy] at hgate
    exact Or.inr ⟨y, rfl, decide_eq_true (congrArg Outcome.verdict hgate),
      (congrArg Outcome.departure hgate).symm⟩

/-- **What is let go was let pass by the cap of its tier**, and leaves when that says. -/
theorem passes_tier (hpass : x.passes u = true) {t : Tier} (ht : x.tier? u = some t)
    (hplan : x.lane.plan.configured = true) :
    ∃ z, x.tierOffer? u = some (t, z) ∧ z.passes (x.stages u).global = true ∧
      x.leaves u = z.leaves (x.stages u).global := by
  have hout := outcome_eq u (x := x)
  have hverdict : (x.outcome u).verdict = .pass := of_decide_eq_true hpass
  cases hz : x.tierOffer? u with
  | some z =>
    obtain ⟨t', z⟩ := z
    obtain ⟨ht', -, -, -, hnow, -⟩ := tierOffer?_eq_some u hz
    rw [ht, Option.some_inj] at ht'
    subst ht'
    rw [hz, Option.elim_some] at hout
    rw [hout] at hverdict
    refine ⟨z, rfl, decide_eq_true hverdict, ?_⟩
    rw [Offer.leaves, hnow]
    exact congrArg (fun o : Outcome => max o.departure x.now) hout
  | none =>
    -- a packet that got past the first gate would have been asked about at the second
    rw [hz, Option.elim_none] at hout
    rw [hout] at hverdict
    simp [tierOffer?_eq_none_iff, hverdict, ht, hplan] at hz

/-- **What is let go was let pass by the limit of its entity.**  It leaves when that says, or when the
cap of its tier says, which was asked about a packet that wants to leave then. -/
theorem passes_entity (hpass : x.passes u = true) {y : Offer} (hy : x.entityOffer? u = some y) :
    y.passes (x.stages u).entity = true ∧
      (x.leaves u = y.leaves (x.stages u).entity ∨
        ∃ t z, x.tierOffer? u = some (t, z) ∧ z.passes (x.stages u).global = true ∧
          z.departure = (y.answer (x.stages u).entity).departure ∧
          x.leaves u = z.leaves (x.stages u).global) := by
  have hverdict : (x.outcome u).verdict = .pass := of_decide_eq_true hpass
  have hout := outcome_eq u (x := x)
  cases hz : x.tierOffer? u with
  | some z =>
    obtain ⟨t, z⟩ := z
    obtain ⟨ht, hplan, -, -, -, ⟨hnone, -⟩ | ⟨y', hy', hpass', hdep⟩⟩ := tierOffer?_eq_some u hz
    · rw [hy] at hnone
      cases hnone
    · rw [hy, Option.some_inj] at hy'
      subst hy'
      obtain ⟨z', hz', hzpass, hleaves⟩ := passes_tier u hpass ht hplan
      rw [hz] at hz'
      cases hz'
      exact ⟨hpass', Or.inr ⟨t, z, rfl, hzpass, hdep, hleaves⟩⟩
  | none =>
    rw [hz, Option.elim_none, entityOutcome_of_some u hy] at hout
    rw [hout] at hverdict
    obtain ⟨e, state, -, -, rfl⟩ := entityOffer?_eq_some u hy
    exact ⟨decide_eq_true hverdict,
      Or.inl (congrArg (fun o : Outcome => max o.departure x.now) hout)⟩

end Passage

/-! ## One packet in the course of a run

Everything that a packet does not touch is said here in the form in which inductions over runs need it, with
the shaper after the packet on the left. -/

namespace Pipeline

variable (u : Pipeline) {s : Shaper}

theorem directory_packet (s : Shaper) (p : Packet) (now : UInt64) :
    (u.step s (.packet p now)).directory = s.directory :=
  (s.process_spec u.options u.resolver p now).2.2.1

theorem lane_packet_of_ne (p : Packet) (now : UInt64) {d : Direction} (hd : d ≠ p.direction) :
    (u.step s (.packet p now)).lane d = s.lane d :=
  (s.process_spec u.options u.resolver p now).2.2.2.2 d hd

theorem entities_packet (p : Packet) (now : UInt64) :
    let x : Passage := ⟨s, p, now⟩
    ((u.step s (.packet p now)).lane p.direction).entities =
      Lane.entitiesAfter (x.stages u).entity (x.entity? u) p.length p.departure now
        (s.lane p.direction).entities := by
  intro x
  obtain ⟨-, -, -, hlane, -⟩ := s.process_spec u.options u.resolver p now
  obtain ⟨-, -, -, -, hents⟩ := (s.lane p.direction).process_spec (u.options.stages.get p.direction)
    u.options.unresolved (x.owner u) p now
  have hroute := route?_entity u.options.unresolved (x.owner u) p
  rw [step, hlane, Passage.entity?, ← hroute]
  refine hents.trans ?_
  cases Shaping.route? u.options.unresolved (x.owner u) p <;> rfl

/-- **A packet changes the limit of its own entity only**, in its own direction. -/
theorem entity?_packet (h : s.WellFormed) (p : Packet) (now : UInt64) (d : Direction) (e : EntityId) :
    let x : Passage := ⟨s, p, now⟩
    (u.step s (.packet p now)).entity? d e =
      if d = p.direction ∧ x.entity? u = some e then
        (s.entity? d e).map fun st => (st.gate (x.stages u).entity p.length p.departure now).2
      else s.entity? d e := by
  intro x
  by_cases hd : d = p.direction
  · rw [Shaper.entity?, hd, u.entities_packet]
    cases hx : x.entity? u with
    | none => rw [if_neg (by simp)]; rfl
    | some id =>
      rw [Lane.entitiesAfter, (h.entities p.direction).get?_visit]
      by_cases he : e = id
      · rw [if_pos he, if_pos ⟨rfl, congrArg some he.symm⟩, Shaper.entity?, he]
      · rw [if_neg he, if_neg fun hx => he (Option.some_inj.mp hx.2).symm, Shaper.entity?]
  · rw [Shaper.entity?, u.lane_packet_of_ne p now hd, if_neg fun hx => hd hx.1, Shaper.entity?]

theorem plan_packet (p : Packet) (now : UInt64) (d : Direction) :
    ((u.step s (.packet p now)).lane d).plan = (s.lane d).plan := by
  by_cases hd : d = p.direction
  · subst hd
    obtain ⟨-, -, -, hlane, -⟩ := s.process_spec u.options u.resolver p now
    rw [step, hlane]
    exact ((s.lane p.direction).process_spec _ _ _ p now).2.1
  · rw [u.lane_packet_of_ne p now hd]

/-- **A packet changes the caps of its direction only**, and only if one of them is asked. -/
theorem caps_packet (p : Packet) (now : UInt64) :
    let x : Passage := ⟨s, p, now⟩
    ((u.step s (.packet p now)).lane p.direction).caps =
      match x.tierOffer? u with
      | none => x.lane.caps
      | some (t, z) =>
        x.lane.caps.after (x.stages u).global x.lane.plan (x.lane.ring.record p.length now) t z := by
  intro x
  obtain ⟨-, -, -, hlane, -⟩ := s.process_spec u.options u.resolver p now
  obtain ⟨-, -, hcaps, -⟩ := (s.lane p.direction).process_spec (u.options.stages.get p.direction)
    u.options.unresolved (x.owner u) p now
  rw [step, hlane, Passage.tierOffer?, Passage.route?]
  refine hcaps.trans ?_
  cases Shaping.route? u.options.unresolved (x.owner u) p <;> rfl

/-- **A packet is recorded in the ring of its direction if it is shaped.** -/
theorem ring_packet (p : Packet) (now : UInt64) :
    let x : Passage := ⟨s, p, now⟩
    ((u.step s (.packet p now)).lane p.direction).ring =
      (x.route? u).elim x.lane.ring fun _ => x.lane.ring.record p.length now := by
  intro x
  obtain ⟨-, -, -, hlane, -⟩ := s.process_spec u.options u.resolver p now
  obtain ⟨-, -, -, hring, -⟩ := (s.lane p.direction).process_spec (u.options.stages.get p.direction)
    u.options.unresolved (x.owner u) p now
  rw [step, hlane, Passage.route?]
  refine hring.trans ?_
  cases Shaping.route? u.options.unresolved (x.owner u) p <;> rfl

end Pipeline

end Shaping
