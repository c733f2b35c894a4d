import Shaping.Proofs.Shaper.EntityLimit

/-!
# The counters are an exact account

Each packet makes one posting to the account of its direction, and one to that of its entity: how large it
is, and whether it was dropped, let go later than requested, or let go promptly.  For the direction this is
what was decided about the packet in the end, for the entity it is what the entity's own limit said.  After
a run the counters are the counts and sums of these postings, modulo the size of a word
(`Counters.Records`).

There are several counters, and they are bumped in several places, but they all behave in the same way: a
packet adds to each of them what stands in its posting under the `Heading` of that counter.  This is proved
for one gate after the other (`Lane.read_entityGate`, `Lane.read_tierGate`, `EntityState.read_gate`), then
for a packet (`Pipeline.read_packet`), and by induction for a run (`Pipeline.read_after`).  A fault does not
show under any heading unless it is a refusal; and where it is one for which the packet is let through, it
is counted together with that.

To prove each of the conjuncts of `Counters.Records` on its own would take as many inductions as there are
counters, all with the same cases.  A heading turns them into one.  What is read under a heading is a
function of the counters to words, and every step of the code adds a number to it that depends on the
heading and the end of the packet only (`Ending.entry`); so a proof about a step is a rewriting of sums, and
the heading is split into its cases for the basic operations on counters alone.

Dropped packets are counted where they are dropped, paced ones at the very end, and the rest not at all.
Therefore what a gate adds is stated by its verdict: a refusal adds its entry, and a packet that is passed
on adds what a packet adds that leaves promptly, which is nothing (`Ending.add_prompt`).  So the gates of a
packet can be added up without knowing which of them made an end of it.
-/

set_option autoImplicit false

namespace Shaping

/-! ## Postings

That no packet is let through without a fault that calls for it has no counter.  It is a relation between
counters, and becomes a heading as a difference, to which no packet adds anything (`unexplained`). -/

/-- How it ends with a packet. -/
inductive Ending where
  | dropped
  /-- The packet is let go later than requested. -/
  | paced
  | prompt
  deriving DecidableEq

/-- How it ends with a packet that was requested for a certain time. -/
def Outcome.ending (requested : UInt64) (o : Outcome) : Ending :=
  match o.verdict with
  | .drop => .dropped
  | .pass => if requested < o.departure then .paced else .prompt

/-- How it ends as far as a verdict can tell. -/
def Verdict.ending : Verdict → Ending
  | .drop => .dropped
  | .pass => .prompt

/-- What one packet makes of an account. -/
structure Posting where
  size : UInt64
  ending : Ending
  deriving DecidableEq

/-- What an account keeps apart. -/
inductive Heading where
  | packets
  | bytes
  | droppedPackets
  | droppedBytes
  /-- The refusals, which are faults. -/
  | refusals
  | pacedPackets
  /-- The packets that were let through although there was no fault that would have called for it. -/
  | unexplained

/-- What an account says under a heading. -/
def Counters.read (c : Counters) : Heading → UInt64
  | .packets => c.packetsTotal
  | .bytes => c.bytesTotal
  | .droppedPackets => c.packetsDropped
  | .droppedBytes => c.bytesDropped
  | .refusals => c.faults.capacityExceeded
  | .pacedPackets => c.packetsPaced
  | .unexplained => c.packetsFailOpen - (c.faults.malformedPacket + c.faults.configurationMissing)

/-- What the end of a packet adds under a heading. -/
def Ending.entry (size : UInt64) (ending : Ending) : Heading → Nat
  | .droppedPackets | .refusals => if ending = .dropped then 1 else 0
  | .droppedBytes => if ending = .dropped then size.toNat else 0
  | .pacedPackets => if ending = .paced then 1 else 0
  | .packets | .bytes | .unexplained => 0

/-- Leaving promptly adds nothing to what coming added. -/
theorem Ending.add_prompt (w size : UInt64) (h : Heading) :
    w + .ofNat (Ending.prompt.entry size h) = w := by
  cases h <;> exact UInt64.add_zero w

namespace Posting

/-- What a packet adds under a heading. -/
def entry (p : Posting) : Heading → Nat
  | .packets => 1
  | .bytes => p.size.toNat
  | h => p.ending.entry p.size h

/-- What several packets add under a heading. -/
def total (h : Heading) (ps : List Posting) : Nat := (ps.map (·.entry h)).sum

theorem total_append (h : Heading) (ps qs : List Posting) :
    total h (ps ++ qs) = total h ps + total h qs := by
  rw [total, List.map_append, List.sum_append, total, total]

end Posting

/-! ## One counter after the other

The lemmas follow the functions of the code.  Each says that what is read under a heading after the function
is what was read before and an entry.  Lanes and answers are taken apart first, and verdicts split, until
both sides are the same operation on counters. -/

namespace Counters

variable (c : Counters) (size : UInt64) (h : Heading)

/-- Counting a packet and its end makes its posting. -/
theorem read_seen (ending : Ending) :
    (c.seen size).read h + .ofNat (ending.entry size h)
      = c.read h + .ofNat (Posting.entry ⟨size, ending⟩ h) := by
  cases h <;> cases ending <;> simp [read, seen, Posting.entry, Ending.entry]

theorem read_refused : (c.refused size).read h = c.read h + .ofNat (Ending.dropped.entry size h) := by
  cases h <;> simp [read, refused, dropped, fault, FaultCounts.bump, Ending.entry]

theorem read_paced : c.paced.read h = c.read h + .ofNat (Ending.paced.entry size h) := by
  cases h <;> simp [read, paced, Ending.entry]

/-- Faults that change nothing for the packet. -/
theorem read_fault {f : Fault} (hf : f = .clockSkew ∨ f = .rateUnconfigured) :
    (c.fault f).read h = c.read h := by
  rcases hf with rfl | rfl <;> cases h <;> rfl

/-- Faults for which the packet is let through. -/
theorem read_failedOpen {f : Fault} (hf : f = .malformedPacket ∨ f = .configurationMissing) :
    (c.fault f).failedOpen.read h = c.read h := by
  cases h with
  | unexplained =>
    simp only [read, failedOpen, fault, FaultCounts.bump]
    rcases hf with rfl | rfl <;> grind
  | _ => rcases hf with rfl | rfl <;> rfl

end Counters

/-- A packet that is let pass and wants to leave as before leaves promptly. -/
theorem Outcome.ending_unchanged (departure now : UInt64) :
    (⟨.pass, departure⟩ : Outcome).ending (max departure now) = .prompt := by
  have hnot : ¬ max departure now < departure := by
    rw [UInt64.lt_iff_toNat_lt, Word.toNat_max]
    omega
  rw [ending]
  exact if_neg hnot

/-- **The account of an entity**: it has what the entity's own limit said. -/
theorem EntityState.read_gate (e : EntityState) (d : Discipline) (size departure now : UInt64)
    (h : Heading) :
    (e.gate d size departure now).2.counters.read h = e.counters.read h +
      .ofNat (Posting.entry ⟨size, (e.gate d size departure now).1.ending (max departure now)⟩ h) := by
  rw [← Counters.read_seen, gate]
  split
  · rw [Outcome.ending_unchanged, Ending.add_prompt, Counters.read_fault _ _ (Or.inr rfl)]
  · dsimp only
    generalize d.offer e.limiter size departure now = a
    obtain ⟨verdict, departure', limiter⟩ := a
    cases verdict with
    | drop => exact Counters.read_refused _ _ _
    | pass =>
      simp only [Outcome.ending]
      split
      · exact Counters.read_paced _ _ _
      · exact (Ending.add_prompt _ _ _).symm

namespace Lane

variable (lane : Lane) (size departure now : UInt64) (h : Heading)

/-- The first gate adds its refusals to the account of the direction. -/
theorem read_entityGate (d : Discipline) (entity : Option EntityId) :
    (lane.entityGate d entity size departure now).2.counters.read h = lane.counters.read h +
      .ofNat ((lane.entityGate d entity size departure now).1.verdict.ending.entry size h) := by
  obtain ⟨plan, caps, ring, counters, entities⟩ := lane
  cases entity with
  | none => exact (Ending.add_prompt _ _ _).symm
  | some id =>
    simp only [entityGate]
    generalize entities.visit id (EntityState.gate d size departure now) = r
    obtain ⟨answer, after⟩ := r
    cases answer with
    | none => exact (Ending.add_prompt _ _ _).symm
    | some outcome =>
      obtain ⟨verdict, departure'⟩ := outcome
      cases verdict with
      | drop => exact Counters.read_refused _ _ _
      | pass => exact (Ending.add_prompt _ _ _).symm

/-- So does the second, and what else it counts has no heading of its own. -/
theorem read_tierGate (d : Discipline) (t : Option Tier) :
    (lane.tierGate d t size departure now).2.counters.read h = lane.counters.read h +
      .ofNat ((lane.tierGate d t size departure now).1.verdict.ending.entry size h) := by
  obtain ⟨plan, caps, ring, counters, entities⟩ := lane
  cases t with
  | none => exact (Ending.add_prompt _ _ _).symm
  | some t =>
    simp only [tierGate]
    split
    · generalize d.offer ((caps.setUp plan now).limiters.get t) size departure now = a
      obtain ⟨verdict, departure', limiter⟩ := a
      have hnoted : (if ((caps.setUp plan now).limiters.get t).rate = 0 then
          counters.fault .rateUnconfigured else counters).read h = counters.read h := by
        split
        · exact Counters.read_fault _ _ (Or.inr rfl)
        · rfl
      cases verdict with
      | drop =>
        dsimp only
        rw [Counters.read_refused, hnoted]
        rfl
      | pass =>
        dsimp only
        rw [hnoted, Verdict.ending, Ending.add_prompt]
    · dsimp only
      rw [Counters.read_failedOpen _ _ (Or.inr rfl), Verdict.ending, Ending.add_prompt]

theorem read_arrive : (lane.arrive size departure now).counters.read h = lane.counters.read h := by
  rw [arrive]
  dsimp only
  split
  · exact Counters.read_fault _ _ (Or.inl rfl)
  · rfl

/-- A packet that is let go counts as paced if it leaves later than requested. -/
theorem read_release (requested : UInt64) :
    (lane.release requested departure).counters.read h = lane.counters.read h +
      .ofNat (((⟨.pass, departure⟩ : Outcome).ending requested).entry size h) := by
  rw [release]
  simp only [Outcome.ending]
  split
  · exact Counters.read_paced _ _ _
  · exact (Ending.add_prompt _ _ _).symm

/-- On the way past both gates a packet's end is counted once. -/
theorem read_shape (stages : StageDisciplines) (entity : Option EntityId) (tier : Option Tier) :
    let after := lane.shape stages entity tier size departure now
    after.2.counters.read h = lane.counters.read h +
      .ofNat ((after.1.ending (max departure now)).entry size h) := by
  intro after
  have hfirst := read_entityGate (lane.arrive size departure now) size departure now h stages.entity
    entity
  rw [read_arrive] at hfirst
  simp only [after, shape]
  generalize (lane.arrive size departure now).entityGate stages.entity entity size departure now = r
    at hfirst
  obtain ⟨⟨verdict, departure'⟩, gated⟩ := r
  cases verdict with
  | drop => exact hfirst
  | pass =>
    have hsecond := read_tierGate gated size departure' now h stages.global tier
    dsimp only at hfirst ⊢
    rw [hfirst, Verdict.ending, Ending.add_prompt] at hsecond
    generalize gated.tierGate stages.global tier size departure' now = r at hsecond
    obtain ⟨⟨verdict, departure''⟩, capped⟩ := r
    cases verdict with
    | drop => exact hsecond
    | pass =>
      dsimp only at hsecond ⊢
      rw [read_release capped size, hsecond, Verdict.ending, Ending.add_prompt]

/-- **A packet makes one posting to the account of its direction**: what is decided about it. -/
theorem read_process (stages : StageDisciplines) (unresolved : UnresolvedPolicy)
    (owner : Option (Option Resolved)) (p : Packet) :
    let after := lane.process stages unresolved owner p now
    after.2.counters.read h = lane.counters.read h +
      .ofNat (Posting.entry ⟨p.length, after.1.ending (max p.departure now)⟩ h) := by
  obtain ⟨plan, caps, ring, counters, entities⟩ := lane
  intro after
  rw [← Counters.read_seen]
  cases owner with
  | none =>
    simp only [after, process]
    rw [Counters.read_failedOpen _ _ (Or.inl rfl), Outcome.ending_unchanged, Ending.add_prompt]
  | some resolved =>
    simp only [after, process]
    split
    · rw [Outcome.ending_unchanged, Ending.add_prompt]
    · exact read_shape ⟨plan, caps, ring, counters.seen p.length, entities⟩ p.length p.departure now h
        stages _ _

end Lane

/-! ## A run

Sums of entries are natural numbers, and the counters are these numbers as words.  That is the reason why
the law is modulo the size of a word and needs no bound on the length of the run.  Only the last part does,
which compares two counters. -/

/-- An account has these postings and no others, modulo the size of a word. -/
structure Counters.Records (c : Counters) (ps : List Posting) : Prop where
  packets : c.packetsTotal = .ofNat ps.length
  bytes : c.bytesTotal = .ofNat (ps.map (·.size.toNat)).sum
  droppedPackets : c.packetsDropped = .ofNat (ps.countP (·.ending = .dropped))
  droppedBytes :
    c.bytesDropped = .ofNat ((ps.filter (·.ending = .dropped)).map (·.size.toNat)).sum
  /-- What is dropped is what was refused. -/
  refusals : c.faults.capacityExceeded = c.packetsDropped
  pacedPackets : c.packetsPaced = .ofNat (ps.countP (·.ending = .paced))
  /-- For every packet that is let through there is a fault that calls for it. -/
  failOpen : c.packetsFailOpen = c.faults.malformedPacket + c.faults.configurationMissing

namespace Posting

variable {h : Heading} {q : Ending}

/-- A heading that only one way to end adds to. -/
theorem total_of_ending {f : Posting → Nat} (hentry : ∀ p, p.entry h = if p.ending = q then f p else 0)
    (ps : List Posting) : total h ps = ((ps.filter (·.ending = q)).map f).sum := by
  induction ps with
  | nil => rfl
  | cons p ps ih =>
    rw [← List.singleton_append, total_append, ih, List.filter_append, List.map_append, List.sum_append,
      Nat.add_right_cancel_iff]
    by_cases hp : p.ending = q <;> simp [total, hentry, hp]

theorem count_of_ending (hentry : ∀ p : Posting, p.entry h = if p.ending = q then 1 else 0)
    (ps : List Posting) : total h ps = ps.countP (·.ending = q) := by
  rw [total_of_ending hentry, List.countP_eq_length_filter]
  simp

end Posting

namespace Counters

variable {c : Counters} {ps : List Posting}

/-- What is right under every heading is an exact account. -/
theorem records_of_read (h : ∀ heading, c.read heading = .ofNat (Posting.total heading ps)) :
    c.Records ps := by
  have hdropped := Posting.count_of_ending (h := .droppedPackets) (q := .dropped) (fun _ => rfl) ps
  have hrefused := Posting.count_of_ending (h := .refusals) (q := .dropped) (fun _ => rfl) ps
  refine ⟨(h .packets).trans ?_, h .bytes, (h .droppedPackets).trans ?_, (h .droppedBytes).trans ?_,
    (h .refusals).trans ?_, (h .pacedPackets).trans ?_, ?_⟩
  · simp [Posting.total, Posting.entry]
  · rw [hdropped]
  · rw [Posting.total_of_ending (q := .dropped) fun _ => rfl]
  · rw [hrefused, ← hdropped]
    exact (h .droppedPackets).symm
  · rw [Posting.count_of_ending (q := .paced) fun _ => rfl]
  · have hnone : Posting.total .unexplained ps = 0 := by
      simp [Posting.total, Posting.entry, Ending.entry]
    have hopen := h .unexplained
    rw [hnone, read, UInt64.sub_eq_iff_eq_add] at hopen
    exact hopen.trans (UInt64.zero_add _)

/-- No packet is both dropped and paced. -/
theorem Records.dropped_add_paced_le (h : c.Records ps) (hfew : ps.length < UInt64.size) :
    c.packetsDropped.toNat + c.packetsPaced.toNat ≤ c.packetsTotal.toNat := by
  have hle : ps.countP (·.ending = .dropped) + ps.countP (·.ending = .paced) ≤ ps.length := by
    rw [List.length_eq_countP_add_countP (·.ending = .dropped)]
    refine Nat.add_le_add_left (List.countP_mono_left fun p _ hp => ?_) _
    simp_all
  rw [h.droppedPackets, h.pacedPackets, h.packets, UInt64.toNat_ofNat_of_lt' (by omega),
    UInt64.toNat_ofNat_of_lt' (by omega), UInt64.toNat_ofNat_of_lt' hfew]
  exact hle

end Counters

/-! ## Accounts

A direction always has its account, and an entity may have none, so an account is something that is perhaps
kept.  Packets keep an account that is there.  It is for entities that the tables have to be well-formed,
for otherwise a visit to one entity might show at another. -/

/-- Whose account. -/
inductive Account where
  | lane (d : Direction)
  | entity (d : Direction) (e : EntityId)

/-- The counters of an account, if it is kept. -/
def Shaper.counters? (s : Shaper) : Account → Option Counters
  | .lane d => some (s.lane d).counters
  | .entity d e => (s.entity? d e).map (·.counters)

namespace Passage

variable (u : Pipeline) (x : Passage)

/-- The posting of the packet to an account, if it makes one. -/
def posting? : Account → Option Posting
  | .lane d =>
    if x.packet.direction = d then
      some ⟨x.packet.length, (x.outcome u).ending (max x.packet.departure x.now)⟩
    else none
  | .entity d e =>
    if x.packet.direction = d ∧ x.entity? u = some e then
      some ⟨x.packet.length, (x.entityOutcome u).ending (max x.packet.departure x.now)⟩
    else none

variable {u x}

/-- The limit of the packet's entity is the one that is kept for that entity. -/
theorem entityOutcome_eq {e : EntityId} (he : x.entity? u = some e) {state : EntityState}
    (hstate : x.shaper.entity? x.packet.direction e = some state) :
    x.entityOutcome u
      = (state.gate (x.stages u).entity x.packet.length x.packet.departure x.now).1 := by
  have hgate := (state.gate_spec (x.stages u).entity x.packet.length x.packet.departure x.now).1
  rw [hgate, entityOutcome_eq_elim, entityOffer?_of_entity u he, hstate, Option.map_some,
    Option.elim_some]

end Passage

namespace Pipeline

variable (u : Pipeline) {s : Shaper}

/-- What a packet makes of the account of a direction. -/
theorem read_lane_packet (s : Shaper) (p : Packet) (now : UInt64) (d : Direction) (h : Heading) :
    ((u.step s (.packet p now)).lane d).counters.read h = (s.lane d).counters.read h +
      .ofNat (Posting.total h ((⟨s, p, now⟩ : Passage).posting? u (.lane d)).toList) := by
  by_cases hd : p.direction = d
  · subst hd
    obtain ⟨hverdict, hpacket, -, hlane, -⟩ := s.process_spec u.options u.resolver p now
    rw [step, hlane, Lane.read_process, Passage.posting?, if_pos rfl, Passage.outcome, Passage.decision,
      hverdict, hpacket]
    rfl
  · rw [u.lane_packet_of_ne p now (Ne.symm hd), Passage.posting?, if_neg hd]
    exact (UInt64.add_zero _).symm

/-- What a packet makes of the account of an entity. -/
theorem read_entity_packet (hwell : s.WellFormed) (p : Packet) (now : UInt64) {d : Direction}
    {e : EntityId} {state : EntityState} (hstate : s.entity? d e = some state) :
    ∃ state', (u.step s (.packet p now)).entity? d e = some state' ∧
      ∀ h, state'.counters.read h = state.counters.read h +
        .ofNat (Posting.total h ((⟨s, p, now⟩ : Passage).posting? u (.entity d e)).toList) := by
  have hafter := u.entity?_packet hwell p now d e
  dsimp only at hafter
  rw [hstate] at hafter
  by_cases hx : d = p.direction ∧ (⟨s, p, now⟩ : Passage).entity? u = some e
  · obtain ⟨rfl, he⟩ := hx
    rw [if_pos ⟨rfl, he⟩, Option.map_some] at hafter
    refine ⟨_, hafter, fun h => ?_⟩
    rw [EntityState.read_gate, Passage.posting?, if_pos ⟨rfl, he⟩,
      Passage.entityOutcome_eq (x := ⟨s, p, now⟩) he hstate]
    rfl
  · rw [if_neg hx] at hafter
    refine ⟨_, hafter, fun h => ?_⟩
    rw [Passage.posting?, if_neg fun hx' => hx ⟨hx'.1.symm, hx'.2⟩]
    exact (UInt64.add_zero _).symm

/-- **What a packet makes of an account**: its posting is added, if it makes one. -/
theorem read_packet (hwell : s.WellFormed) (p : Packet) (now : UInt64) {a : Account} {c : Counters}
    (hc : s.counters? a = some c) :
    ∃ c', (u.step s (.packet p now)).counters? a = some c' ∧
      ∀ h, c'.read h = c.read h +
        .ofNat (Posting.total h ((⟨s, p, now⟩ : Passage).posting? u a).toList) := by
  cases a with
  | lane d =>
    cases hc
    exact ⟨_, rfl, u.read_lane_packet s p now d⟩
  | entity d e =>
    obtain ⟨state, hstate, rfl⟩ := Option.map_eq_some_iff.mp hc
    obtain ⟨state', hstate', hread⟩ := u.read_entity_packet hwell p now hstate
    exact ⟨state'.counters, by rw [Shaper.counters?, hstate', Option.map_some], hread⟩

/-- The packets that come, as events. -/
def arrivals (xs : List (Packet × UInt64)) : List Event := xs.map fun (p, now) => .packet p now

/-- **What a run of packets makes of an account**: all their postings are added. -/
theorem read_after (xs : List (Packet × UInt64)) (hwell : s.WellFormed) {a : Account} {c : Counters}
    (hc : s.counters? a = some c) :
    ∃ c', (u.after s (arrivals xs)).counters? a = some c' ∧
      ∀ h, c'.read h = c.read h +
        .ofNat (Posting.total h ((u.passages s (arrivals xs)).filterMap (·.posting? u a))) := by
  induction xs generalizing s c with
  | nil => exact ⟨c, hc, fun h => (UInt64.add_zero _).symm⟩
  | cons x xs ih =>
    obtain ⟨p, now⟩ := x
    obtain ⟨c', hc', hfirst⟩ := u.read_packet hwell p now hc
    obtain ⟨c'', hc'', hlater⟩ := ih (u.wellFormed_step hwell _) hc'
    have hpostings : (u.passages s (arrivals ((p, now) :: xs))).filterMap (·.posting? u a)
        = ((⟨s, p, now⟩ : Passage).posting? u a).toList
          ++ (u.passages (u.step s (.packet p now)) (arrivals xs)).filterMap (·.posting? u a) := by
      rw [arrivals, List.map_cons, passages, List.filterMap_cons]
      cases (⟨s, p, now⟩ : Passage).posting? u a <;> rfl
    refine ⟨c'', hc'', fun h => ?_⟩
    rw [hlater, hfirst, hpostings, Posting.total_append, UInt64.ofNat_add, UInt64.add_assoc]

theorem length_passages_arrivals (xs : List (Packet × UInt64)) (s : Shaper) :
    (u.passages s (arrivals xs)).length = xs.length := by
  induction xs generalizing s with
  | nil => rfl
  | cons x xs ih => exact congrArg Nat.succ (ih _)

end Pipeline

/-- **The counters are an exact account of a run of packets.**  A direction with fresh counters has, after
the run, just the postings of the packets that came through it.  An entity with fresh counters has just the
postings of the packets of that direction that were resolved to it.  And as long as all of them can be
counted, no more packets are dropped or paced than there are. -/
theorem Shaper.counters_are_exact (u : Pipeline) {s : Shaper} (hs : s.Reachable)
    (xs : List (Packet × UInt64)) {a : Account} (hfresh : s.counters? a = some .zero) :
    ∃ c, (u.after s (Pipeline.arrivals xs)).counters? a = some c ∧
      c.Records ((u.passages s (Pipeline.arrivals xs)).filterMap (·.posting? u a)) ∧
      (xs.length < UInt64.size →
        c.packetsDropped.toNat + c.packetsPaced.toNat ≤ c.packetsTotal.toNat) := by
  obtain ⟨c, hc, hread⟩ := u.read_after xs hs.wellFormed hfresh
  have hrecords : c.Records ((u.passages s (Pipeline.arrivals xs)).filterMap (·.posting? u a)) := by
    refine Counters.records_of_read fun h => (hread h).trans ?_
    cases h <;> exact UInt64.zero_add _
  refine ⟨c, hc, hrecords, fun hfew => hrecords.dropped_add_paced_le (Nat.lt_of_le_of_lt ?_ hfew)⟩
  exact u.length_passages_arrivals xs s ▸ List.length_filterMap_le _ _

section

open OneEntity

/-- Of two packets at once the second one is too many: where there are token buckets it is dropped, where
there are pacers it is paced. -/
theorem Shaper.counters_are_exact_for_one :
    (∃ c, (pipeline.after shaper (Pipeline.arrivals [(packet .ingress, 0), (packet .ingress, 0)])).counters?
        (.lane .ingress) = some c ∧ c.packetsDropped = 1 ∧ c.bytesDropped = 1000000 ∧
        c.packetsDropped.toNat + c.packetsPaced.toNat ≤ c.packetsTotal.toNat) ∧
      ∃ c, (pipeline.after shaper (Pipeline.arrivals [(packet .egress, 0), (packet .egress, 0)])).counters?
        (.entity .egress 7) = some c ∧ c.packetsTotal = 2 ∧ c.packetsPaced = 1 := by
  have hshaper : shaper.Reachable := .step pipeline _ (.empty 1)
  obtain ⟨c, hc, hrecords, hbound⟩ := counters_are_exact pipeline hshaper
    [(packet .ingress, 0), (packet .ingress, 0)] (a := .lane .ingress) (by decide)
  obtain ⟨c', hc', hrecords', -⟩ := counters_are_exact pipeline hshaper
    [(packet .egress, 0), (packet .egress, 0)] (a := .entity .egress 7) (by decide)
  exact ⟨⟨c, hc, hrecords.droppedPackets.trans (by decide), hrecords.droppedBytes.trans (by decide),
    hbound (by decide)⟩, c', hc', hrecords'.packets.trans (by decide),
    hrecords'.pacedPackets.trans (by decide)⟩

end

end Shaping
