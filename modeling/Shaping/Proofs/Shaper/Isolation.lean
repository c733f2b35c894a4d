import Shaping.Proofs.Shaper.Account

/-!
# Traffic is isolated

A direction has a lane of its own, and an entity has limiters of its own.  Packets that go another way, or
that belong to somebody else, could as well be missing from a run: the others would not notice.

What it takes for this is said by `Isolates`, which is about a part of the shaper (seen through `view`) and
the packets that are concerned with it (`mine`).  Other packets leave the part as it is, and what becomes of
the packets concerned depends on the part only.  By induction a run can then not be told from one in which
other packets are missing, neither by what is decided about the packets concerned nor by the part afterwards
(`Isolates.run`).

* A lane is such a part, for the packets of its direction (`isolates_lane`).
* The limit and the account of an entity in a direction are such a part, for the packets of the entity in
  that direction, as long as there is no plan (`isolates_entity`).  Under a plan entities of one tier meet
  at its cap, and then they do notice each other.

To compare two runs packet by packet one would have to line them up, and they have different lengths.  The
induction is over the longer one instead.  A packet that is left out leaves the part alone in one run and is
not there in the other; one that is kept and does not concern the part leaves it alone in both; and one that
concerns it is never left out.
-/

set_option autoImplicit false

namespace Shaping

namespace Pipeline

variable (u : Pipeline) {σ : Type}

/-- The packets of interest in a run, with what is decided about each of them. -/
def outcomes (mine : Packet → Bool) (s : Shaper) (xs : List (Packet × UInt64)) :
    List (Packet × Outcome) :=
  ((u.passages s (arrivals xs)).filter fun x => mine x.packet).map fun x => (x.packet, x.outcome u)

/-- As long as `P` holds, a part of the shaper goes with the packets that are `mine`: nothing else changes
it, and what is decided about them depends on nothing else. -/
structure Isolates (P : Shaper → Prop) (mine : Packet → Bool) (view : Shaper → σ) : Prop where
  /-- What is presupposed goes on to hold. -/
  keeps : ∀ {s : Shaper} (p : Packet) (now : UInt64), P s → P (u.step s (.packet p now))
  /-- The other packets leave the part alone. -/
  unseen : ∀ {s : Shaper} {p : Packet} (now : UInt64), P s → mine p = false →
    view (u.step s (.packet p now)) = view s
  /-- Where the part is the same, so is the decision, and the part afterwards. -/
  seen : ∀ {s s' : Shaper} {p : Packet} (now : UInt64), P s → P s' → view s = view s' → mine p = true →
    (⟨s, p, now⟩ : Passage).outcome u = (⟨s', p, now⟩ : Passage).outcome u ∧
      view (u.step s (.packet p now)) = view (u.step s' (.packet p now))

variable {u} {P : Shaper → Prop} {mine : Packet → Bool} {view : Shaper → σ}

theorem outcomes_cons_of_mine {p : Packet} (hmine : mine p = true) (s : Shaper) (now : UInt64)
    (xs : List (Packet × UInt64)) :
    u.outcomes mine s ((p, now) :: xs) = (p, (⟨s, p, now⟩ : Passage).outcome u)
      :: u.outcomes mine (u.step s (.packet p now)) xs := by
  simp [outcomes, arrivals, passages, hmine]

theorem outcomes_cons_of_not_mine {p : Packet} (hmine : mine p = false) (s : Shaper) (now : UInt64)
    (xs : List (Packet × UInt64)) :
    u.outcomes mine s ((p, now) :: xs) = u.outcomes mine (u.step s (.packet p now)) xs := by
  simp [outcomes, arrivals, passages, hmine]

/-- **Packets that do not concern a part can be left out of a run**, as many of them as one likes. -/
theorem Isolates.run (h : u.Isolates P mine view) {keep : Packet × UInt64 → Bool}
    (xs : List (Packet × UInt64)) (hkeep : ∀ x ∈ xs, mine x.1 = true → keep x = true) {s s' : Shaper}
    (hs : P s) (hs' : P s') (hview : view s = view s') :
    u.outcomes mine s xs = u.outcomes mine s' (xs.filter keep) ∧
      view (u.after s (arrivals xs)) = view (u.after s' (arrivals (xs.filter keep))) := by
  induction xs generalizing s s' with
  | nil => exact ⟨rfl, hview⟩
  | cons x xs ih =>
    obtain ⟨p, now⟩ := x
    obtain ⟨hfirst, hrest⟩ := List.forall_mem_cons.mp hkeep
    by_cases hmine : mine p = true
    · obtain ⟨houtcome, hviews⟩ := h.seen now hs hs' hview hmine
      obtain ⟨hlater, hend⟩ := ih hrest (h.keeps p now hs) (h.keeps p now hs') hviews
      rw [List.filter_cons_of_pos (hfirst hmine), outcomes_cons_of_mine hmine,
        outcomes_cons_of_mine hmine, houtcome, hlater]
      exact ⟨rfl, hend⟩
    · have hother : mine p = false := by simpa using hmine
      have hsame := (h.unseen now hs hother).trans hview
      rw [outcomes_cons_of_not_mine hother]
      by_cases hk : keep (p, now) = true
      · rw [List.filter_cons_of_pos hk, outcomes_cons_of_not_mine hother]
        exact ih hrest (h.keeps p now hs) (h.keeps p now hs')
          (hsame.trans (h.unseen now hs' hother).symm)
      · rw [List.filter_cons_of_neg hk]
        exact ih hrest (h.keeps p now hs) hs' hsame

/-! ## Directions -/

variable (u) {s s' : Shaper} {d : Direction}

/-- **A direction sees its own packets only.**  A decision also depends on the directory, which no packet
changes. -/
theorem isolates_lane (directory : Directory) (d : Direction) :
    u.Isolates (·.directory = directory) (·.direction = d) (·.lane d) where
  keeps p now hs := (u.directory_packet _ p now).trans hs
  unseen now _ hother := u.lane_packet_of_ne _ now fun hd => of_decide_eq_false hother hd.symm
  seen {s s' p} now hs hs' hlane hmine := by
    have hd : p.direction = d := of_decide_eq_true hmine
    subst hd
    have howner : (⟨s, p, now⟩ : Passage).owner u = (⟨s', p, now⟩ : Passage).owner u := by
      rw [Passage.owner, Passage.owner, hs.trans hs'.symm]
    have hdecided := Passage.decided u (x := ⟨s, p, now⟩)
    rw [howner, show (⟨s, p, now⟩ : Passage).lane = (⟨s', p, now⟩ : Passage).lane from hlane] at hdecided
    exact Prod.ext_iff.mp (hdecided.trans (Passage.decided u (x := ⟨s', p, now⟩)).symm)

/-! ## Entities -/

/-- The entity that a packet is resolved to. -/
def entityOf? (directory : Directory) (p : Packet) : Option EntityId :=
  (p.localAddress?.map (u.resolver directory p.direction)).join.map (·.entity)

/-- Does a packet go one way and belong to an entity? -/
def belongs (directory : Directory) (d : Direction) (e : EntityId) (p : Packet) : Bool :=
  p.direction = d ∧ u.entityOf? directory p = some e

/-- Without a plan for the direction, what is decided about a packet is what the limit of its entity
says. -/
theorem outcome_of_unplanned (x : Passage) (hplan : x.lane.plan.configured = false) :
    x.outcome u = x.entityOutcome u := by
  have hnone : x.tierOffer? u = none :=
    (Passage.tierOffer?_eq_none_iff u).mpr (Or.inr (Or.inr hplan))
  rw [Passage.outcome_eq, hnone, Option.elim_none]

/-- **An entity sees its own packets only**, where there is no plan. -/
theorem isolates_entity (directory : Directory) (d : Direction) (e : EntityId) :
    u.Isolates
      (fun s => s.WellFormed ∧ s.directory = directory ∧ (s.lane d).plan.configured = false)
      (u.belongs directory d e) (·.entity? d e) where
  keeps {s} p now := by
    rintro ⟨hwell, hdirectory, hplan⟩
    refine ⟨u.wellFormed_step hwell _, (u.directory_packet s p now).trans hdirectory, ?_⟩
    rw [u.plan_packet p now d]
    exact hplan
  unseen {s p} now := by
    rintro ⟨hwell, rfl, -⟩ hother
    have hnot := of_decide_eq_false hother
    exact (u.entity?_packet hwell p now d e).trans (if_neg fun hx => hnot ⟨hx.1.symm, hx.2⟩)
  seen {s s' p} now := by
    rintro ⟨hwell, rfl, hplan⟩ ⟨hwell', hdirectory, hplan'⟩ hstate hmine
    obtain ⟨rfl, hof⟩ : p.direction = d ∧ u.entityOf? s.directory p = some e :=
      of_decide_eq_true hmine
    have hof' : u.entityOf? s'.directory p = some e := by rw [hdirectory, hof]
    have he : (⟨s, p, now⟩ : Passage).entity? u = some e := hof
    have he' : (⟨s', p, now⟩ : Passage).entity? u = some e := hof'
    constructor
    · have hoffer := Passage.entityOffer?_of_entity u he
      have hoffer' := Passage.entityOffer?_of_entity u he'
      dsimp only at hoffer hoffer' hstate
      rw [hstate, ← hoffer'] at hoffer
      rw [outcome_of_unplanned u ⟨s, p, now⟩ hplan, outcome_of_unplanned u ⟨s', p, now⟩ hplan',
        Passage.entityOutcome_eq_elim, Passage.entityOutcome_eq_elim, hoffer]
      rfl
    · have hafter := u.entity?_packet hwell p now p.direction e
      have hafter' := u.entity?_packet hwell' p now p.direction e
      dsimp only at hafter hafter'
      rw [hafter, hafter', if_pos ⟨rfl, he⟩, if_pos ⟨rfl, he'⟩, hstate]
      rfl

end Pipeline

/-- **Traffic is isolated.**  Take any packets out of a run, but none of a direction: then what is decided
about the packets of that direction stays the same, and so does all of its lane.  Take any packets out of a
run, but none that belong to an entity in a direction without a plan: then what is decided about the packets
of the entity stays the same, and so do its limit and its account. -/
theorem Shaper.traffic_is_isolated (u : Pipeline) {s : Shaper} (hs : s.Reachable)
    (xs : List (Packet × UInt64)) (keep : Packet × UInt64 → Bool) (d : Direction) :
    ((∀ x ∈ xs, x.1.direction = d → keep x = true) →
      u.outcomes (·.direction = d) s xs = u.outcomes (·.direction = d) s (xs.filter keep) ∧
        (u.after s (Pipeline.arrivals xs)).lane d
          = (u.after s (Pipeline.arrivals (xs.filter keep))).lane d) ∧
    ∀ e, (s.lane d).plan.configured = false →
      (∀ x ∈ xs, u.belongs s.directory d e x.1 = true → keep x = true) →
      u.outcomes (u.belongs s.directory d e) s xs
          = u.outcomes (u.belongs s.directory d e) s (xs.filter keep) ∧
        (u.after s (Pipeline.arrivals xs)).entity? d e
          = (u.after s (Pipeline.arrivals (xs.filter keep))).entity? d e := by
  constructor
  · intro hkeep
    exact (u.isolates_lane s.directory d).run xs
      (fun x hx hmine => hkeep x hx (of_decide_eq_true hmine)) rfl rfl rfl
  · intro e hplan hkeep
    have hpre := And.intro hs.wellFormed (And.intro (Eq.refl s.directory) hplan)
    exact (u.isolates_entity s.directory d e).run xs hkeep hpre hpre rfl

/-! ## Cases

Two entities with the same limits, whose packets come by turns. -/

namespace TwoEntities

/-- What has the address zero belongs to entity 7, and all else to entity 8. -/
def pipeline : Pipeline := ⟨.standard, fun _ _ a => some ⟨if a = .v4 0 then 7 else 8, none⟩⟩

/-- Both entities are limited. -/
def shaper : Shaper :=
  pipeline.after (.empty 2)
    [.call (.writeRates 7 (.const 1000000)), .call (.writeRates 8 (.const 1000000))]

theorem reachable : shaper.Reachable := Shaper.Reachable.after (.empty 2) pipeline _

/-- A packet of a megabyte. -/
def packet (d : Direction) (address : BitVec 32) : Packet :=
  ⟨1000000, d, 0, some ⟨.v4 address, .v4 address⟩, 3⟩

/-- On the way out each entity sends two packets at once. -/
def traffic : List (Packet × UInt64) :=
  [(packet .egress 0, 0), (packet .egress 1, 0), (packet .ingress 0, 0), (packet .egress 1, 0),
    (packet .egress 0, 0)]

end TwoEntities

section

open TwoEntities

/-- The packets of one of two entities are paced as if the other one had sent nothing, and nothing had come
in. -/
theorem Shaper.traffic_is_isolated_of_two :
    pipeline.outcomes (·.direction = .egress) shaper traffic
        = pipeline.outcomes (·.direction = .egress) shaper (traffic.filter (·.1.direction = .egress)) ∧
      pipeline.outcomes (pipeline.belongs shaper.directory .egress 7) shaper traffic
        = pipeline.outcomes (pipeline.belongs shaper.directory .egress 7) shaper
          (traffic.filter fun x => pipeline.belongs shaper.directory .egress 7 x.1) :=
  ⟨((traffic_is_isolated pipeline reachable traffic (·.1.direction = .egress) .egress).1
      fun _ _ hd => decide_eq_true hd).1,
    ((traffic_is_isolated pipeline reachable traffic
      (fun x => pipeline.belongs shaper.directory .egress 7 x.1) .egress).2 7 (by decide)
      fun _ _ hmine => hmine).1⟩

end

end Shaping
