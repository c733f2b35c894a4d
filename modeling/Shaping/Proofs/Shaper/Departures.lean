import Shaping.Proofs.OpenTable.Refinement
import Shaping.Proofs.Shaper.EntityLimit
import Shaping.Proofs.Shaper.TierCaps

/-!
# Departures stay near

A packet may be asked to wait, at each of the two gates, but never as long as two seconds from now: that is
said of one answer by `Offer.departure_answer`, and of both together by `Passage.departure_outcome`.

A pacer, for its part, remembers the departure of the packet that it paced last.  So no limiter remembers a
time which is two seconds or more behind all packets that have come, as long as packets do not ask for such
times themselves.  That is an invariant of all limiters (`Shaper.EveryLimiter`), which a packet keeps
because the second gate is asked about a departure that is near already (`Pipeline.near_packet`), and a call
because all it can do to a limiter is to start it anew (`Pipeline.near_call`).  It means that no pacer is
ever shut for good: two seconds after the last packet all of them are clear (`Pacer.passes_of_clear`).

What is near is not a matter of the clock, as there is none: times come with packets and need not increase.
So a limiter is near to a list of times, those of the packets seen so far, and it is enough to be near to
one of them.  The list only grows, and a limiter that was near stays near (`Limiter.Near.mono`).

The invariant has to be about all limiters at once, even though the theorem could be stated for one.  A
packet touches a limiter that depends on the tables, and a call puts one in the place of another.  With
`Shaper.EveryLimiter` it need not be said which.
-/

set_option autoImplicit false

namespace Shaping

/-! ## One answer

A delay is one relation, so that two delays in a row can be composed.  They do not add up: the second is
measured from now as well, and not from the first, and so both together are less than two seconds
(`Delayed.trans`). -/

/-- A packet that wanted to leave at one time is to leave later, but less than two seconds from now. -/
structure Delayed (requested now departure : UInt64) : Prop where
  later : max requested now < departure
  near : departure.toNat < now.toNat + 2 * 10 ^ 9

/-- Who has to wait twice has to wait. -/
theorem Delayed.trans {requested now between departure : UInt64} (h : Delayed requested now between)
    (h' : Delayed between now departure) : Delayed requested now departure := by
  obtain ⟨hlater, -⟩ := h
  obtain ⟨hlater', hnear⟩ := h'
  refine ⟨?_, hnear⟩
  rw [UInt64.lt_iff_toNat_lt, Word.toNat_max] at hlater hlater' ⊢
  omega

/-- A turn that is late, but not too late. -/
theorem Pacer.delayed_turn {l : Limiter} {size departure now : UInt64}
    (hlate : max departure now < turn l size) (hnear : turn l size - now < horizon) :
    Delayed departure now (turn l size) := by
  refine ⟨hlate, ?_⟩
  rw [UInt64.lt_iff_toNat_lt, Word.toNat_max] at hlate
  have hle : now ≤ turn l size := by
    rw [UInt64.le_iff_toNat_le]
    omega
  rw [UInt64.lt_iff_toNat_lt, UInt64.toNat_sub_of_le _ _ hle, toNat_horizon] at hnear
  omega

/-- **Only pacers delay packets**, and by less than two seconds. -/
theorem Offer.departure_answer (y : Offer) (d : Discipline) :
    (y.answer d).departure = y.departure ∨
      d = .pacer ∧ Delayed y.departure y.now (y.answer d).departure := by
  cases d with
  | tokenBucket => exact Or.inl rfl
  | pacer =>
    rw [answer, Discipline.offer]
    by_cases hrate : y.limiter.rate = 0
    · left
      rw [Pacer.offer, if_pos hrate]
    · rcases Pacer.offer_cases hrate y.size y.departure y.now with
        ⟨hans, -⟩ | ⟨hans, -, hlate, hnear⟩ | ⟨hans, -⟩
      · left
        rw [hans]
      · right
        rw [hans]
        exact ⟨rfl, Pacer.delayed_turn hlate hnear⟩
      · left
        rw [hans]

/-! ## One packet -/

namespace Passage

variable (u : Pipeline) (x : Passage)

/-- What becomes of the departure at the first gate. -/
theorem departure_entityOutcome : (x.entityOutcome u).departure = x.packet.departure ∨
    (x.stages u).entity = .pacer ∧
      Delayed x.packet.departure x.now (x.entityOutcome u).departure := by
  cases hy : x.entityOffer? u with
  | none =>
    left
    rw [entityOutcome_of_none u hy]
  | some y =>
    obtain ⟨e, state, -, -, rfl⟩ := entityOffer?_eq_some u hy
    rw [entityOutcome_of_some u hy]
    exact Offer.departure_answer _ _

/-- **A departure is left alone, or it moves forward and stays near.** -/
theorem departure_outcome : (x.outcome u).departure = x.packet.departure ∨
    ((x.stages u).entity = .pacer ∨ (x.stages u).global = .pacer) ∧
      Delayed x.packet.departure x.now (x.outcome u).departure := by
  have hfirst := x.departure_entityOutcome u
  rw [outcome_eq]
  cases hz : x.tierOffer? u with
  | none =>
    rw [Option.elim_none]
    exact hfirst.imp_right (And.imp_left Or.inl)
  | some z =>
    obtain ⟨t, z⟩ := z
    obtain ⟨departure, hgate, -, -, rfl⟩ := (tierOffer?_eq_some_iff u).mp hz
    rw [hgate] at hfirst
    rw [Option.elim_some, Admission.outcome]
    dsimp only at hfirst ⊢
    rcases Offer.departure_answer _ (x.stages u).global with hsame | ⟨hstage, hdelayed⟩
    · rw [hsame]
      exact hfirst.imp_right (And.imp_left Or.inl)
    · right
      refine ⟨Or.inr hstage, ?_⟩
      rcases hfirst with hsame | ⟨-, hbefore⟩
      · rw [← hsame]
        exact hdelayed
      · exact hbefore.trans hdelayed

end Passage

/-! ## What limiters remember

Here it must be presupposed that packets do not ask for times that are too far off.  A pacer grants a time
that its turn does not forbid, however far off, and remembers it. -/

/-- The limiter has paced nothing, or what it paced last leaves less than two seconds after one of the given
times. -/
def Limiter.Near (times : List UInt64) (l : Limiter) : Prop :=
  l.lastDeparture = never ∨ ∃ now ∈ times, l.lastDeparture.toNat < now.toNat + 2 * 10 ^ 9

theorem Limiter.near_idle (times : List UInt64) (rate : UInt64) : (idle rate).Near times := Or.inl rfl

theorem Limiter.Near.mono {times times' : List UInt64} {l : Limiter} (h : l.Near times)
    (hsub : times ⊆ times') : l.Near times' :=
  h.imp_right fun ⟨now, hnow, hlt⟩ => ⟨now, hsub hnow, hlt⟩

/-- **A limiter remembers nothing that is not near**, if packets do not ask for that. -/
theorem Offer.near_answer {times : List UInt64} {y : Offer} (h : y.limiter.Near times)
    (hnow : y.now ∈ times) (hdep : y.departure.toNat < y.now.toNat + 2 * 10 ^ 9) (d : Discipline) :
    (y.answer d).limiter.Near times := by
  cases d with
  | tokenBucket =>
    have hlast : (y.answer .tokenBucket).limiter.lastDeparture = y.limiter.lastDeparture :=
      TokenBucket.lastDeparture_offer y.limiter y.size y.now
    rw [Limiter.Near, hlast]
    exact h
  | pacer =>
    rw [answer, Discipline.offer]
    by_cases hrate : y.limiter.rate = 0
    · rw [Pacer.offer, if_pos hrate]
      exact h
    · rcases Pacer.offer_cases hrate y.size y.departure y.now with
        ⟨hans, -⟩ | ⟨hans, -, hlate, hnear⟩ | ⟨hans, -⟩
      · rw [hans]
        refine Or.inr ⟨y.now, hnow, ?_⟩
        rw [Word.toNat_max]
        omega
      · rw [hans]
        exact Or.inr ⟨y.now, hnow, (Pacer.delayed_turn hlate hnear).near⟩
      · rw [hans]
        exact h

/-- A pacer that is clear lets every packet pass that takes less than two seconds to be sent. -/
theorem Pacer.passes_of_clear {l : Limiter} {now : UInt64}
    (h : l.lastDeparture = never ∨ l.lastDeparture ≤ now) {size : UInt64}
    (hshort : (transmissionTime size l.rate).toNat < 2 * 10 ^ 9) (departure : UInt64) :
    (offer l size departure now).verdict = .pass := by
  by_cases hrate : l.rate = 0
  · rw [offer, if_pos hrate]
  · rcases offer_cases hrate size departure now with ⟨hans, -⟩ | ⟨hans, -⟩ | ⟨-, hused, hlate, hfar⟩
    · rw [hans]
    · rw [hans]
    · -- the turn would have to be two seconds away
      have hlast := UInt64.le_iff_toNat_le.mp (h.resolve_left hused)
      have hturn := toNat_turn l size
      rw [UInt64.lt_iff_toNat_lt, Word.toNat_max] at hlate
      have hle : now ≤ turn l size := by
        rw [UInt64.le_iff_toNat_le]
        omega
      rw [UInt64.le_iff_toNat_le, UInt64.toNat_sub_of_le _ _ hle, toNat_horizon] at hfar
      omega

/-! ## All limiters

Of what a packet or a call does, only this has to be known: that each limiter afterwards is one from before,
or an answer of one from before, or new.  For entities that is said by `entity?_packet` and
`Shaper.entity?_call_of_rewritten`, for caps by `TierCaps.limiter_after`, up to the rate, which nearness
does not look at. -/

/-- All limiters, of entities and of tiers, in both directions. -/
structure Shaper.EveryLimiter (P : Limiter → Prop) (s : Shaper) : Prop where
  entities : ∀ d e state, s.entity? d e = some state → P state.limiter
  caps : ∀ d t, P ((s.lane d).caps.limiters.get t)

namespace Shaper.EveryLimiter

variable {P Q : Limiter → Prop} {s : Shaper}

theorem imp (h : s.EveryLimiter P) (himp : ∀ l, P l → Q l) : s.EveryLimiter Q :=
  ⟨fun d e state hstate => himp _ (h.entities d e state hstate), fun d t => himp _ (h.caps d t)⟩

/-- A tier that is asked about a packet has an old limiter, or one that was not used yet. -/
theorem setUp (h : s.EveryLimiter P) (hidle : ∀ rate, P (.idle rate)) (d : Direction) (plan : RatePlan)
    (now : UInt64) (t : Tier) : P (((s.lane d).caps.setUp plan now).limiters.get t) := by
  rw [TierCaps.setUp]
  split
  · exact h.caps d t
  · rw [PerTier.get_ofFn]
    exact hidle _

/-- An empty shaper has no limiters but those of the tiers, which were not used yet. -/
theorem empty (hidle : ∀ rate, P (.idle rate)) (n : Nat) : (Shaper.empty n).EveryLimiter P where
  entities d e state hstate := by
    have hnone : (Shaper.empty n).entity? d e = none := by
      cases d <;> exact OpenTable.get?_empty n e
    rw [hnone] at hstate
    cases hstate
  caps d t := by
    cases d <;> cases t <;> exact hidle 0

end Shaper.EveryLimiter

namespace Pipeline

variable (u : Pipeline) {s : Shaper} {times : List UInt64}

/-- **A packet leaves all limiters near.** -/
theorem near_packet (hwell : s.WellFormed) (h : s.EveryLimiter (Limiter.Near times)) {p : Packet}
    {now : UInt64} (hnow : now ∈ times) (hdep : p.departure.toNat < now.toNat + 2 * 10 ^ 9) :
    (u.step s (.packet p now)).EveryLimiter (Limiter.Near times) where
  entities d e state' hstate' := by
    have hafter := u.entity?_packet hwell p now d e
    dsimp only at hafter
    rw [hafter] at hstate'
    split at hstate'
    · obtain ⟨state, hstate, rfl⟩ := Option.map_eq_some_iff.mp hstate'
      rw [(state.gate_spec _ _ _ _).2]
      exact Offer.near_answer (h.entities d e state hstate) hnow hdep _
    · exact h.entities d e state' hstate'
  caps d t' := by
    rcases caps_packet_cases (u := u) (s := s) p now d with ⟨hsame, -⟩ | ⟨t, z, ring, rfl, hz, hafter⟩
    · rw [hsame]
      exact h.caps d t'
    · obtain ⟨departure, hgate, -, -, rfl⟩ := (Passage.tierOffer?_eq_some_iff u).mp hz
      have hsetUp := h.setUp (Limiter.near_idle times) p.direction (s.lane p.direction).plan now
      -- the first gate has left the departure near
      have hfirst : departure.toNat < now.toNat + 2 * 10 ^ 9 := by
        have hmoved := Passage.departure_entityOutcome u ⟨s, p, now⟩
        rw [hgate] at hmoved
        rcases hmoved with hsame | ⟨-, hdelayed⟩
        · rw [show departure = p.departure from hsame]
          exact hdep
        · exact hdelayed.near
      obtain ⟨rate, hrate⟩ := (s.lane p.direction).caps.limiter_after
        (u.options.stages.get p.direction).global (s.lane p.direction).plan ring t _ t'
      rw [hafter, hrate]
      split
      · exact Offer.near_answer (hsetUp t) hnow hfirst _
      · exact hsetUp t'

/-- **A call leaves all limiters near**, as it only ever puts unused ones in their place. -/
theorem near_call (hwell : s.WellFormed) (h : s.EveryLimiter (Limiter.Near times)) (c : Call) :
    (s.call c).2.EveryLimiter (Limiter.Near times) where
  entities d e := by
    refine Shaper.entity?_call_of_rewritten
      (Q := fun o => ∀ state, o = some state → state.limiter.Near times) ?_ hwell c (h.entities d e)
    rintro before after (- | - | ⟨rate, -⟩) hbefore state hstate
    · exact hbefore state hstate
    · cases hstate
    · cases hstate
      exact Limiter.near_idle times rate
  caps d t := by
    have hcaps := (Shaper.stable_caps d (s.lane d).caps).call (s := s) rfl c
    rw [hcaps]
    exact h.caps d t

/-- **All limiters are near the packets of a run.** -/
theorem near_run (events : List Event) (hwell : s.WellFormed)
    (h : s.EveryLimiter (Limiter.Near times))
    (hdep : ∀ x ∈ u.passages s events, x.packet.departure.toNat < x.now.toNat + 2 * 10 ^ 9) :
    (u.after s events).EveryLimiter
      (Limiter.Near (times ++ (u.passages s events).map (·.now))) := by
  induction events generalizing s times with
  | nil =>
    rw [passages, List.map_nil, List.append_nil]
    exact h
  | cons e events ih =>
    cases e with
    | packet p now =>
      rw [passages, List.forall_mem_cons] at hdep
      have hlonger : s.EveryLimiter (Limiter.Near (times ++ [now])) :=
        h.imp fun l hl => hl.mono (List.subset_append_left _ _)
      have hstep := u.near_packet hwell hlonger (List.mem_append_right _ (List.mem_singleton_self now))
        hdep.1
      have hrest := ih (u.wellFormed_step hwell _) hstep hdep.2
      rw [List.append_assoc] at hrest
      exact hrest
    | call c => exact ih (u.wellFormed_step hwell _) (near_call hwell h c) hdep

end Pipeline

/-- **Departures stay near.**  What is decided about a packet leaves its departure alone, or moves it past
the present and past where it was, but by less than two seconds from now, and then one of the stages of its
direction is a pacer.

In a run from the beginning in which packets do not ask for times further off than that, every limiter,
after any number of events, remembers nothing or a time less than two seconds after that of a packet.  So as
soon as two seconds have gone by since all packets, a pacer lets everything pass that is sent within two
seconds at its rate. -/
theorem Shaper.departures_stay_near (u : Pipeline) :
    (∀ x : Passage, (x.decision u).2.1.departure = x.packet.departure ∨
      ((x.stages u).entity = .pacer ∨ (x.stages u).global = .pacer) ∧
        Delayed x.packet.departure x.now (x.decision u).2.1.departure) ∧
    ∀ (n : Nat) (events : List Event),
      (∀ x ∈ u.passages (.empty n) events,
        x.packet.departure.toNat < x.now.toNat + 2 * 10 ^ 9) →
      (u.after (.empty n) events).EveryLimiter fun l =>
        (l.lastDeparture = never ∨ ∃ x ∈ u.passages (.empty n) events,
          l.lastDeparture.toNat < x.now.toNat + 2 * 10 ^ 9) ∧
        ∀ size departure now,
          (∀ x ∈ u.passages (.empty n) events, x.now.toNat + 2 * 10 ^ 9 ≤ now.toNat) →
          (Pacer.transmissionTime size l.rate).toNat < 2 * 10 ^ 9 →
          (Pacer.offer l size departure now).verdict = .pass := by
  refine ⟨fun x => x.departure_outcome u, fun n events hdep => ?_⟩
  have hnear := u.near_run events (Shaper.wellFormed_empty n)
    (EveryLimiter.empty (Limiter.near_idle []) n) hdep
  refine hnear.imp fun l hl => ?_
  have hseen : l.lastDeparture = never ∨ ∃ x ∈ u.passages (.empty n) events,
      l.lastDeparture.toNat < x.now.toNat + 2 * 10 ^ 9 := by
    refine hl.imp_right fun ⟨now, hnow, hlt⟩ => ?_
    obtain ⟨x, hx, rfl⟩ := List.mem_map.mp hnow
    exact ⟨x, hx, hlt⟩
  refine ⟨hseen, fun size departure now hlater hshort =>
    Pacer.passes_of_clear (hseen.imp_right ?_) hshort departure⟩
  rintro ⟨x, hx, hlt⟩
  have hgone := hlater x hx
  rw [UInt64.le_iff_toNat_le]
  omega

section

open OneEntity

/-- Two packets of a megabyte come at once, and the second one is paced to leave after a second.  When that
second and one more are over, the pacer is clear. -/
theorem Shaper.departures_stay_near_for_one :
    let events := [.call (.writeRates 7 (.const 1000000)), .packet (packet .egress) 0,
      .packet (packet .egress) 0]
    ∃ state, (pipeline.after (.empty 1) events).entity? .egress 7 = some state ∧
      state.limiter.lastDeparture = 1000000000 ∧
      (Pacer.offer state.limiter 1000000 0 2000000000).verdict = .pass := by
  intro events
  have hnear := (departures_stay_near pipeline).2 1 events (by decide)
  refine ⟨⟨⟨1000000, never, 0, 1000000000⟩,
    { packetsTotal := 2, bytesTotal := 2000000, packetsPaced := 1 }⟩, by decide, rfl, ?_⟩
  exact (hnear.entities .egress 7 _ (by decide)).2 1000000 0 2000000000 (by decide) (by decide)

end

end Shaping
