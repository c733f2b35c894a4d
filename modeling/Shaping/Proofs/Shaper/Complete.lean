import Shaping.Proofs.Control.Refused
import Shaping.Proofs.OpenTable.Refinement
import Shaping.Proofs.Shaper.EntityLimit

/-!
# Entries are complete

An entry is made in two steps: it is claimed, and then it is filled in.  What is claimed and not filled in
yet says that an address belongs to entity zero, or that an entity is limited to rate zero, and the packet
path has a branch for either of them.  Between calls there are no such entries, however the calls went, so
neither branch is ever taken.

The reason is that both steps are parts of one `Write`, and that a full table is found out at the first of
them.  So a call that fails leaves whole writes behind, and it only matters what is written
(`Shaper.Complete.write`).  A call that would write something else is refused before it writes anything
(`Shaper.keeps_complete_writePod`, `Shaper.keeps_complete_writeRates`), except that entity zero may have its
limits taken away, of which it has none.

One would like to argue that a call either succeeds and has filled in all it claimed, or fails and has done
nothing.  But calls are not like that: a call for several addresses may fail after some of them.  It is the
single write that is all or nothing, and for the invariant that suffices, since it speaks about one entry at
a time.
-/

set_option autoImplicit false

namespace Shaping

/-! ## What is complete

That no packet has found an entity without a rate (`account`) does not follow from the rate that it has now.
Such packets are counted, counts are not taken back, and a limit that is set anew goes with the account that
was there.  So it has to be part of what is kept. -/

/-- The entity is one, it is limited to a rate, and no packet has found it without. -/
structure EntityState.Complete (e : EntityId) (state : EntityState) : Prop where
  entity : e ≠ 0
  rate : state.limiter.rate ≠ 0
  account : state.counters.faults.rateUnconfigured = 0

/-- No table of the shaper has an entry that was claimed and not filled in. -/
structure Shaper.Complete (s : Shaper) : Prop where
  wellFormed : s.WellFormed
  owners : ∀ key entry, s.directory.get? key = some entry → entry.entity ≠ 0
  entities : ∀ d e state, s.entity? d e = some state → state.Complete e

/-- What is written is complete, or takes something away. -/
def Write.Filled : Write → Prop
  | .address pod _ => pod.entity ≠ 0
  | .rate e _ limit => e = 0 → limit = 0

/-- A limit that is set goes with the account that was there, or with a new one. -/
theorem EntityState.complete_limited {e : EntityId} {limit : UInt64} {before : Option EntityState}
    {after : EntityState} (hfilled : e = 0 → limit = 0)
    (hbefore : ∀ state, before = some state → state.Complete e)
    (h : Write.limited limit before = some after) : after.Complete e := by
  rw [Write.limited] at h
  split at h
  · cases h
  · rename_i hlimit
    split at h
    · exact hbefore after h
    · cases h
      refine ⟨fun he => hlimit (hfilled he), hlimit, ?_⟩
      cases before with
      | none => rfl
      | some state => exact (hbefore state rfl).account

/-- A packet that meets a limit with a rate leaves it complete. -/
theorem EntityState.Complete.gate {e : EntityId} {state : EntityState} (h : state.Complete e)
    (d : Discipline) (size departure now : UInt64) :
    (state.gate d size departure now).2.Complete e := by
  refine ⟨h.entity, state.rate_gate d size departure now ▸ h.rate, ?_⟩
  rw [EntityState.gate, if_neg h.rate]
  dsimp only
  cases (d.offer state.limiter size departure now).verdict with
  | drop => exact h.account
  | pass =>
    dsimp only
    split
    · exact h.account
    · exact h.account

namespace Shaper

open Control

/-! ## Calls

To show that an operation keeps complete entries it is first written as a list of writes (`writePod_eq`,
`writeRates_eq`), for which each write is looked at on its own.  The case in which it is refused is done
before, by computing it to its failure. -/

theorem complete_empty (maxEntries : Nat) : (empty maxEntries).Complete where
  wellFormed := wellFormed_empty maxEntries
  owners key entry h := by
    have hnone : (empty maxEntries).directory.get? key = none := OpenTable.get?_empty maxEntries key
    rw [hnone] at h
    cases h
  entities d e state h := by
    have hnone : (empty maxEntries).entity? d e = none := by
      cases d <;> exact OpenTable.get?_empty maxEntries e
    rw [hnone] at h
    cases h

/-- **A write leaves complete entries behind.** -/
theorem Complete.write {s s' : Shaper} (h : s.Complete) {w : Write} (hw : w.Filled)
    (hdone : s.write w = .ok s') : s'.Complete := by
  have hwritten := h.wellFormed.writtenBy hdone
  refine ⟨hwritten.wellFormed, fun key entry hentry => ?_, fun d e state hstate => ?_⟩
  · rw [hwritten.address, List.foldl_cons, List.foldl_nil] at hentry
    cases w with
    | rate e d limit => exact h.owners key entry hentry
    | address pod a =>
      rw [Write.onAddress] at hentry
      split at hentry
      · cases hentry
        exact hw
      · exact h.owners key entry hentry
  · rw [hwritten.entity, List.foldl_cons, List.foldl_nil] at hstate
    cases w with
    | address pod a => exact h.entities d e state hstate
    | rate e' d' limit =>
      rw [Write.onEntity] at hstate
      split at hstate
      · rename_i hplace
        obtain ⟨-, rfl⟩ := hplace
        exact EntityState.complete_limited hw (h.entities d e) hstate
      · exact h.entities d e state hstate

theorem keeps_complete_write {w : Write} (hw : w.Filled) : Keeps Complete w.control := by
  intro c hc
  rcases run_write w c with ⟨s, notes, hdone, hrun⟩ | ⟨full, -, hrun⟩
  · rw [hrun]
    exact hc.write hw hdone
  · rw [hrun]
    exact hc

theorem keeps_complete_writes {writes : List Write} (h : ∀ w ∈ writes, w.Filled) :
    Keeps Complete (writes.forM Write.control) :=
  .forM fun w hw => keeps_complete_write (h w hw)

/-- Limits of an entity. -/
theorem filled_rateWrites {e : EntityId} (he : e ≠ 0) (rates : PerDirection UInt64) :
    ∀ w ∈ rateWrites e rates, w.Filled := by
  intro w hw
  obtain ⟨d, -, rfl⟩ := List.mem_map.mp hw
  exact fun hzero => absurd hzero he

/-- Limits that are taken away. -/
theorem keeps_complete_deleteRates (e : EntityId) : Keeps Complete (deleteRates e) := by
  rw [deleteRates_eq]
  exact .forM fun d _ => keeps_complete_write (w := .rate e d 0) fun _ => rfl

/-- Entity zero is refused. -/
theorem keeps_complete_writeRates (e : EntityId) (rates : PerDirection UInt64) :
    Keeps Complete (writeRates e rates) := by
  by_cases he : e = 0
  · intro c hc
    rw [writeRates, if_pos he, run_bind, run_throw]
    exact hc
  · rw [writeRates_eq he]
    exact keeps_complete_writes (filled_rateWrites he rates)

/-- A pod without an entity is refused, unless it is left out anyway. -/
theorem keeps_complete_writePod (pod : Pod) : Keeps Complete (writePod pod) := by
  cases hhost : pod.hostNetwork with
  | true =>
    rw [writePod, if_pos hhost]
    exact .note _
  | false =>
    by_cases he : pod.entity = 0
    · intro c hc
      rw [writePod, hhost, if_neg Bool.false_ne_true, if_pos he, run_bind, run_throw]
      exact hc
    · rw [writePod_eq hhost he]
      refine keeps_complete_writes fun w hw => ?_
      rcases List.mem_append.mp hw with haddress | hrate
      · obtain ⟨a, -, rfl⟩ := List.mem_map.mp haddress
        exact he
      · exact filled_rateWrites he _ w hrate

/-- To take addresses out leaves the others as they are. -/
theorem keeps_complete_deletePod (pod : Pod) : Keeps Complete (deletePod pod) := by
  have herase : ∀ (s : Shaper) key, s.Complete → (s.eraseAddress key).2.Complete := by
    intro s key h
    refine ⟨stable_wellFormed.eraseAddress s key h.wellFormed, fun k entry hentry => ?_, h.entities⟩
    have hget := h.wellFormed.directory.get?_erase key k
    rw [eraseAddress] at hentry
    dsimp only at hentry
    rw [hget] at hentry
    split at hentry
    · cases hentry
    · exact h.owners k entry hentry
  rw [deletePod]
  split
  · refine .forM fun a _ => .bind (.alter fun s => herase s a.key) fun found => ?_
    split
    · exact .note _
    · exact .pure _
  · exact .pure _

/-- Plans are no entries. -/
theorem Complete.setPlan {s : Shaper} (h : s.Complete) (d : Direction) (plan : RatePlan) :
    (s.setPlan d plan).Complete where
  wellFormed := stable_wellFormed.setPlan s d plan h.wellFormed
  owners := h.owners
  entities d' e state hstate := by
    refine h.entities d' e state ?_
    cases d <;> cases d' <;> exact hstate

/-- **Every call leaves complete entries behind**, whether it fails or not. -/
theorem Complete.call {s : Shaper} (h : s.Complete) (c : Call) : (s.call c).2.Complete := by
  have hplans : ∀ plans, Keeps Complete (writePlans plans) :=
    keeps_writePlans fun _ d plan hs => hs.setPlan d plan
  refine call_leads (Q := Complete) ?_ h
  cases c with
  | writePlans plans => exact hplans plans
  | writePod pod => exact keeps_complete_writePod pod
  | deletePod pod => exact keeps_complete_deletePod pod
  | writeRates entity rates => exact keeps_complete_writeRates entity rates
  | deleteRates entity => exact keeps_complete_deleteRates entity
  | apply config =>
    exact (hplans _).bind fun _ => .forM fun pod _ => .within (keeps_complete_writePod pod)

/-! ## Packets

A packet finds an entry that is complete, hence one with a rate, and takes the branch of `EntityState.gate`
that asks the limiter.  The other branch is the one that would spoil the account. -/

/-- A packet makes no entries, and leaves the one that it visits complete. -/
theorem Complete.packet {s : Shaper} (h : s.Complete) (u : Pipeline) (p : Packet) (now : UInt64) :
    (u.step s (.packet p now)).Complete where
  wellFormed := u.wellFormed_step h.wellFormed (.packet p now)
  owners key entry hentry := by
    rw [u.directory_packet] at hentry
    exact h.owners key entry hentry
  entities d e state hstate := by
    have hafter := u.entity?_packet h.wellFormed p now d e
    dsimp only at hafter
    rw [hafter] at hstate
    split at hstate
    · obtain ⟨before, hbefore, rfl⟩ := Option.map_eq_some_iff.mp hstate
      exact (h.entities d e before hbefore).gate _ _ _ _
    · exact h.entities d e state hstate

/-- **Between calls all entries are complete.** -/
theorem Reachable.complete {s : Shaper} (h : s.Reachable) : s.Complete := by
  induction h with
  | empty n => exact complete_empty n
  | step u event _ ih =>
    cases event with
    | packet p now => exact ih.packet u p now
    | call c => exact ih.call c

/-- **No table holds a reserved or an empty entry between calls**, however the calls before went and whatever
packets came in between.  No address belongs to entity zero, which has no limit either; no entity is limited to
rate zero, and none has ever been met without a rate.  So an address that has an entry is resolved to what that
says, and a limit that is asked about a packet has a rate. -/
theorem entries_are_complete {s : Shaper} (hs : s.Reachable) :
    (∀ line ∈ s.directory.toList, line.2.entity ≠ 0) ∧
    (∀ d, ∀ line ∈ (s.lane d).entities.toList,
      line.1 ≠ 0 ∧ line.2.limiter.rate ≠ 0 ∧ line.2.counters.faults.rateUnconfigured = 0) ∧
    (∀ a, s.directory.resolve a
      = (s.directory.get? a.key).map fun entry => ⟨entry.entity, Tier.ofClass? entry.classId⟩) ∧
    ∀ (u : Pipeline) (p : Packet) (now : UInt64) (offer : Offer),
      (⟨s, p, now⟩ : Passage).entityOffer? u = some offer → offer.limiter.rate ≠ 0 := by
  have hcomplete := hs.complete
  have hwell := hs.wellFormed
  refine ⟨?_, ?_, fun a => ?_, fun u p now offer hoffer => ?_⟩
  · rintro ⟨key, entry⟩ hline
    exact hcomplete.owners key entry
      (hwell.directory.get?_eq_some_iff.mpr (OpenTable.mem_toList.mp hline))
  · rintro d ⟨e, state⟩ hline
    obtain ⟨hentity, hrate, haccount⟩ := hcomplete.entities d e state
      ((hwell.entities d).get?_eq_some_iff.mpr (OpenTable.mem_toList.mp hline))
    exact ⟨hentity, hrate, haccount⟩
  · rw [Directory.resolve]
    cases hentry : s.directory.get? a.key with
    | none => rfl
    | some entry => exact if_neg (hcomplete.owners a.key entry hentry)
  · obtain ⟨e, state, -, hstate, rfl⟩ := Passage.entityOffer?_eq_some u hoffer
    exact (hcomplete.entities _ e state hstate).rate

/-! ## Cases -/

/-- After a call for entity zero, which fails, and one for entity 7, which a packet follows. -/
theorem entries_are_complete_for_one :
    (∀ d, ∀ line ∈ ((OneEntity.pipeline.after (.empty 1) [.call (.writeRates 0 (.const 1000000)),
        .call (.writeRates 7 (.const 1000000)), .packet (OneEntity.packet .ingress) 0]).lane
          d).entities.toList,
      line.1 ≠ 0 ∧ line.2.limiter.rate ≠ 0 ∧ line.2.counters.faults.rateUnconfigured = 0) ∧
    ((OneEntity.pipeline.after (.empty 1) [.call (.writeRates 0 (.const 1000000)),
      .call (.writeRates 7 (.const 1000000)), .packet (OneEntity.packet .ingress) 0]).lane
        .ingress).entities.toList.length = 1 :=
  ⟨(entries_are_complete (Reachable.after (.empty 1) OneEntity.pipeline _)).2.1, by decide⟩

end Shaper

end Shaping
