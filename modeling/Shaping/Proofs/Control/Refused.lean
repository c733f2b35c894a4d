import Shaping.Proofs.Shaper.Run

/-!
# Writes that are refused

To enter a pod takes several writes: one for each of its addresses, and then one for each direction in which
its entity is limited.  A `Write` is one of these.  It is done as a whole or not at all, because all that can
go wrong is that a table is full, and that is found out before anything is changed (`Control.run_write`).

There is nothing of the kind for all of them together.  A call does its writes in turn until one of them is
refused, and what it did before stays done (`Control.run_writes`, `writes_are_not_undone`).  So what a failed
call leaves is what the writes before the refused one make of the shaper, and nothing else: no limiter but
that of the pod's own entity can have changed, and that one only in the direction that comes first
(`failed_writes_stop_midway`).

A write has two descriptions.  One is the operation, with its notes and the context of its failure; the
other is `Shaper.write`, which is a function of the shaper and fails with nothing but the table that is
full.  Once the two are seen to go together, all further statements are about the second, and a sequence of
writes is a fold of it in `Except`, of which library lemmas speak.
-/

set_option autoImplicit false

namespace Shaping

/-! ## Single writes

A write has all the data in it that it needs, so that a call for a pod becomes a list.  What it does to one
key or to one entity is a function of the entry that was there, which may be none (`onAddress`, `onEntity`). -/

/-- A part of a call that is done as a whole or not at all. -/
inductive Write where
  /-- Enter an address of a pod. -/
  | address (pod : Pod) (a : Address)
  /-- Limit an entity in one direction.  Rate zero is no limit. -/
  | rate (entity : EntityId) (d : Direction) (rate : UInt64)

namespace Write

/-- What a write does. -/
def control : Write → Control Unit
  | .address pod a => Control.writeAddress pod a
  | .rate entity d limit => Control.writeRateIn entity d limit

/-- What is being done if the write is refused. -/
def context : Write → Context
  | .address _ a => .enteringAddress a
  | .rate entity d _ => .settingRate d entity

/-- What a write makes of the entry of a key. -/
def onAddress (key : AddressKey) (entry : Option PodEntry) : Write → Option PodEntry
  | .address pod a => if key = a.key then some ⟨pod.entity, pod.classId⟩ else entry
  | .rate _ _ _ => entry

/-- What a limit makes of an entity in the direction of the limit. -/
def limited (limit : UInt64) (state : Option EntityState) : Option EntityState :=
  if limit = 0 then none
  else if state.map (·.limiter.rate) = some limit then state
  else some { state.getD .fresh with limiter := .idle limit }

/-- What a write makes of an entity in one direction. -/
def onEntity (d : Direction) (e : EntityId) (state : Option EntityState) : Write → Option EntityState
  | .address _ _ => state
  | .rate entity d' limit => if d = d' ∧ e = entity then limited limit state else state

end Write

/-- The writes that limit an entity. -/
def rateWrites (entity : EntityId) (rates : PerDirection UInt64) : List Write :=
  Direction.all.map fun d => .rate entity d (rates.get d)

/-- The writes that enter a pod. -/
def Pod.writes (pod : Pod) : List Write :=
  pod.addresses.map (.address pod) ++ rateWrites pod.entity ⟨pod.receiveRate, pod.sendRate⟩

/-- The shaper after a write, if the write finds room. -/
def Shaper.write (s : Shaper) : Write → Except TableFull Shaper
  | .address pod a =>
    (s.claimAddress a.key).map fun (_, s) => s.setAddress a.key ⟨pod.entity, pod.classId⟩
  | .rate entity d rate =>
    if rate = 0 then .ok (s.eraseEntity d entity).2
    else if (s.entity? d entity).map (·.limiter.rate) = some rate then .ok s
    else
      (s.claimEntity d entity).map fun (_, s) =>
        s.modifyEntity d entity fun e => { e with limiter := .idle rate }

/-! ### What is written

What has changed after some writes is said twice: by what is there now for each key and each entity, and by
what was not touched at all.  The second does not follow from the first, since the tables could have been
laid out anew without a difference to any look-up.  Both can be put together for writes in turn
(`WrittenBy.trans`), because what becomes of one key is a fold over the writes. -/

/-- Of the shaper nothing has changed but what was written. -/
structure WrittenBy (writes : List Write) (s s' : Shaper) : Prop where
  wellFormed : s'.WellFormed
  address : ∀ key, s'.directory.get? key = writes.foldl (Write.onAddress key) (s.directory.get? key)
  entity : ∀ d e, s'.entity? d e = writes.foldl (Write.onEntity d e) (s.entity? d e)
  /-- Plans, caps, rings and counters are as they were. -/
  rest : ∀ d, s'.lane d = { s.lane d with entities := (s'.lane d).entities }
  directory_eq : (∀ pod a, Write.address pod a ∉ writes) → s'.directory = s.directory
  lanes_eq : (∀ e d rate, Write.rate e d rate ∉ writes) → s'.lanes = s.lanes

namespace WrittenBy

variable {s s' s'' : Shaper} {writes : List Write}

theorem refl (h : s.WellFormed) : WrittenBy [] s s :=
  ⟨h, fun _ => rfl, fun _ _ => rfl, fun _ => rfl, fun _ => rfl, fun _ => rfl⟩

theorem trans {writes' : List Write} (h : WrittenBy writes s s') (h' : WrittenBy writes' s' s'') :
    WrittenBy (writes ++ writes') s s'' where
  wellFormed := h'.wellFormed
  address key := by rw [h'.address, h.address, List.foldl_append]
  entity d e := by rw [h'.entity, h.entity, List.foldl_append]
  rest d := by rw [h'.rest, h.rest]
  directory_eq hnone := by
    rw [h'.directory_eq fun pod a hmem => hnone pod a (List.mem_append_right _ hmem),
      h.directory_eq fun pod a hmem => hnone pod a (List.mem_append_left _ hmem)]
  lanes_eq hnone := by
    rw [h'.lanes_eq fun e d rate hmem => hnone e d rate (List.mem_append_right _ hmem),
      h.lanes_eq fun e d rate hmem => hnone e d rate (List.mem_append_left _ hmem)]

/-- An entity that is not written in a direction is as it was. -/
theorem entity_of_not_mem (h : WrittenBy writes s s') {d : Direction} {e : EntityId}
    (hnone : ∀ rate, Write.rate e d rate ∉ writes) : s'.entity? d e = s.entity? d e := by
  have hfold : ∀ {ws : List Write} (state : Option EntityState), (∀ rate, .rate e d rate ∉ ws) →
      ws.foldl (Write.onEntity d e) state = state := by
    intro ws
    induction ws with
    | nil => exact fun _ _ => rfl
    | cons w ws ih =>
      intro state hws
      have hstep : Write.onEntity d e state w = state := by
        cases w with
        | address pod a => rfl
        | rate entity d' limit =>
          refine if_neg fun hsame => hws limit ?_
          rw [hsame.1, hsame.2]
          exact List.mem_cons_self
      rw [List.foldl_cons, hstep]
      exact ih state fun rate hmem => hws rate (List.mem_cons_of_mem _ hmem)
  rw [h.entity, hfold _ hnone]

end WrittenBy

/-- The entities of one direction are replaced in one place. -/
theorem WrittenBy.rate_of_replaced {s : Shaper} (hs : s.WellFormed) {e : EntityId} {d : Direction}
    {rate : UInt64} {entities : EntityTable} (hwell : entities.WellFormed)
    (hget : ∀ k, entities.get? k
      = if k = e then Write.limited rate (s.entity? d e) else (s.lane d).entities.get? k) :
    WrittenBy [.rate e d rate] s
      ⟨s.directory, s.lanes.modify d fun lane => { lane with entities }⟩ where
  wellFormed := hs.modify hwell
  address _ := rfl
  entity d' e' := by
    rw [Shaper.entity?_modify, List.foldl_cons, List.foldl_nil, Write.onEntity]
    by_cases hd : d' = d
    · by_cases he : e' = e
      · rw [if_pos hd, hget, if_pos he, if_pos ⟨hd, he⟩, hd, he]
      · rw [if_pos hd, hget, if_neg he, if_neg fun h => he h.2, hd, Shaper.entity?]
    · rw [if_neg hd, if_neg fun h => hd h.1]
  rest d' := by cases d <;> cases d' <;> rfl
  directory_eq _ := rfl
  lanes_eq hnone := absurd List.mem_cons_self (hnone e d rate)

/-- An entity is changed in a table that has just been put in place. -/
theorem Shaper.modifyEntity_replaced (s : Shaper) (d : Direction) (e : EntityId)
    (entities : EntityTable) (f : EntityState → EntityState) :
    (⟨s.directory, s.lanes.modify d fun lane => { lane with entities }⟩ : Shaper).modifyEntity d e f
      = ⟨s.directory, s.lanes.modify d fun lane => { lane with entities := entities.modify e f }⟩ := by
  cases d <;> rfl

/-- **A write that finds room does what it is for, and nothing else.** -/
theorem Shaper.WellFormed.writtenBy {s s' : Shaper} (h : s.WellFormed) {w : Write}
    (hw : s.write w = .ok s') : WrittenBy [w] s s' := by
  cases w with
  | address pod a =>
    rw [write] at hw
    cases hclaim : s.claimAddress a.key with
    | error full => rw [hclaim] at hw; cases hw
    | ok r =>
      obtain ⟨created, s₁⟩ := r
      obtain ⟨directory, hdirectory, rfl⟩ := claimAddress_eq_ok hclaim
      rw [hclaim] at hw
      cases hw
      obtain ⟨hwell, -, -, -, hget⟩ := h.directory.claim_eq_ok hdirectory
      have hlook : ∀ key, (directory.modify a.key fun _ => ⟨pod.entity, pod.classId⟩).get? key
          = Write.onAddress key (s.directory.get? key) (.address pod a) := by
        intro key
        rw [OpenTable.modify, hwell.get?_visit, Write.onAddress]
        split
        · rw [hget, if_pos rfl]
          rfl
        · rename_i hne
          rw [hget, if_neg hne]
      exact {
        wellFormed := ⟨hwell.visit _ _, h.entities⟩
        address := hlook
        entity := fun _ _ => rfl
        rest := fun _ => rfl
        directory_eq := fun hnone => absurd List.mem_cons_self (hnone pod a)
        lanes_eq := fun _ => rfl }
  | rate e d rate =>
    rw [write] at hw
    split at hw
    · rename_i hzero
      cases hw
      rw [eraseEntity_eq]
      refine .rate_of_replaced h ((h.entities d).erase e) fun k => ?_
      rw [(h.entities d).get?_erase, Write.limited, if_pos hzero]
    · rename_i hzero
      split at hw
      · rename_i hsame
        cases hw
        refine ⟨h, fun _ => rfl, fun d' e' => ?_, fun _ => rfl, fun _ => rfl, fun _ => rfl⟩
        rw [List.foldl_cons, List.foldl_nil, Write.onEntity]
        split
        · rename_i hplace
          rw [hplace.1, hplace.2, Write.limited, if_neg hzero, if_pos hsame]
        · rfl
      · rename_i hother
        cases hclaim : s.claimEntity d e with
        | error full => rw [hclaim] at hw; cases hw
        | ok r =>
          obtain ⟨created, s₁⟩ := r
          obtain ⟨entities, hentities, rfl⟩ := claimEntity_eq_ok hclaim
          obtain ⟨hwell, -, -, -, hget⟩ := (h.entities d).claim_eq_ok hentities
          rw [hclaim] at hw
          cases hw
          dsimp only
          rw [modifyEntity_replaced]
          refine .rate_of_replaced h (hwell.visit e _) fun k => ?_
          rw [OpenTable.modify, hwell.get?_visit, Write.limited, if_neg hzero, if_neg hother]
          split
          · rw [hget, if_pos rfl]
            rfl
          · rename_i hne
            rw [hget, if_neg hne]

/-! ## Writes in turn

If one write is refused, the sequence is cut there, and what comes before the cut is done.  The cut is part
of the statement, as an equation between lists, so that it can be asked afterwards which writes these are. -/

namespace Control

/-- **A write is done or it is refused.**  If it is refused, nothing at all has changed. -/
theorem run_write (w : Write) (c : Controlled) :
    (∃ s notes, c.shaper.write w = .ok s ∧ w.control.run.run c = (.ok (), ⟨s, notes⟩)) ∨
      ∃ full, c.shaper.write w = .error full ∧
        w.control.run.run c = (.error ⟨[w.context], .tableFull full⟩, c) := by
  cases w with
  | address pod a =>
    rw [Write.control, writeAddress, run_bind, run_within_attempt, Shaper.write]
    cases c.shaper.claimAddress a.key with
    | error full => exact .inr ⟨full, rfl, rfl⟩
    | ok r =>
      obtain ⟨notes, hnotes⟩ := run_noteIf r.1
        (.info s!"pod {pod.id} address {a.text} -> entity {pod.entity} class {pod.classId}")
        ⟨r.2.setAddress a.key ⟨pod.entity, pod.classId⟩, c.notes⟩
      refine .inl ⟨_, notes, rfl, ?_⟩
      dsimp only
      rw [run_bind, run_change]
      exact hnotes
  | rate e d limit =>
    rw [Write.control, writeRateIn, Shaper.write]
    split
    · obtain ⟨notes, hnotes⟩ := run_noteIf (c.shaper.eraseEntity d e).1
        (.info s!"entity {e} {d.name} rate removed") ⟨(c.shaper.eraseEntity d e).2, c.notes⟩
      refine .inl ⟨_, notes, rfl, ?_⟩
      rw [run_bind, run_alter]
      exact hnotes
    · rw [run_bind, run_inspect]
      dsimp only
      by_cases hsame : (c.shaper.entity? d e).map (·.limiter.rate) = some limit
      · rw [if_neg (not_not.mpr hsame), if_pos hsame]
        exact .inl ⟨_, c.notes, rfl, rfl⟩
      · rw [if_pos hsame, if_neg hsame, run_bind, run_within_attempt]
        cases c.shaper.claimEntity d e with
        | error full => exact .inr ⟨full, rfl, rfl⟩
        | ok r => exact .inl ⟨_, _, rfl, rfl⟩

/-- **Writes are done in turn until one is refused**, and those before it stay done. -/
theorem run_writes (writes : List Write) (c : Controlled) :
    (∃ s notes, writes.foldlM Shaper.write c.shaper = .ok s ∧
        (writes.forM Write.control).run.run c = (.ok (), ⟨s, notes⟩)) ∨
      ∃ done w left full s notes, writes = done ++ w :: left ∧
        done.foldlM Shaper.write c.shaper = .ok s ∧ s.write w = .error full ∧
        (writes.forM Write.control).run.run c
          = (.error ⟨[w.context], .tableFull full⟩, ⟨s, notes⟩) := by
  induction writes generalizing c with
  | nil => exact .inl ⟨c.shaper, c.notes, rfl, rfl⟩
  | cons w writes ih =>
    rw [List.forM, run_bind]
    rcases run_write w c with ⟨s, notes, hs, hrun⟩ | ⟨full, hfull, hrun⟩
    · -- what is left starts where this write leads to
      have hcons : ∀ ws : List Write, (w :: ws).foldlM Shaper.write c.shaper
          = ws.foldlM Shaper.write s := by
        intro ws
        rw [List.foldlM_cons, hs]
        rfl
      rw [hrun]
      rcases ih ⟨s, notes⟩ with
        ⟨s', notes', hrest, hend⟩ | ⟨done, w', left, full, s', notes', hcut, hdone, hend⟩
      · exact .inl ⟨s', notes', (hcons writes).trans hrest, hend⟩
      · refine .inr ⟨w :: done, w', left, full, s', notes', ?_, (hcons done).trans hdone, hend⟩
        rw [hcut, List.cons_append]
    · rw [hrun]
      exact .inr ⟨[], w, writes, full, c.shaper, c.notes, rfl, rfl, hfull, rfl⟩

theorem writeRates_eq {entity : EntityId} (h : entity ≠ 0) (rates : PerDirection UInt64) :
    writeRates entity rates = (rateWrites entity rates).forM Write.control := by
  rw [writeRates, if_neg h]
  rfl

theorem writePod_eq {pod : Pod} (hhost : pod.hostNetwork = false) (h : pod.entity ≠ 0) :
    writePod pod = pod.writes.forM Write.control := by
  rw [writePod, hhost, if_neg Bool.false_ne_true, if_neg h, writeRates_eq h, Pod.writes]
  simp only [List.forM_eq_forM, List.forM_append, List.forM_map]
  rfl

end Control

/-! ## Calls that fail

There are two directions and the limits are written last, so only one limit can have been done when another
is refused.  That is a matter of the list of writes: its last element is never before the cut
(`mem_of_stopped`). -/

/-- Of some writes the first ones were done, and then there was one that found its table full. -/
structure StoppedAt (earlier : List Write) (w : Write) (s : Shaper) (f : Failure) (s' : Shaper) :
    Prop where
  done : earlier.foldlM Shaper.write s = .ok s'
  /-- The failure says which write was refused. -/
  refused : ∃ full, s'.write w = .error full ∧ f = ⟨[w.context], .tableFull full⟩
  written : WrittenBy earlier s s'

/-- Writes that were done are what has changed. -/
theorem Shaper.WellFormed.writtenBy_all {s s' : Shaper} (h : s.WellFormed) {writes : List Write}
    (hdone : writes.foldlM write s = .ok s') : WrittenBy writes s s' := by
  induction writes generalizing s with
  | nil =>
    cases hdone
    exact .refl h
  | cons w writes ih =>
    rw [List.foldlM_cons] at hdone
    cases hw : s.write w with
    | error full => rw [hw] at hdone; cases hdone
    | ok s₁ =>
      rw [hw] at hdone
      have hfirst := h.writtenBy hw
      exact hfirst.trans (ih hfirst.wellFormed hdone)

/-- The last of the writes is never among those that were done before one was refused. -/
theorem mem_of_stopped {writes earlier left : List Write} {last w : Write}
    (h : writes ++ [last] = earlier ++ w :: left) : ∀ x ∈ earlier, x ∈ writes := by
  intro x hx
  have hcut : writes = earlier ++ (w :: left).dropLast := by
    rw [← List.dropLast_append_of_ne_nil (List.cons_ne_nil w left), ← h, List.dropLast_concat]
  rw [hcut]
  exact List.mem_append_left _ hx

/-- Only the limit that comes first is among the writes that were done before one was refused. -/
theorem rate_mem_of_stopped {pod : Pod} {addresses : List Address} {entity : EntityId}
    {rates : PerDirection UInt64} {earlier left : List Write} {w : Write}
    (h : addresses.map (.address pod) ++ rateWrites entity rates = earlier ++ w :: left)
    {e : EntityId} {d : Direction} {limit : UInt64} (hmem : .rate e d limit ∈ earlier) :
    d = .ingress ∧ e = entity := by
  have hsplit : addresses.map (.address pod) ++ rateWrites entity rates
      = (addresses.map (.address pod) ++ [.rate entity .ingress rates.ingress])
        ++ [.rate entity .egress rates.egress] := by
    rw [List.append_assoc]
    rfl
  have hfirst := mem_of_stopped (hsplit.symm.trans h) _ hmem
  simp only [List.mem_append, List.mem_map, reduceCtorEq, and_false, exists_false, List.mem_singleton,
    Write.rate.injEq, false_or] at hfirst
  exact ⟨hfirst.2.1, hfirst.1⟩

namespace Shaper

/-- What a call leaves that does its writes in turn and fails. -/
theorem WellFormed.stoppedAt {s s' : Shaper} (h : s.WellFormed) (c : Call) (pod : Pod)
    (addresses : List Address) {entity : EntityId} {rates : PerDirection UInt64} {f : Failure}
    (hcontrol : c.control
      = (addresses.map (Write.address pod) ++ rateWrites entity rates).forM Write.control)
    (hfail : s.call c = (.error f, s')) :
    ∃ earlier w left,
      addresses.map (.address pod) ++ rateWrites entity rates = earlier ++ w :: left ∧
        StoppedAt earlier w s f s' ∧
        ∀ d e, d = .egress ∨ e ≠ entity → s'.entity? d e = s.entity? d e := by
  rw [call, hcontrol] at hfail
  rcases Control.run_writes (addresses.map (.address pod) ++ rateWrites entity rates) ⟨s, #[]⟩ with
    ⟨s₁, notes, -, hrun⟩ | ⟨earlier, w, left, full, s₁, notes, hcut, hdone, hfull, hrun⟩
  · rw [hrun] at hfail
    cases hfail
  · rw [hrun] at hfail
    cases hfail
    have hwritten := h.writtenBy_all hdone
    refine ⟨earlier, w, left, hcut, ⟨hdone, ⟨full, hfull, rfl⟩, hwritten⟩, fun d e hplace => ?_⟩
    refine hwritten.entity_of_not_mem fun limit hmem => ?_
    obtain ⟨hd, he⟩ := rate_mem_of_stopped hcut hmem
    rcases hplace with hegress | hother
    · rw [hd] at hegress
      cases hegress
    · exact hother he

/-- **What a failed call leaves.**  A call that enters a pod, or limits an entity, fails for want of an
entity before it has done anything, or it stops at one of its writes that finds a table full.  The writes
before are done then, each of them as a whole; of the others nothing is; and nothing else has changed.  In
particular all limiters are as they were, but that of the entity itself in the direction that comes
first. -/
theorem failed_writes_stop_midway {s : Shaper} (hs : s.Reachable) :
    (∀ pod f s', s.call (.writePod pod) = (.error f, s') →
      (pod.entity = 0 ∧ s' = s) ∨
        ∃ earlier w left, pod.writes = earlier ++ w :: left ∧ StoppedAt earlier w s f s' ∧
          ∀ d e, d = .egress ∨ e ≠ pod.entity → s'.entity? d e = s.entity? d e) ∧
    ∀ entity rates f s', s.call (.writeRates entity rates) = (.error f, s') →
      (entity = 0 ∧ s' = s) ∨
        ∃ earlier w left, rateWrites entity rates = earlier ++ w :: left ∧ StoppedAt earlier w s f s' ∧
          ∀ d e, d = .egress ∨ e ≠ entity → s'.entity? d e = s.entity? d e := by
  refine ⟨fun pod f s' hfail => ?_, fun entity rates f s' hfail => ?_⟩
  · cases hhost : pod.hostNetwork with
    | true =>
      -- nothing is done with such a pod, so nothing fails
      rw [call, Call.control, Control.writePod, if_pos hhost] at hfail
      cases hfail
    | false =>
      by_cases hzero : pod.entity = 0
      · refine .inl ⟨hzero, ?_⟩
        rw [call, Call.control, Control.writePod, hhost, if_neg Bool.false_ne_true, if_pos hzero,
          Control.run_bind, Control.run_throw] at hfail
        cases hfail
        rfl
      · exact .inr (hs.wellFormed.stoppedAt (.writePod pod) pod pod.addresses
          (Control.writePod_eq hhost hzero) hfail)
  · by_cases hzero : entity = 0
    · refine .inl ⟨hzero, ?_⟩
      rw [call, Call.control, Control.writeRates, if_pos hzero, Control.run_bind,
        Control.run_throw] at hfail
      cases hfail
      rfl
    · exact .inr (hs.wellFormed.stoppedAt (.writeRates entity rates) .blank []
        (Control.writeRates_eq hzero rates) hfail)

end Shaper

/-! ## Cases

There is room for one entity, and it is taken in one of the directions. -/

namespace TakenPlace

/-- One entity is limited in what it sends. -/
def events : List Event := [.call (.writeRates 1 ⟨0, 5⟩)]

def shaper : Shaper := (⟨.standard, .directory⟩ : Pipeline).after (.empty 1) events

theorem reachable : shaper.Reachable := Shaper.Reachable.after (.empty 1) _ events

/-- A pod without addresses, of another entity that is to be limited in both directions. -/
def pod : Pod := { Pod.blank with entity := 2, receiveRate := 5, sendRate := 5 }

/-- The shaper after the pod was refused. -/
def shaperAfter : Shaper := (shaper.call (.writePod pod)).2

theorem call_writePod :
    shaper.call (.writePod pod)
      = (.error ⟨[.settingRate .egress 2], .tableFull ⟨1⟩⟩, shaperAfter) := rfl

theorem call_writeRates :
    shaper.call (.writeRates 2 ⟨5, 5⟩)
      = (.error ⟨[.settingRate .egress 2], .tableFull ⟨1⟩⟩, shaperAfter) := rfl

end TakenPlace

section

open TakenPlace

/-- **Writes are not undone.**  Neither a pod nor the limits of an entity are written all or not at all:
what had been done before the failure is there to be read. -/
theorem Shaper.writes_are_not_undone :
    ¬ (∀ s : Shaper, s.Reachable → ∀ pod f s', s.call (.writePod pod) = (.error f, s') →
        s'.pods = s.pods ∧ s'.entityRates = s.entityRates ∧
          ∀ d e, (s'.entity? d e).map (·.limiter) = (s.entity? d e).map (·.limiter)) ∧
    ¬ ∀ s : Shaper, s.Reachable → ∀ entity rates f s',
        s.call (.writeRates entity rates) = (.error f, s') →
        s'.pods = s.pods ∧ s'.entityRates = s.entityRates ∧
          ∀ d e, (s'.entity? d e).map (·.limiter) = (s.entity? d e).map (·.limiter) := by
  have hchanged : (shaperAfter.entity? .ingress 2).map (·.limiter)
      ≠ (shaper.entity? .ingress 2).map (·.limiter) := by decide
  exact ⟨fun h => hchanged ((h shaper reachable _ _ _ call_writePod).2.2 _ _),
    fun h => hchanged ((h shaper reachable _ _ _ _ call_writeRates).2.2 _ _)⟩

/-- The write that found its table full is the last one, and the one before is done. -/
theorem Shaper.failed_writes_stop_midway_at_egress :
    ∃ earlier w left, pod.writes = earlier ++ w :: left ∧
      StoppedAt earlier w shaper ⟨[.settingRate .egress 2], .tableFull ⟨1⟩⟩ shaperAfter ∧
      shaperAfter.entity? .egress 1 = shaper.entity? .egress 1 := by
  rcases (failed_writes_stop_midway reachable).1 _ _ _ call_writePod with
    ⟨hzero, -⟩ | ⟨earlier, w, left, hcut, hstopped, hrest⟩
  · exact absurd hzero (by decide)
  · exact ⟨earlier, w, left, hcut, hstopped, hrest _ _ (.inl rfl)⟩

end

end Shaping
