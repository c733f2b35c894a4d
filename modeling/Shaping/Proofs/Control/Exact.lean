import Shaping.Proofs.Control.Configured
import Shaping.Proofs.OpenTable.ExactWrites
import Shaping.Proofs.Shaper.Exact

/-!
# The control plane in exact arithmetic

Putting a configuration into force once more, with the tables in their exact forms.  Plans are filled in and
checked in saturating arithmetic, which cannot trap; so what is left to go wrong is how tables are changed, and
how the two directions are told apart by their place.

An exact operation may trap, fail, or come to its end, and if it traps there is no shaper afterwards.  It
`Agrees` with an operation if it never traps on a shaper whose tables can be addressed, and otherwise does the
same.  That is passed on from operations to what is put together from them, because all operations keep tables
that can be addressed (`Shaper.stable_addressable`).

The three ways to end are kept apart by the order of the layers.  A trap is outside of the state, so that
after it there is none, and a failure is inside, so that what was done before it stays.  With the layers the
other way around a trap would leave a shaper behind, about which something would have to be said.
-/

set_option autoImplicit false

namespace Shaping

/-! ## Shapers

Each change to a shaper is a change to one table, after the lane was looked up by its place.  The equations
are those of tables, with `PerDirection.getExact_eq` in front. -/

namespace Shaper

/-- `empty` in exact arithmetic, given that there is enough memory. -/
def emptyExact (maxEntries : Nat) : Except Trap Shaper := do
  let directory ← OpenTable.emptyExact maxEntries
  let ingress ← OpenTable.emptyExact maxEntries
  let egress ← OpenTable.emptyExact maxEntries
  let lane (entities : EntityTable) : Lane := { Lane.empty maxEntries with entities }
  return ⟨directory, ⟨lane ingress, lane egress⟩⟩

/-- `claimAddress` in exact arithmetic. -/
def claimAddressExact (s : Shaper) (key : AddressKey) :
    Except Trap (Except TableFull (Bool × Shaper)) := do
  return (← s.directory.claimExact key .fresh).map fun (created, directory) =>
    (created, ⟨directory, s.lanes⟩)

/-- `setAddress` in exact arithmetic. -/
def setAddressExact (s : Shaper) (key : AddressKey) (entry : PodEntry) : Except Trap Shaper := do
  let (_, directory) ← s.directory.visitExact key fun _ => return ((), entry)
  return ⟨directory, s.lanes⟩

/-- `entity?` in exact arithmetic. -/
def entityExact (s : Shaper) (d : Direction) (entity : EntityId) : Except Trap (Option EntityState) := do
  (← s.lanes.getExact d).entities.getExact entity

/-- `claimEntity` in exact arithmetic. -/
def claimEntityExact (s : Shaper) (d : Direction) (entity : EntityId) :
    Except Trap (Except TableFull (Bool × Shaper)) := do
  let lane ← s.lanes.getExact d
  return (← lane.entities.claimExact entity .fresh).map fun (created, entities) =>
    (created, { s with lanes := s.lanes.modify d fun lane => { lane with entities } })

/-- `modifyEntity` in exact arithmetic. -/
def modifyEntityExact (s : Shaper) (d : Direction) (entity : EntityId) (f : EntityState → EntityState) :
    Except Trap Shaper := do
  let lane ← s.lanes.getExact d
  let (_, entities) ← lane.entities.visitExact entity fun e => return ((), f e)
  return { s with lanes := s.lanes.modify d fun lane => { lane with entities } }

/-- `eraseEntity` in exact arithmetic. -/
def eraseEntityExact (s : Shaper) (d : Direction) (entity : EntityId) :
    Except Trap (Bool × Shaper) := do
  let lane ← s.lanes.getExact d
  let (found, entities) ← lane.entities.eraseExact entity
  return (found, { s with lanes := s.lanes.modify d fun lane => { lane with entities } })

/-- `setPlan` by the place of the direction. -/
def setPlanExact (s : Shaper) (d : Direction) (plan : RatePlan) : Except Trap Shaper := do
  let _ ← s.lanes.getExact d
  return s.setPlan d plan

theorem emptyExact_eq {maxEntries : Nat} (h : OpenTable.slotCount (max maxEntries 1) < UInt64.size) :
    emptyExact maxEntries = pure (empty maxEntries) := by
  rw [emptyExact, OpenTable.emptyExact_eq h, pure_bind, OpenTable.emptyExact_eq h, pure_bind, pure_bind]
  rfl

theorem addressable_empty {maxEntries : Nat}
    (h : OpenTable.slotCount (max maxEntries 1) < UInt64.size) : (empty maxEntries).Addressable :=
  ⟨OpenTable.addressable_empty_of_lt h,
    fun d => by cases d <;> exact OpenTable.addressable_empty_of_lt h⟩

theorem setPlanExact_eq (s : Shaper) (d : Direction) (plan : RatePlan) :
    s.setPlanExact d plan = pure (s.setPlan d plan) := by
  rw [setPlanExact, PerDirection.getExact_eq, pure_bind]

variable {s : Shaper} (h : s.Addressable)

include h in
theorem claimAddressExact_eq (key : AddressKey) :
    s.claimAddressExact key = pure (s.claimAddress key) := by
  rw [claimAddressExact, OpenTable.claimExact_eq h.directory, pure_bind]
  rfl

include h in
theorem setAddressExact_eq (key : AddressKey) (entry : PodEntry) :
    s.setAddressExact key entry = pure (s.setAddress key entry) := by
  rw [setAddressExact, OpenTable.visitExact_eq h.directory key fun _ => rfl, pure_bind]
  rfl

include h in
theorem entityExact_eq (d : Direction) (entity : EntityId) :
    s.entityExact d entity = pure (s.entity? d entity) := by
  rw [entityExact, PerDirection.getExact_eq, pure_bind]
  exact OpenTable.getExact_eq (h.entities d) entity

include h in
theorem claimEntityExact_eq (d : Direction) (entity : EntityId) :
    s.claimEntityExact d entity = pure (s.claimEntity d entity) := by
  rw [claimEntityExact, PerDirection.getExact_eq, pure_bind, ← lane,
    OpenTable.claimExact_eq (h.entities d), pure_bind]
  rfl

include h in
theorem modifyEntityExact_eq (d : Direction) (entity : EntityId) (f : EntityState → EntityState) :
    s.modifyEntityExact d entity f = pure (s.modifyEntity d entity f) := by
  rw [modifyEntityExact, PerDirection.getExact_eq, pure_bind, ← lane,
    OpenTable.visitExact_eq (h.entities d) entity fun _ => rfl, pure_bind, modifyEntity_eq]
  rfl

include h in
theorem eraseEntityExact_eq (d : Direction) (entity : EntityId) :
    s.eraseEntityExact d entity = pure (s.eraseEntity d entity) := by
  rw [eraseEntityExact, PerDirection.getExact_eq, pure_bind, ← lane,
    OpenTable.eraseExact_eq (h.entities d), pure_bind, eraseEntity_eq]

/-- **Tables that can be addressed stay so.** -/
theorem stable_addressable : Stable (fun _ _ => True) Addressable :=
  stable_inTables OpenTable.kept_addressable OpenTable.kept_addressable

end Shaper

/-! ## Operations

`Agrees` has a rule for each part of an operation, like `Control.Keeps`, and the rule for two in turn has a
premise of that kind: after the first one the tables can still be addressed.  So the proof for an operation
follows its text, and says of each part that it agrees and that it keeps the tables. -/

/-- An operation of the control plane in exact arithmetic. -/
abbrev ExactControl := ExceptT Failure (StateT Controlled (Except Trap))

namespace ExactControl

variable {α β : Type}

/-- An operation that has nothing to trap in it. -/
def of (op : Control α) : ExactControl α := ExceptT.mk fun c => return op.run.run c

/-- Do something as part of something else. -/
def within (context : Context) (op : ExactControl α) : ExactControl α :=
  tryCatch op fun f => throw (f.within context)

/-- Change the shaper and hand out what else `f` gives. -/
def alter (f : Shaper → Except Trap (α × Shaper)) : ExactControl α := ExceptT.mk fun c => do
  let (a, shaper) ← f c.shaper
  return (.ok a, ⟨shaper, c.notes⟩)

/-- Look at the shaper. -/
def inspect (look : Shaper → Except Trap α) : ExactControl α := alter fun s => return (← look s, s)

/-- Change the shaper. -/
def change (f : Shaper → Except Trap Shaper) : ExactControl Unit := alter fun s => return ((), ← f s)

/-- Change the shaper, or fail and leave it as it is. -/
def attempt (f : Shaper → Except Trap (Except TableFull (α × Shaper))) : ExactControl α :=
  ExceptT.mk fun c => do
    match ← f c.shaper with
    | .ok (a, shaper) => return (.ok a, ⟨shaper, c.notes⟩)
    | .error full => return (.error (.of (.tableFull full)), c)

theorem run_bind (op : ExactControl α) (f : α → ExactControl β) (c : Controlled) :
    (op >>= f).run.run c = (do
      match ← op.run.run c with
      | (.ok a, c') => (f a).run.run c'
      | (.error e, c') => pure (.error e, c')) := by
  show (ExceptT.bind op f).run.run c = _
  simp only [ExceptT.bind, ExceptT.run, ExceptT.mk, StateT.run, bind, StateT.bind]
  refine congrArg (Except.bind (op c)) (funext fun r => ?_)
  obtain ⟨a | e, c'⟩ := r <;> rfl

theorem run_within (context : Context) (op : ExactControl α) (c : Controlled) :
    (within context op).run.run c = (do
      match ← op.run.run c with
      | (.ok a, c') => pure (.ok a, c')
      | (.error e, c') => pure (.error (e.within context), c')) := by
  show (ExceptT.tryCatch op _).run.run c = _
  simp only [ExceptT.tryCatch, ExceptT.run, ExceptT.mk, StateT.run, bind, StateT.bind]
  refine congrArg (Except.bind (op c)) (funext fun r => ?_)
  obtain ⟨a | e, c'⟩ := r <;> rfl

theorem run_alter (f : Shaper → Except Trap (α × Shaper)) (c : Controlled) :
    (alter f).run.run c = (do
      let (a, shaper) ← f c.shaper
      return (.ok a, ⟨shaper, c.notes⟩)) := rfl

theorem run_attempt (f : Shaper → Except Trap (Except TableFull (α × Shaper))) (c : Controlled) :
    (attempt f).run.run c = (do
      match ← f c.shaper with
      | .ok (a, shaper) => return (.ok a, ⟨shaper, c.notes⟩)
      | .error full => return (.error (.of (.tableFull full)), c)) := rfl

/-- The operation never traps if tables can be addressed, and does what another one does. -/
def Agrees (exact : ExactControl α) (op : Control α) : Prop :=
  ∀ c : Controlled, c.shaper.Addressable → exact.run.run c = pure (op.run.run c)

/-- What comes next finds tables that can be addressed. -/
theorem Agrees.bind {exact : ExactControl α} {op : Control α} {next : α → ExactControl β}
    {f : α → Control β} (h : exact.Agrees op) (hkeeps : Control.Keeps Shaper.Addressable op)
    (hnext : ∀ a, (next a).Agrees (f a)) : Agrees (exact >>= next) (op >>= f) := by
  intro c hc
  have hafter := hkeeps c hc
  rw [run_bind, h c hc, pure_bind, Control.run_bind]
  generalize op.run.run c = r at hafter
  obtain ⟨e | a, c'⟩ := r
  · rfl
  · exact hnext a c' hafter

namespace Agrees

theorem of (op : Control α) : Agrees (.of op) op := fun _ _ => rfl

theorem within {exact : ExactControl α} {op : Control α} (h : exact.Agrees op) (context : Context) :
    Agrees (.within context exact) (.within context op) := by
  intro c hc
  rw [run_within, h c hc, pure_bind, Control.run_within]
  generalize op.run.run c = r
  obtain ⟨e | a, c'⟩ := r <;> rfl

theorem alter {exact : Shaper → Except Trap (α × Shaper)} {f : Shaper → α × Shaper}
    (h : ∀ s, s.Addressable → exact s = pure (f s)) : Agrees (.alter exact) (.alter f) := by
  intro c hc
  rw [run_alter, h c.shaper hc, pure_bind, Control.run_alter]

theorem inspect {exact : Shaper → Except Trap α} {look : Shaper → α}
    (h : ∀ s, s.Addressable → exact s = pure (look s)) : Agrees (.inspect exact) (.inspect look) := by
  intro c hc
  rw [ExactControl.inspect, alter (f := fun s => (look s, s)) (fun s hs => by rw [h s hs, pure_bind]) c hc]
  rfl

theorem change {exact : Shaper → Except Trap Shaper} {f : Shaper → Shaper}
    (h : ∀ s, s.Addressable → exact s = pure (f s)) : Agrees (.change exact) (.change f) := by
  intro c hc
  rw [ExactControl.change, alter (f := fun s => ((), f s)) (fun s hs => by rw [h s hs, pure_bind]) c hc]
  rfl

theorem attempt {exact : Shaper → Except Trap (Except TableFull (α × Shaper))}
    {f : Shaper → Except TableFull (α × Shaper)}
    (h : ∀ s, s.Addressable → exact s = pure (f s)) : Agrees (.attempt exact) (.attempt f) := by
  intro c hc
  rw [run_attempt, h c.shaper hc, pure_bind, Control.run_attempt]
  cases f c.shaper <;> rfl

theorem forM {exact : α → ExactControl Unit} {f : α → Control Unit} {xs : List α}
    (h : ∀ x ∈ xs, (exact x).Agrees (f x)) (hkeeps : ∀ x ∈ xs, Control.Keeps Shaper.Addressable (f x)) :
    Agrees (xs.forM exact) (xs.forM f) := by
  induction xs with
  | nil => exact fun _ _ => rfl
  | cons x xs ih =>
    rw [List.forall_mem_cons] at h hkeeps
    exact h.1.bind hkeeps.1 fun _ => ih h.2 hkeeps.2

end Agrees

/-! ## Putting a configuration into force

The exact operations are written out once more and not derived from the others, for it is these that say at
which places something could trap.  What cannot, such as checking a plan or leaving a note, is taken over as
it is. -/

/-- `storePlan` by the place of the direction. -/
def storePlan (d : Direction) (plan : BandwidthPlan) : ExactControl Unit := do
  if (← inspect fun s => return (← s.lanes.getExact d).plan) = plan.toRatePlan then
    of (.note (.debug s!"{d.name} global config unchanged"))
  else
    of (.note (.info s!"write global config {d.name}: {plan.text}"))
    change fun s => s.setPlanExact d plan.toRatePlan

/-- `writePlans` in exact arithmetic. -/
def writePlans (plans : PerDirection BandwidthPlan) : ExactControl Unit := do
  let ingress ← of (.acceptPlan .ingress plans.ingress)
  let egress ← of (.acceptPlan .egress plans.egress)
  storePlan .ingress ingress
  storePlan .egress egress

/-- `writeRateIn` in exact arithmetic. -/
def writeRateIn (entity : EntityId) (d : Direction) (rate : UInt64) : ExactControl Unit := do
  if rate = 0 then
    if ← alter fun s => s.eraseEntityExact d entity then
      of (.note (.info s!"entity {entity} {d.name} rate removed"))
  else if (← inspect fun s => return (← s.entityExact d entity).map (·.limiter.rate)) ≠ some rate then
    let _ ← within (.settingRate d entity) (attempt fun s => s.claimEntityExact d entity)
    change fun s => s.modifyEntityExact d entity fun e => { e with limiter := .idle rate }
    of (.note (.info s!"entity {entity} {d.name} rate {rate} B/s"))

/-- `writeRates` in exact arithmetic. -/
def writeRates (entity : EntityId) (rates : PerDirection UInt64) : ExactControl Unit := do
  if entity = 0 then throw (.of .reservedEntity)
  Direction.all.forM fun d => writeRateIn entity d (rates.get d)

/-- `writeAddress` in exact arithmetic. -/
def writeAddress (pod : Pod) (a : Address) : ExactControl Unit := do
  let created ← within (.enteringAddress a) (attempt fun s => s.claimAddressExact a.key)
  change fun s => s.setAddressExact a.key ⟨pod.entity, pod.classId⟩
  if created then
    of (.note (.info s!"pod {pod.id} address {a.text} -> entity {pod.entity} class {pod.classId}"))

/-- `writePod` in exact arithmetic. -/
def writePod (pod : Pod) : ExactControl Unit := do
  if pod.hostNetwork then of (.note (.debug s!"Skipping host-network pod {pod.id}"))
  else
    if pod.entity = 0 then throw (.of (.podWithoutEntity pod.id))
    pod.addresses.forM (writeAddress pod)
    writeRates pod.entity ⟨pod.receiveRate, pod.sendRate⟩

/-- `apply` in exact arithmetic. -/
def apply (config : Config) : ExactControl Unit := do
  writePlans config.plans
  config.pods.forM fun pod => within (.applyingPod pod.id) (writePod pod)

open Shaper (stable_addressable)

theorem agrees_storePlan (d : Direction) (plan : BandwidthPlan) :
    (storePlan d plan).Agrees (.storePlan d plan) := by
  refine (Agrees.inspect fun s _ => ?_).bind (.inspect _) fun stored => ?_
  · rw [PerDirection.getExact_eq, pure_bind, Shaper.lane]
  split
  · exact .of _
  · exact (Agrees.of _).bind (.note _) fun _ => .change fun s _ => s.setPlanExact_eq d _

theorem agrees_writePlans (plans : PerDirection BandwidthPlan) :
    (writePlans plans).Agrees (.writePlans plans) :=
  (Agrees.of _).bind (Control.keeps_acceptPlan _ _) fun _ =>
    (Agrees.of _).bind (Control.keeps_acceptPlan _ _) fun _ =>
      (agrees_storePlan _ _).bind (Control.keeps_storePlan stable_addressable.setPlan _ _) fun _ =>
        agrees_storePlan _ _

theorem agrees_writeRateIn (entity : EntityId) (d : Direction) (rate : UInt64) :
    (writeRateIn entity d rate).Agrees (.writeRateIn entity d rate) := by
  rw [writeRateIn, Control.writeRateIn]
  split
  · refine (Agrees.alter fun s hs => Shaper.eraseEntityExact_eq hs d entity).bind
      (.alter fun s => stable_addressable.eraseEntity s d entity trivial) fun found => ?_
    split
    · exact .of _
    · exact .of _
  · refine (Agrees.inspect fun s hs => ?_).bind (.inspect _) fun old => ?_
    · rw [Shaper.entityExact_eq hs, pure_bind]
    split
    · refine ((Agrees.attempt fun s hs => Shaper.claimEntityExact_eq hs d entity).within _).bind
        (.within (.attempt fun s _ s' => stable_addressable.claimEntity s d entity _ s' trivial))
        fun _ => ?_
      exact (Agrees.change fun s hs => Shaper.modifyEntityExact_eq hs d entity _).bind
        (.change fun s => stable_addressable.modifyEntity s d entity _ trivial) fun _ => .of _
    · exact .of _

theorem agrees_writeRates (entity : EntityId) (rates : PerDirection UInt64) :
    (writeRates entity rates).Agrees (.writeRates entity rates) := by
  have hrates : Agrees (Direction.all.forM fun d => writeRateIn entity d (rates.get d))
      (Direction.all.forM fun d => Control.writeRateIn entity d (rates.get d)) :=
    .forM (fun d _ => agrees_writeRateIn entity d _)
      fun d _ => stable_addressable.writeRateIn trivial _
  rw [writeRates, Control.writeRates]
  split
  · exact (Agrees.of (throw _)).bind (.throw _) fun _ => hrates
  · exact hrates

theorem agrees_writeAddress (pod : Pod) (a : Address) :
    (writeAddress pod a).Agrees (.writeAddress pod a) := by
  refine ((Agrees.attempt fun s hs => Shaper.claimAddressExact_eq hs a.key).within _).bind
    (.within (.attempt fun s _ s' => stable_addressable.claimAddress s a.key _ s')) fun created => ?_
  refine (Agrees.change fun s hs => Shaper.setAddressExact_eq hs a.key _).bind
    (.change fun s => stable_addressable.setAddress s a.key _) fun _ => ?_
  split
  · exact .of _
  · exact .of _

theorem agrees_writePod (pod : Pod) : (writePod pod).Agrees (.writePod pod) := by
  have haddresses : Agrees (pod.addresses.forM (writeAddress pod))
      (pod.addresses.forM (Control.writeAddress pod)) :=
    .forM (fun a _ => agrees_writeAddress pod a) fun a _ => stable_addressable.writeAddress pod a
  have hkeeps : Control.Keeps Shaper.Addressable (pod.addresses.forM (Control.writeAddress pod)) :=
    .forM fun a _ => stable_addressable.writeAddress pod a
  have hrates := agrees_writeRates pod.entity ⟨pod.receiveRate, pod.sendRate⟩
  rw [writePod, Control.writePod]
  split
  · exact .of _
  · split
    · exact (Agrees.of (throw _)).bind (.throw _) fun _ => haddresses.bind hkeeps fun _ => hrates
    · exact haddresses.bind hkeeps fun _ => hrates

/-- **Putting a configuration into force never traps.** -/
theorem agrees_apply (config : Config) : (apply config).Agrees (.apply config) :=
  (agrees_writePlans _).bind (stable_addressable.writePlans _) fun _ =>
    .forM (fun pod _ => (agrees_writePod pod).within _)
      fun _ _ => .within (stable_addressable.writePod fun _ => trivial)

end ExactControl

namespace Config

/-- `load` in exact arithmetic, given that there is enough memory. -/
def loadExact (c : Config) : Except Stop Shaper :=
  let size := c.options.maxEntries.toNat
  match Shaper.emptyExact size with
  | .error t => .error (.trapped t)
  | .ok shaper =>
    let notes := #[Note.debug s!"Allocating shaping tables with {size} entries each"]
    match (ExactControl.apply c).run.run ⟨shaper, notes⟩ with
    | .error t => .error (.trapped t)
    | .ok (.ok _, after) => .ok after.shaper
    | .ok (.error f, _) => .error (.failed f)

variable {c : Config}

/-- **Loading a configuration never traps** if its tables are not too large to be counted: either it is put
into force, or it is refused. -/
theorem loadExact_cases (hc : c.Acceptable)
    (hslots : OpenTable.slotCount (max c.options.maxEntries.toNat 1) < UInt64.size) :
    (∃ s, (Shaper.empty c.options.maxEntries.toNat).call (.apply c) = (.ok (), s) ∧ s.Addressable ∧
        c.loadExact = .ok s) ∨
      (((Shaper.empty c.options.maxEntries.toNat).call (.apply c)).1 ≠ .ok () ∧
        ∃ f, c.loadExact = .error (.failed f)) := by
  rw [loadExact, Shaper.emptyExact_eq hslots]
  simp only [pure, Except.pure]
  rw [ExactControl.agrees_apply c _ (Shaper.addressable_empty hslots)]
  simp only [pure, Except.pure]
  generalize (#[.debug _] : Array Note) = notes
  rcases Control.run_apply hc ⟨Shaper.empty c.options.maxEntries.toNat, notes⟩ with
    ⟨s, left, hdone, hrun⟩ | ⟨pod, -, w, -, full, s, left, hstuck, hrun⟩
  · have hcall := (call_apply_eq_ok_iff hc).mpr hdone
    have hkept := Shaper.stable_addressable.call (Shaper.addressable_empty hslots) (.apply c)
    rw [hcall] at hkept
    rw [hrun]
    exact .inl ⟨s, hcall, hkept, rfl⟩
  · rw [hrun]
    refine .inr ⟨fun hok => ?_, _, rfl⟩
    have hcall := (call_apply_eq_ok_iff hc).mp (Prod.ext hok rfl)
    rw [hstuck.foldlM_eq] at hcall
    cases hcall

/-- If there is enough memory, it makes no difference. -/
theorem load_eq_loadExact (h : OpenTable.checkCapacity c.options.maxEntries.toNat = .ok ())
    (hslots : OpenTable.slotCount (max c.options.maxEntries.toNat 1) < UInt64.size) :
    c.load.1 = c.loadExact := by
  have hcreate : Shaper.create c.options.maxEntries.toNat
      = .ok (Shaper.empty c.options.maxEntries.toNat) := by
    rw [Shaper.create, h]
    rfl
  rw [load, loadExact, hcreate, Shaper.emptyExact_eq hslots]
  simp only [pure, Except.pure]
  rw [ExactControl.agrees_apply c _ (Shaper.addressable_empty hslots)]
  simp only [pure, Except.pure]
  split <;> rename_i hrun <;> rw [hrun]

end Config

end Shaping
