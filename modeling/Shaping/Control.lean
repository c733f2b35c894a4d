import Shaping.Config
import Shaping.Failure
import Shaping.Shaper

/-!
# The control plane

What an administrator does to a running shaper: give it bandwidth plans, tell it which addresses belong
to which entity, and set the limits of entities.  The operations work on a shaper between packets and
leave the bookkeeping of the packet path alone wherever nothing changes: a plan that is already in
force is not stored again, and an entity whose limit stays the same keeps its tokens.

An operation that fails keeps what it did before it failed.  `Control` is such an operation: a failure
or a value, and in either case the shaper afterwards, with the notes that were left.

The other way, `Shaper.plans`, `Shaper.pods` and `Shaper.entityRates` read back what was written, in the
order of keys, whatever order the tables keep.
-/

set_option autoImplicit false

namespace Shaping

/-- A shaper under control, and the notes left so far. -/
structure Controlled where
  shaper : Shaper
  notes : Array Note

/-- An operation of the control plane. -/
abbrev Control := ExceptT Failure (StateM Controlled)

namespace Control

/-- Leave a note. -/
def note (n : Note) : Control Unit :=
  modify fun ⟨shaper, notes⟩ => ⟨shaper, notes.push n⟩

/-- Do something as part of something else. -/
def within {α : Type} (context : Context) (op : Control α) : Control α :=
  tryCatch op fun f => throw (f.within context)

/-- Look at the shaper. -/
def inspect {α : Type} (look : Shaper → α) : Control α := do return look (← get).shaper

/-- Change the shaper. -/
def change (f : Shaper → Shaper) : Control Unit :=
  modify fun ⟨shaper, notes⟩ => ⟨f shaper, notes⟩

/-- Change the shaper and hand out what else `f` gives. -/
def alter {α : Type} (f : Shaper → α × Shaper) : Control α :=
  modifyGet fun ⟨shaper, notes⟩ => match f shaper with | (a, shaper) => (a, ⟨shaper, notes⟩)

/-- Change the shaper, or fail and leave it as it is. -/
def attempt {α : Type} (f : Shaper → Except TableFull (α × Shaper)) : Control α := do
  match f (← inspect id) with
  | .ok (a, shaper) => do
    change fun _ => shaper
    return a
  | .error full => throw (.of (.tableFull full))

end Control

/-! ## Tables of the shaper -/

namespace Shaper

/-- Make sure that an address has an entry. -/
def claimAddress (s : Shaper) (key : AddressKey) : Except TableFull (Bool × Shaper) :=
  match s with
  | ⟨directory, lanes⟩ =>
    (directory.claim key .fresh).map fun (created, directory) => (created, ⟨directory, lanes⟩)

/-- Replace the entry of an address. -/
def setAddress (s : Shaper) (key : AddressKey) (entry : PodEntry) : Shaper :=
  match s with
  | ⟨directory, lanes⟩ => ⟨directory.modify key fun _ => entry, lanes⟩

/-- Remove the entry of an address. -/
def eraseAddress (s : Shaper) (key : AddressKey) : Bool × Shaper :=
  match s with
  | ⟨directory, lanes⟩ =>
    match directory.erase key with
    | (found, directory) => (found, ⟨directory, lanes⟩)

/-- Make sure that an entity has an entry in one direction. -/
def claimEntity (s : Shaper) (d : Direction) (entity : EntityId) : Except TableFull (Bool × Shaper) :=
  ((s.lane d).entities.claim entity .fresh).map fun (created, entities) =>
    (created, { s with lanes := s.lanes.modify d fun lane => { lane with entities } })

/-- Change the state of an entity in one direction. -/
def modifyEntity (s : Shaper) (d : Direction) (entity : EntityId) (f : EntityState → EntityState) :
    Shaper :=
  match s with
  | ⟨directory, lanes⟩ =>
    ⟨directory, lanes.modify d fun lane =>
      match lane with
      | ⟨plan, caps, ring, counters, entities⟩ =>
        ⟨plan, caps, ring, counters, entities.modify entity f⟩⟩

/-- Remove the entry of an entity in one direction. -/
def eraseEntity (s : Shaper) (d : Direction) (entity : EntityId) : Bool × Shaper :=
  match s with
  | ⟨directory, lanes⟩ =>
    match lanes.update d fun lane =>
      match lane with
      | ⟨plan, caps, ring, counters, entities⟩ =>
        match entities.erase entity with
        | (found, entities) => (found, ⟨plan, caps, ring, counters, entities⟩)
    with
    | (found, lanes) => (found, ⟨directory, lanes⟩)

/-- The state of an entity in one direction. -/
def entity? (s : Shaper) (d : Direction) (entity : EntityId) : Option EntityState :=
  (s.lane d).entities.get? entity

/-- Store the plan of one direction. -/
def setPlan (s : Shaper) (d : Direction) (plan : RatePlan) : Shaper :=
  { s with lanes := s.lanes.modify d fun lane => { lane with plan } }

end Shaper

/-! ## Writing -/

namespace Control

/-- Fill in a plan for one direction and see whether it can be kept. -/
def acceptPlan (d : Direction) (plan : BandwidthPlan) : Control BandwidthPlan := do
  let plan := plan.withDefaults
  match plan.check with
  | .error refusal => throw ⟨[.storingPlan d plan], .plan refusal⟩
  | .ok _ =>
    plan.warnings.forM note
    return plan

/-- Store a plan for one direction, unless it is already in force. -/
def storePlan (d : Direction) (plan : BandwidthPlan) : Control Unit := do
  if (← inspect fun s => (s.lane d).plan) = plan.toRatePlan then
    note (.debug s!"{d.name} global config unchanged")
  else
    note (.info s!"write global config {d.name}: {plan.text}")
    change fun s => s.setPlan d plan.toRatePlan

/-- Put plans for both directions into force.  Nothing is stored unless both can be kept. -/
def writePlans (plans : PerDirection BandwidthPlan) : Control Unit := do
  let ingress ← acceptPlan .ingress plans.ingress
  let egress ← acceptPlan .egress plans.egress
  storePlan .ingress ingress
  storePlan .egress egress

/-- Limit an entity in one direction.  Rate zero takes the limit away, and a rate that is already in
force leaves the bookkeeping alone. -/
def writeRateIn (entity : EntityId) (d : Direction) (rate : UInt64) : Control Unit := do
  if rate = 0 then
    if ← alter fun s => s.eraseEntity d entity then
      note (.info s!"entity {entity} {d.name} rate removed")
  else if (← inspect fun s => (s.entity? d entity).map (·.limiter.rate)) ≠ some rate then
    let _ ← within (.settingRate d entity) (attempt fun s => s.claimEntity d entity)
    change fun s => s.modifyEntity d entity fun e => { e with limiter := .idle rate }
    note (.info s!"entity {entity} {d.name} rate {rate} B/s")

/-- Limit an entity in both directions. -/
def writeRates (entity : EntityId) (rates : PerDirection UInt64) : Control Unit := do
  if entity = 0 then throw (.of .reservedEntity)
  Direction.all.forM fun d => writeRateIn entity d (rates.get d)

/-- Take the limits of an entity away. -/
def deleteRates (entity : EntityId) : Control Unit :=
  Direction.all.forM fun d => do
    if ← alter fun s => s.eraseEntity d entity then
      note (.info s!"entity {entity} {d.name} rate removed")

/-- Enter an address of a pod into the directory. -/
def writeAddress (pod : Pod) (a : Address) : Control Unit := do
  let created ← within (.enteringAddress a) (attempt fun s => s.claimAddress a.key)
  change fun s => s.setAddress a.key ⟨pod.entity, pod.classId⟩
  if created then
    note (.info s!"pod {pod.id} address {a.text} -> entity {pod.entity} class {pod.classId}")

/-- Enter the addresses of a pod into the directory and limit its entity.  Pods that share the network
of the node are left out. -/
def writePod (pod : Pod) : Control Unit := do
  if pod.hostNetwork then note (.debug s!"Skipping host-network pod {pod.id}")
  else
    if pod.entity = 0 then throw (.of (.podWithoutEntity pod.id))
    pod.addresses.forM (writeAddress pod)
    writeRates pod.entity ⟨pod.receiveRate, pod.sendRate⟩

/-- Take the addresses of a pod out of the directory. -/
def deletePod (pod : Pod) : Control Unit := do
  if !pod.hostNetwork then
    pod.addresses.forM fun a => do
      if ← alter fun s => s.eraseAddress a.key then
        note (.info s!"pod {pod.id} address {a.text} removed")

/-- Put a whole configuration into force, the plans first. -/
def apply (config : Config) : Control Unit := do
  writePlans config.plans
  config.pods.forM fun pod => within (.applyingPod pod.id) (writePod pod)

/-- Take out a pod that was removed from a configuration, and the limits of its entity if no pod that is
left has the same. -/
def tearDown (pod : Pod) (left : Config) : Control Unit := do
  deletePod pod
  if !left.pods.any (·.entity == pod.entity) then deleteRates pod.entity

end Control

/-! ## Reading back -/

/-- A line of the directory. -/
structure PodInfo where
  address : Address
  entity : EntityId
  classId : UInt32
  deriving DecidableEq

/-- The limits of an entity; zero is none. -/
structure EntityRate where
  entity : EntityId
  receiveRate : UInt64
  sendRate : UInt64
  deriving DecidableEq

namespace Shaper

/-- The plans in force. -/
def plans (s : Shaper) : PerDirection BandwidthPlan :=
  ⟨.ofRatePlan s.lanes.ingress.plan, .ofRatePlan s.lanes.egress.plan⟩

/-- The directory in the order of its keys. -/
def pods (s : Shaper) : List PodInfo :=
  (s.directory.toList.mergeSort fun a b => a.1 ≤ b.1).map fun (key, entry) =>
    ⟨key.address, entry.entity, entry.classId⟩

/-- A sorted list without repetitions. -/
def dropRepeats : List EntityId → List EntityId
  | [] => []
  | [e] => [e]
  | e :: f :: rest => if e = f then dropRepeats (f :: rest) else e :: dropRepeats (f :: rest)

/-- The entities that are limited in some direction, in order. -/
def limitedEntities (s : Shaper) : List EntityId :=
  let ids (d : Direction) : List EntityId := (s.lane d).entities.toList.map (·.1)
  dropRepeats ((ids .ingress ++ ids .egress).mergeSort fun a b => a ≤ b)

/-- The limits of all entities, in the order of the entities. -/
def entityRates (s : Shaper) : List EntityRate :=
  let rate (e : EntityId) (d : Direction) : UInt64 :=
    ((s.entity? d e).map (·.limiter.rate)).getD 0
  s.limitedEntities.map fun e => ⟨e, rate e .ingress, rate e .egress⟩

end Shaper

namespace Config

/-- A shaper that was given a configuration at its start, or why there is none.  The second part is the
notes that were left. -/
def load (c : Config) : Except Stop Shaper × Array Note :=
  let size := c.options.maxEntries.toNat
  let notes := #[Note.debug s!"Allocating shaping tables with {size} entries each"]
  match Shaper.create size with
  | .error t => (.error (.trapped t), notes)
  | .ok shaper =>
    match (Control.apply c).run.run ⟨shaper, notes⟩ with
    | (.ok _, after) => (.ok after.shaper, after.notes)
    | (.error f, after) => (.error (.failed f), after.notes)

/-- Fill in the plans of a configuration, one direction after the other until one cannot be kept, and
check the rest of it.  The configuration afterwards is part of the answer in either case. -/
def check (c : Config) : Except Failure Unit × Config × List Note :=
  let ingress := c.plans.ingress.withDefaults
  let c := c.setPlan .ingress ingress
  match ingress.check with
  | .error refusal => (.error ⟨[.checkingPlan .ingress], .plan refusal⟩, c, [])
  | .ok _ =>
    let egress := c.plans.egress.withDefaults
    let c := c.setPlan .egress egress
    match egress.check with
    | .error refusal => (.error ⟨[.checkingPlan .egress], .plan refusal⟩, c, ingress.warnings)
    | .ok _ =>
      let notes := ingress.warnings ++ egress.warnings
      match c.pods.find? fun p => !p.hostNetwork && p.entity == 0 with
      | some p => (.error (.of (.podWithoutEntity p.id)), c, notes)
      | none =>
        if c.options.maxEntries = 0 then (.error (.of .noTables), c, notes) else (.ok (), c, notes)

end Config

end Shaping
