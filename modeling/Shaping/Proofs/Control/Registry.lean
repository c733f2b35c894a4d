import Shaping.Proofs.OpenTable.Views
import Shaping.Proofs.Shaper.Run

/-!
# What the control plane is supposed to keep

Whoever works with the control plane has three maps in mind: whom each address belongs to and, for each
direction, how much each entity may send or receive.  A `Registry` is these three maps and nothing else;
there are no tables in it, no limiters, and no traffic.

What a call does to a registry is an `Edit`, put together from three that are not taken apart any
further.

* `Registry.enter` files an address under its key, and may find the map full.
* `Registry.forget` takes an address out.
* `Registry.limit` sets the rate of an entity in one direction, or takes it away if the rate is zero.  A
  rate may find the map full too.

A map is full only for a key that it has not (`BoundedMap.put_eq_error_iff`), so whatever was entered once
can be changed at any time.  An edit that fails keeps what it did before.

`Registry.pods`, `Registry.entityRates` and `Registry.resolve` are what should be read back.

A registry is not made from a shaper but next to it, by operations of its own.  To take as the maps what is
read from the tables would be simpler, and say nothing: whatever the tables do would be right.
-/

set_option autoImplicit false

namespace Shaping

/-! ## Registries -/

/-- Whom each address belongs to, and how each entity is limited. -/
structure Registry where
  addresses : BoundedMap AddressKey PodEntry
  rates : PerDirection (BoundedMap EntityId UInt64)

/-- Something that is done to a registry: how it went, and the registry afterwards in either case. -/
abbrev Edit := Registry → Except Failure Unit × Registry

namespace Edit

/-- Do nothing. -/
def nothing : Edit := fun m => (.ok (), m)

/-- Fail. -/
def refuse (f : Failure) : Edit := fun m => (.error f, m)

/-- Do one thing, and if it does not fail another. -/
def andThen (first second : Edit) : Edit := fun m =>
  match first m with
  | (.ok _, m) => second m
  | (.error f, m) => (.error f, m)

theorem andThen_nothing (edit : Edit) : edit.andThen nothing = edit := by
  funext m
  rw [andThen]
  generalize edit m = r
  obtain ⟨f | _, m'⟩ := r <;> rfl

/-- Do one thing after the other until one fails. -/
def inTurn (edits : List Edit) : Edit := edits.foldr andThen nothing

/-- Do something as part of something else. -/
def within (context : Context) (edit : Edit) : Edit := fun m =>
  match edit m with
  | (result, m) => (result.mapError (·.within context), m)

end Edit

namespace Registry

open Edit

/-- Nothing is known. -/
def blank : Registry := ⟨∅, .const ∅⟩

/-! ## Editing

How an address becomes a key is not spelled out, and how a plan is checked is not either; both are functions
of what the caller gives, and no state is involved.  Everything else is said anew, from the two addresses
that a pod may have to the order of its writes. -/

variable (capacity : Nat)

/-- File an address. -/
def enter (entry : PodEntry) (a : Address) : Edit := fun m =>
  match m.addresses.put capacity a.key entry with
  | .ok addresses => (.ok (), { m with addresses })
  | .error full => (.error ⟨[.enteringAddress a], .tableFull full⟩, m)

/-- Take an address out. -/
def forget (a : Address) : Edit := fun m =>
  (.ok (), { m with addresses := m.addresses.erase a.key })

/-- Limit an entity in one direction.  Rate zero is no limit. -/
def limit (entity : EntityId) (d : Direction) (rate : UInt64) : Edit := fun m =>
  if rate = 0 then (.ok (), { m with rates := m.rates.modify d fun rates => rates.erase entity })
  else
    match (m.rates.get d).put capacity entity rate with
    | .ok rates => (.ok (), { m with rates := m.rates.modify d fun _ => rates })
    | .error full => (.error ⟨[.settingRate d entity], .tableFull full⟩, m)

/-- See whether the plan of one direction can be kept. -/
def acceptPlan (d : Direction) (plan : BandwidthPlan) : Edit :=
  match plan.withDefaults.check with
  | .ok _ => nothing
  | .error refusal => refuse ⟨[.storingPlan d plan.withDefaults], .plan refusal⟩

/-- Plans are not kept here, but they can be refused. -/
def acceptPlans (plans : PerDirection BandwidthPlan) : Edit :=
  (acceptPlan .ingress plans.ingress).andThen (acceptPlan .egress plans.egress)

/-- Limit an entity in both directions. -/
def writeRates (entity : EntityId) (rates : PerDirection UInt64) : Edit :=
  if entity = 0 then refuse (.of .reservedEntity)
  else inTurn (Direction.all.map fun d => limit capacity entity d (rates.get d))

/-- Take the limits of an entity away. -/
def deleteRates (entity : EntityId) : Edit :=
  inTurn (Direction.all.map fun d => limit capacity entity d 0)

/-- Do something to the IPv4 address of a pod, if it has one, and then to its IPv6 address, if it has one. -/
def eachAddress (pod : Pod) (edit : Address → Edit) : Edit :=
  (pod.v4.elim nothing fun quad => edit (.v4 quad)).andThen
    (pod.v6.elim nothing fun bits => edit (.v6 bits))

/-- File the addresses of a pod and limit its entity.  Pods that share the network of the node are left
out. -/
def writePod (pod : Pod) : Edit :=
  if pod.hostNetwork then nothing
  else if pod.entity = 0 then refuse (.of (.podWithoutEntity pod.id))
  else
    (eachAddress pod (enter capacity ⟨pod.entity, pod.classId⟩)).andThen
      (writeRates capacity pod.entity ⟨pod.receiveRate, pod.sendRate⟩)

/-- Take the addresses of a pod out. -/
def deletePod (pod : Pod) : Edit :=
  if pod.hostNetwork then nothing else eachAddress pod forget

/-- Put a whole configuration into force. -/
def apply (config : Config) : Edit :=
  (acceptPlans config.plans).andThen
    (inTurn (config.pods.map fun pod => (writePod capacity pod).within (.applyingPod pod.id)))

/-- The addresses of a pod are its IPv4 address and its IPv6 address, and no others. -/
theorem eachAddress_eq (pod : Pod) (edit : Address → Edit) :
    eachAddress pod edit = inTurn (pod.addresses.map edit) := by
  rw [eachAddress, Pod.addresses]
  cases pod.v4 with
  | none =>
    cases pod.v6 with
    | none => rfl
    | some bits => exact (andThen_nothing (edit (.v6 bits))).symm
  | some quad =>
    cases pod.v6 with
    | none => rfl
    | some bits => exact congrArg (edit (.v4 quad)).andThen (andThen_nothing (edit (.v6 bits))).symm

/-- What a call does to a registry whose maps may have `capacity` keys each. -/
def perform : Call → Edit
  | .writePlans plans => acceptPlans plans
  | .writePod pod => writePod capacity pod
  | .deletePod pod => deletePod pod
  | .writeRates entity rates => writeRates capacity entity rates
  | .deleteRates entity => deleteRates capacity entity
  | .apply config => apply capacity config

/-- How the calls of a run go, and what is known at its end.  Packets do not matter. -/
def run (m : Registry) : List Event → List (Except Failure Unit) × Registry
  | [] => ([], m)
  | .packet _ _ :: events => run m events
  | .call c :: events =>
    match perform capacity c m with
    | (result, m) =>
      match run m events with
      | (results, m) => (result :: results, m)

/-! ## Reading back -/

/-- The owner of an address. -/
def resolve (m : Registry) (a : Address) : Option Resolved :=
  (m.addresses.lookup a.key).map fun entry => ⟨entry.entity, Tier.ofClass? entry.classId⟩

/-- All addresses, in the order of their keys. -/
def pods (m : Registry) : List PodInfo :=
  (m.addresses.keys.sort (· ≤ ·)).filterMap fun key =>
    (m.addresses.lookup key).map fun entry => ⟨key.address, entry.entity, entry.classId⟩

/-- The entities that are limited in some direction, in order. -/
def limitedEntities (m : Registry) : List EntityId :=
  (m.rates.ingress.keys ∪ m.rates.egress.keys).sort (· ≤ ·)

/-- All limits, in the order of the entities.  Where there is none it says zero. -/
def entityRates (m : Registry) : List EntityRate :=
  m.limitedEntities.map fun e =>
    ⟨e, (m.rates.ingress.lookup e).getD 0, (m.rates.egress.lookup e).getD 0⟩

/-! ## What is always so

None of this is needed to compare what calls do to a registry and to a shaper.  It is what lets the lists be
read: that a zero means that there is no limit, and that an address with an entry has an owner. -/

/-- What holds of a registry that was edited from blank. -/
structure Sound (m : Registry) : Prop where
  /-- Every address belongs to an entity. -/
  owned : ∀ key entry, m.addresses.lookup key = some entry → entry.entity ≠ 0
  /-- Rate zero is not kept as a limit. -/
  limited : ∀ d e, (m.rates.get d).lookup e ≠ some 0
  /-- No map is larger than it may be. -/
  fits : m.addresses.keys.card ≤ capacity ∧ ∀ d, (m.rates.get d).keys.card ≤ capacity

theorem sound_blank : Sound capacity blank where
  owned key entry h := by
    rw [blank, Finmap.lookup_empty] at h
    cases h
  limited d e h := by
    cases d <;> exact absurd h (by simp [blank, PerDirection.const, PerDirection.get])
  fits := ⟨Nat.zero_le _, fun d => by cases d <;> exact Nat.zero_le _⟩

variable {capacity}

/-- The rates of one direction are replaced. -/
theorem Sound.modify {m : Registry} (h : m.Sound capacity) {d : Direction}
    {f : BoundedMap EntityId UInt64 → BoundedMap EntityId UInt64}
    (hlimited : ∀ e, (f (m.rates.get d)).lookup e ≠ some 0)
    (hfits : (f (m.rates.get d)).keys.card ≤ capacity) :
    Sound capacity { m with rates := m.rates.modify d f } := by
  refine ⟨h.owned, fun d' => ?_, h.fits.1, fun d' => ?_⟩
  all_goals by_cases hd : d' = d
  · rw [hd, PerDirection.get_modify_self]
    exact hlimited
  · rw [PerDirection.get_modify_of_ne _ hd]
    exact h.limited d'
  · rw [hd, PerDirection.get_modify_self]
    exact hfits
  · rw [PerDirection.get_modify_of_ne _ hd]
    exact h.fits.2 d'

end Registry

namespace Edit

/-- The edit keeps a registry sound, even if it fails. -/
def KeepsSound (capacity : Nat) (edit : Edit) : Prop :=
  ∀ m, m.Sound capacity → (edit m).2.Sound capacity

namespace KeepsSound

variable {capacity : Nat}

theorem nothing : KeepsSound capacity nothing := fun _ h => h

theorem refuse (f : Failure) : KeepsSound capacity (refuse f) := fun _ h => h

theorem andThen {first second : Edit} (h : KeepsSound capacity first)
    (h' : KeepsSound capacity second) : KeepsSound capacity (first.andThen second) := by
  intro m hm
  have hfirst := h m hm
  rw [Edit.andThen]
  generalize first m = r at hfirst
  obtain ⟨f | _, m'⟩ := r
  · exact hfirst
  · exact h' m' hfirst

theorem inTurn {edits : List Edit} (h : ∀ edit ∈ edits, KeepsSound capacity edit) :
    KeepsSound capacity (inTurn edits) := by
  induction edits with
  | nil => exact nothing
  | cons edit edits ih =>
    rw [List.forall_mem_cons] at h
    exact h.1.andThen (ih h.2)

theorem within {edit : Edit} (h : KeepsSound capacity edit) (context : Context) :
    KeepsSound capacity (edit.within context) := h

theorem enter {entry : PodEntry} (hentry : entry.entity ≠ 0) (a : Address) :
    KeepsSound capacity (Registry.enter capacity entry a) := by
  intro m h
  rw [Registry.enter]
  split
  · rename_i addresses hput
    obtain ⟨haddresses, -⟩ := BoundedMap.put_eq_ok hput
    refine ⟨fun key entry' hlook => ?_, h.limited, BoundedMap.card_put_le h.fits.1 hput, h.fits.2⟩
    rw [haddresses, BoundedMap.lookup_insert] at hlook
    split at hlook
    · cases hlook
      exact hentry
    · exact h.owned key entry' hlook
  · exact h

theorem forget (a : Address) : KeepsSound capacity (Registry.forget a) := by
  intro m h
  refine ⟨fun key entry hlook => ?_, h.limited, BoundedMap.card_erase_le h.fits.1 _, h.fits.2⟩
  rw [Registry.forget, BoundedMap.lookup_erase] at hlook
  split at hlook
  · cases hlook
  · exact h.owned key entry hlook

theorem limit (entity : EntityId) (d : Direction) (rate : UInt64) :
    KeepsSound capacity (Registry.limit capacity entity d rate) := by
  intro m h
  rw [Registry.limit]
  split
  · refine h.modify (fun e => ?_) (BoundedMap.card_erase_le (h.fits.2 d) entity)
    rw [BoundedMap.lookup_erase]
    split
    · exact Option.some_ne_none 0 |>.symm
    · exact h.limited d e
  · rename_i hrate
    split
    · rename_i rates hput
      refine h.modify (fun e => ?_) (BoundedMap.card_put_le (h.fits.2 d) hput)
      obtain ⟨rfl, -⟩ := BoundedMap.put_eq_ok hput
      rw [BoundedMap.lookup_insert]
      split
      · exact fun hzero => hrate (Option.some_inj.mp hzero)
      · exact h.limited d e
    · exact h

theorem acceptPlans (plans : PerDirection BandwidthPlan) :
    KeepsSound capacity (Registry.acceptPlans plans) := by
  have haccept : ∀ d plan, KeepsSound capacity (Registry.acceptPlan d plan) := by
    intro d plan
    rw [Registry.acceptPlan]
    split
    · exact nothing
    · exact refuse _
  exact (haccept _ _).andThen (haccept _ _)

theorem limits (entity : EntityId) (rates : Direction → UInt64) :
    KeepsSound capacity
      (Edit.inTurn (Direction.all.map fun d => Registry.limit capacity entity d (rates d))) := by
  refine inTurn fun edit hedit => ?_
  obtain ⟨d, -, rfl⟩ := List.mem_map.mp hedit
  exact limit entity d _

theorem writeRates (entity : EntityId) (rates : PerDirection UInt64) :
    KeepsSound capacity (Registry.writeRates capacity entity rates) := by
  rw [Registry.writeRates]
  split
  · exact refuse _
  · exact limits entity _

theorem eachAddress (pod : Pod) {edit : Address → Edit} (h : ∀ a, KeepsSound capacity (edit a)) :
    KeepsSound capacity (Registry.eachAddress pod edit) := by
  rw [Registry.eachAddress_eq]
  refine inTurn fun e he => ?_
  obtain ⟨a, -, rfl⟩ := List.mem_map.mp he
  exact h a

theorem writePod (pod : Pod) : KeepsSound capacity (Registry.writePod capacity pod) := by
  rw [Registry.writePod]
  split
  · exact nothing
  · split
    · exact refuse _
    · rename_i hentity
      exact andThen (eachAddress pod (enter hentity)) (writeRates _ _)

theorem deletePod (pod : Pod) : KeepsSound capacity (Registry.deletePod pod) := by
  rw [Registry.deletePod]
  split
  · exact nothing
  · exact eachAddress pod forget

/-- **Every call keeps a registry sound.** -/
theorem perform (c : Call) : KeepsSound capacity (Registry.perform capacity c) := by
  cases c with
  | writePlans plans => exact acceptPlans plans
  | writePod pod => exact writePod pod
  | deletePod pod => exact deletePod pod
  | writeRates entity rates => exact writeRates entity rates
  | deleteRates entity => exact limits entity fun _ => 0
  | apply config =>
    refine andThen (acceptPlans _) (inTurn fun edit hedit => ?_)
    obtain ⟨pod, -, rfl⟩ := List.mem_map.mp hedit
    exact (writePod pod).within _

end KeepsSound

end Edit

theorem Registry.Sound.run {capacity : Nat} {m : Registry} (h : m.Sound capacity)
    (events : List Event) : (run capacity m events).2.Sound capacity := by
  induction events generalizing m with
  | nil => exact h
  | cons e events ih =>
    cases e with
    | packet p now => exact ih h
    | call c => exact ih (Edit.KeepsSound.perform c m h)

end Shaping
