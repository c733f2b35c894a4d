import Shaping.Proofs.Control.Plans
import Shaping.Proofs.Control.Registry
import Shaping.Proofs.Control.Steady

/-!
# The control plane keeps a registry

A shaper `Mirrors` a registry if its tables show the maps of the registry: the directory as it is, and the
entities of each direction to a reader who only looks at their rates.  Packets change what is in these
tables, but nothing that shows (`Mirrors.packet`).

An operation of the control plane `Simulates` an edit if it goes as the edit goes and leads from shapers to
shapers that mirror what the edit leads to, failing or not.  There is a rule for each way to put operations
together, and a lemma for each of the three edits that are not put together from others; so it is said of
all calls (`simulates_call`), and by induction of all runs (`Pipeline.mirrors_run`).

What is read back from a shaper is what is in the registry that it mirrors, and in order
(`Mirrors.pods_eq`, `Mirrors.entityRates_eq`, `Mirrors.resolve_eq`).

What is compared after each operation is the shaper, with the failure or without.  It must be so for
failures also, since a call that fails may have done something, and the calls after it find that.  The rule
for two operations in turn shows it: if the first one fails, then what it leaves is what the whole leaves,
on both sides (`Simulates.bind`).
-/

set_option autoImplicit false

namespace Shaping

/-! ## Shapers and registries

`Mirrors` speaks of tables through `OpenTable.Shows`, with a view for each.  Entities are viewed by their
rate and nothing else, and with that choice packets need no argument of their own: they visit an entity and
leave its rate. -/

/-- The tables of the shaper, which have room for `capacity` entries, show the maps of the registry. -/
structure Mirrors (capacity : Nat) (s : Shaper) (m : Registry) : Prop where
  directory : s.directory.Shows capacity id m.addresses
  entities : ∀ d, (s.lane d).entities.Shows capacity (·.limiter.rate) (m.rates.get d)

theorem mirrors_empty (maxEntries : Nat) :
    Mirrors (max maxEntries 1) (Shaper.empty maxEntries) .blank where
  directory := OpenTable.shows_empty maxEntries id
  entities d := by cases d <;> exact OpenTable.shows_empty maxEntries _

namespace Mirrors

variable {capacity : Nat} {s s' : Shaper} {m : Registry}

theorem wellFormed (h : Mirrors capacity s m) : s.WellFormed :=
  ⟨h.directory.wellFormed, fun d => (h.entities d).wellFormed⟩

theorem rate_eq (h : Mirrors capacity s m) (d : Direction) (e : EntityId) :
    (s.entity? d e).map (·.limiter.rate) = (m.rates.get d).lookup e := (h.entities d).lookup e

/-- The entities of one direction are replaced. -/
theorem replace (h : Mirrors capacity s m) {d : Direction}
    {f : BoundedMap EntityId UInt64 → BoundedMap EntityId UInt64}
    (hdirectory : s'.directory = s.directory)
    (hself : (s'.lane d).entities.Shows capacity (·.limiter.rate) (f (m.rates.get d)))
    (hother : ∀ d', d' ≠ d → (s'.lane d').entities = (s.lane d').entities) :
    Mirrors capacity s' { m with rates := m.rates.modify d f } := by
  refine ⟨hdirectory ▸ h.directory, fun d' => ?_⟩
  by_cases hd : d' = d
  · rw [hd, PerDirection.get_modify_self]
    exact hself
  · rw [PerDirection.get_modify_of_ne _ hd, hother d' hd]
    exact h.entities d'

/-- Plans do not show. -/
theorem setPlan (h : Mirrors capacity s m) (d : Direction) (plan : RatePlan) :
    Mirrors capacity (s.setPlan d plan) m := by
  refine ⟨h.directory, fun d' => ?_⟩
  by_cases hd : d' = d
  · rw [hd, Shaper.setPlan, Shaper.lane, PerDirection.get_modify_self]
    exact h.entities d
  · rw [Shaper.setPlan, Shaper.lane, PerDirection.get_modify_of_ne _ hd]
    exact h.entities d'

/-- An address that is erased has no owner. -/
theorem eraseAddress (h : Mirrors capacity s m) (key : AddressKey) :
    Mirrors capacity (s.eraseAddress key).2 { m with addresses := m.addresses.erase key } :=
  ⟨h.directory.erase key, h.entities⟩

/-- An entity that is erased has no rate. -/
theorem eraseEntity (h : Mirrors capacity s m) (d : Direction)
    (e : EntityId) : Mirrors capacity (s.eraseEntity d e).2
      { m with rates := m.rates.modify d fun rates => rates.erase e } := by
  rw [Shaper.eraseEntity_eq]
  refine h.replace rfl ?_ fun d' hd => ?_
  · rw [Shaper.lane, PerDirection.get_modify_self]
    exact (h.entities d).erase e
  · rw [Shaper.lane, PerDirection.get_modify_of_ne _ hd, Shaper.lane]

/-- An entity that is claimed and then given a rate has that rate. -/
theorem modifyEntity (h : Mirrors capacity s m) {d : Direction}
    {entities : EntityTable} {rates : BoundedMap EntityId UInt64} {f : EntityState → EntityState}
    {e : EntityId} (hshows : (entities.modify e f).Shows capacity (·.limiter.rate) rates) :
    Mirrors capacity
      (Shaper.modifyEntity { s with lanes := s.lanes.modify d fun lane => { lane with entities } } d e f)
      { m with rates := m.rates.modify d fun _ => rates } := by
  rw [Shaper.modifyEntity_eq]
  refine h.replace rfl ?_ fun d' hd => ?_
  · simp only [Shaper.lane, PerDirection.get_modify_self]
    exact hshows
  · simp only [Shaper.lane, PerDirection.get_modify_of_ne _ hd]

/-- **Traffic does not show either.** -/
theorem packet (h : Mirrors capacity s m) (u : Pipeline) (p : Packet) (now : UInt64) :
    Mirrors capacity (u.step s (.packet p now)) m := by
  refine ⟨?_, fun d => ?_⟩
  · rw [u.directory_packet s p now]
    exact h.directory
  · by_cases hd : d = p.direction
    · rw [hd, u.entities_packet p now]
      cases (Passage.mk s p now).entity? u with
      | none => exact h.entities _
      | some id => exact (h.entities _).visit id fun e => e.rate_gate _ _ _ _
    · rw [u.lane_packet_of_ne p now hd]
      exact h.entities d

end Mirrors

/-! ## Operations and edits

Notes are no part of a registry, so an operation that only leaves notes simulates nothing at all (`quiet`).
Since it makes no difference to an edit to do nothing first, such operations disappear from a sequence, and
what remains of an operation has the shape of its edit. -/

namespace Control

/-- The operation goes as the edit goes, and what it leads to mirrors what the edit leads to. -/
def Simulates {α : Type} (capacity : Nat) (op : Control α) (edit : Edit) : Prop :=
  ∀ c m, Mirrors capacity c.shaper m →
    (op.run.run c).1.map (fun _ => ()) = (edit m).1 ∧
      Mirrors capacity (op.run.run c).2.shaper (edit m).2

namespace Simulates

variable {α β : Type} {capacity : Nat}

/-- What only leaves notes is nothing. -/
theorem quiet {op : Control α}
    (h : ∀ c, ∃ a notes, op.run.run c = (.ok a, ⟨c.shaper, notes⟩)) :
    Simulates capacity op .nothing := by
  intro c m hm
  obtain ⟨a, notes, hrun⟩ := h c
  rw [hrun]
  exact ⟨rfl, hm⟩

theorem pure (a : α) : Simulates capacity (Pure.pure a : Control α) .nothing :=
  quiet fun c => ⟨a, c.notes, rfl⟩

theorem note (n : Note) : Simulates capacity (note n) .nothing :=
  quiet fun c => ⟨(), c.notes.push n, rfl⟩

theorem noteIf (found : Bool) (n : Note) :
    Simulates capacity (if found then Control.note n else Pure.pure ()) .nothing := by
  split
  · exact note n
  · exact pure ()

theorem throw (f : Failure) : Simulates capacity (throw f : Control α) (.refuse f) :=
  fun _ _ hm => ⟨rfl, hm⟩

theorem bind {op : Control α} {f : α → Control β} {first second : Edit}
    (h : Simulates capacity op first) (hf : ∀ a, Simulates capacity (f a) second) :
    Simulates capacity (op >>= f) (first.andThen second) := by
  intro c m hm
  obtain ⟨hresult, hmirrors⟩ := h c m hm
  rw [run_bind, Edit.andThen]
  generalize op.run.run c = r at hresult hmirrors
  generalize first m = r' at hresult hmirrors
  obtain ⟨result, c'⟩ := r
  obtain ⟨result', m'⟩ := r'
  dsimp only at hresult hmirrors
  subst hresult
  cases result with
  | error e => exact ⟨rfl, hmirrors⟩
  | ok a => exact hf a c' m' hmirrors

theorem forM {f : α → Control Unit} {edit : α → Edit} {xs : List α}
    (h : ∀ x ∈ xs, Simulates capacity (f x) (edit x)) :
    Simulates capacity (xs.forM f) (.inTurn (xs.map edit)) := by
  induction xs with
  | nil => exact pure ()
  | cons x xs ih =>
    rw [List.forall_mem_cons] at h
    exact h.1.bind fun _ => ih h.2

theorem within {op : Control α} {edit : Edit} (h : Simulates capacity op edit) (context : Context) :
    Simulates capacity (within context op) (edit.within context) := by
  intro c m hm
  obtain ⟨hresult, hmirrors⟩ := h c m hm
  rw [run_within, Edit.within]
  generalize op.run.run c = r at hresult hmirrors
  generalize edit m = r' at hresult hmirrors
  obtain ⟨result, c'⟩ := r
  obtain ⟨result', m'⟩ := r'
  dsimp only at hresult hmirrors
  subst hresult
  cases result with
  | error e => exact ⟨rfl, hmirrors⟩
  | ok a => exact ⟨rfl, hmirrors⟩

/-- An operation that comes after nothing. -/
theorem after_quiet {op : Control α} {f : α → Control β} {edit : Edit}
    (h : Simulates capacity op .nothing) (hf : ∀ a, Simulates capacity (f a) edit) :
    Simulates capacity (op >>= f) edit :=
  h.bind hf

theorem change {f : Shaper → Shaper} {g : Registry → Registry}
    (h : ∀ s m, Mirrors capacity s m → Mirrors capacity (f s) (g m)) :
    Simulates capacity (change f) fun m => (.ok (), g m) :=
  fun c m hm => ⟨rfl, h c.shaper m hm⟩

/-! ## Plans -/

theorem acceptPlan (d : Direction) (plan : BandwidthPlan) :
    Simulates capacity (acceptPlan d plan) (Registry.acceptPlan d plan) := by
  rw [Control.acceptPlan, Registry.acceptPlan]
  split
  · rename_i refusal hcheck
    rw [hcheck]
    exact throw _
  · rename_i hcheck
    rw [hcheck]
    refine quiet (fun c => ?_) |>.after_quiet fun _ => pure _
    obtain ⟨notes, hrun⟩ := run_forM_note plan.withDefaults.warnings c
    exact ⟨(), notes, hrun⟩

theorem storePlan (d : Direction) (plan : BandwidthPlan) :
    Simulates capacity (storePlan d plan) .nothing := by
  refine (quiet fun c => ⟨_, c.notes, run_inspect _ c⟩).after_quiet fun stored => ?_
  split
  · exact note _
  · exact (note _).after_quiet fun _ => change fun _ _ hm => hm.setPlan d _

theorem writePlans (plans : PerDirection BandwidthPlan) :
    Simulates capacity (writePlans plans) (Registry.acceptPlans plans) := by
  have hsecond : ∀ ingress : BandwidthPlan, Simulates capacity (do
      let egress ← Control.acceptPlan .egress plans.egress
      Control.storePlan .ingress ingress
      Control.storePlan .egress egress) (Registry.acceptPlan .egress plans.egress) := by
    intro ingress
    rw [← Edit.andThen_nothing (Registry.acceptPlan .egress plans.egress)]
    exact (acceptPlan _ _).bind fun _ => (storePlan _ _).after_quiet fun _ => storePlan _ _
  exact (acceptPlan _ _).bind hsecond

/-! ## Addresses -/

theorem writeAddress (pod : Pod) (a : Address) :
    Simulates capacity (writeAddress pod a)
      (Registry.enter capacity ⟨pod.entity, pod.classId⟩ a) := by
  intro c m hm
  rw [Control.writeAddress, run_bind, run_within_attempt, Registry.enter, Shaper.claimAddress]
  cases hclaim : c.shaper.directory.claim a.key .fresh with
  | error full =>
    rw [hm.directory.put_of_refused hclaim]
    exact ⟨rfl, hm⟩
  | ok r =>
    obtain ⟨created, directory⟩ := r
    obtain ⟨hput, hshows⟩ := hm.directory.put_of_claimed hclaim
      (f := fun _ => ⟨pod.entity, pod.classId⟩) (u := ⟨pod.entity, pod.classId⟩) fun _ => rfl
    rw [hput]
    have hafter : Mirrors capacity
        (Shaper.setAddress ⟨directory, c.shaper.lanes⟩ a.key ⟨pod.entity, pod.classId⟩)
        { m with addresses := m.addresses.insert a.key ⟨pod.entity, pod.classId⟩ } :=
      ⟨hshows, hm.entities⟩
    dsimp only [Except.map]
    rw [run_bind, run_change]
    exact noteIf created _ ⟨_, c.notes⟩ _ hafter

theorem eraseAddress (a : Address) (n : Note) :
    Simulates capacity (do if ← alter fun s => s.eraseAddress a.key then Control.note n)
      (Registry.forget a) := by
  intro c m hm
  rw [run_bind, run_alter]
  exact noteIf _ _ ⟨_, c.notes⟩ _ (hm.eraseAddress a.key)

/-! ## Rates

This is the one place where the two sides do different things.  The shaper does not write a rate that is in
force, so that its limiter goes on as it is, whereas the map always puts it in.  They come to the same
because to put in what is there does not change a map, and cannot find it full (`BoundedMap.put_of_lookup`). -/

theorem writeRateIn (e : EntityId) (d : Direction) (rate : UInt64) :
    Simulates capacity (writeRateIn e d rate) (Registry.limit capacity e d rate) := by
  intro c m hm
  rw [Control.writeRateIn, Registry.limit]
  split
  · rw [run_bind, run_alter]
    exact noteIf _ _ ⟨_, c.notes⟩ _ (hm.eraseEntity d e)
  · rw [run_bind, run_inspect, hm.rate_eq]
    dsimp only
    split
    · rw [run_bind, run_within_attempt, Shaper.claimEntity]
      cases hclaim : (c.shaper.lane d).entities.claim e .fresh with
      | error full =>
        rw [(hm.entities d).put_of_refused hclaim]
        exact ⟨rfl, hm⟩
      | ok r =>
        obtain ⟨created, entities⟩ := r
        obtain ⟨hput, hshows⟩ := (hm.entities d).put_of_claimed hclaim
          (f := fun state => { state with limiter := .idle rate }) (u := rate) fun _ => rfl
        rw [hput]
        dsimp only [Except.map]
        rw [run_bind, run_change]
        exact note _ ⟨_, c.notes⟩ _ (hm.modifyEntity hshows)
    · -- the rate is in force already, so putting it into the map changes nothing either
      rename_i hsame
      rw [BoundedMap.put_of_lookup (not_not.mp hsame)]
      exact ⟨rfl, hm.replace rfl (hm.entities d) fun _ _ => rfl⟩

theorem writeRates (e : EntityId) (rates : PerDirection UInt64) :
    Simulates capacity (writeRates e rates) (Registry.writeRates capacity e rates) := by
  have hall : Simulates capacity (Direction.all.forM fun d => Control.writeRateIn e d (rates.get d))
      (.inTurn (Direction.all.map fun d => Registry.limit capacity e d (rates.get d))) :=
    forM fun d _ => writeRateIn e d _
  rw [Control.writeRates, Registry.writeRates]
  split
  · exact (throw _).bind fun _ => hall
  · exact hall

theorem deleteRates (e : EntityId) :
    Simulates capacity (deleteRates e) (Registry.deleteRates capacity e) := by
  rw [deleteRates_eq]
  exact forM fun d _ => writeRateIn e d 0

/-! ## Pods -/

/-- What is done to the addresses of a pod one after the other is done to the two that it can have. -/
theorem eachAddress (pod : Pod) {f : Address → Control Unit} {edit : Address → Edit}
    (h : ∀ a, Simulates capacity (f a) (edit a)) :
    Simulates capacity (pod.addresses.forM f) (Registry.eachAddress pod edit) := by
  rw [Registry.eachAddress_eq]
  exact forM fun a _ => h a

theorem writePod (pod : Pod) :
    Simulates capacity (writePod pod) (Registry.writePod capacity pod) := by
  have hall : Simulates capacity (do
      pod.addresses.forM (Control.writeAddress pod)
      Control.writeRates pod.entity ⟨pod.receiveRate, pod.sendRate⟩)
      ((Registry.eachAddress pod (Registry.enter capacity ⟨pod.entity, pod.classId⟩)).andThen
        (Registry.writeRates capacity pod.entity ⟨pod.receiveRate, pod.sendRate⟩)) :=
    (eachAddress pod (writeAddress pod)).bind fun _ => writeRates _ _
  rw [Control.writePod, Registry.writePod]
  split
  · exact note _
  · split
    · exact (throw _).bind fun _ => hall
    · exact hall

theorem deletePod (pod : Pod) : Simulates capacity (deletePod pod) (Registry.deletePod pod) := by
  rw [Control.deletePod, Registry.deletePod]
  cases pod.hostNetwork with
  | true => exact pure ()
  | false => exact eachAddress pod fun a => eraseAddress a _

theorem apply (config : Config) :
    Simulates capacity (apply config) (Registry.apply capacity config) :=
  (writePlans _).bind fun _ => forM fun pod _ => (writePod pod).within _

end Simulates

/-- **Every operation does what it is supposed to.** -/
theorem simulates_call (capacity : Nat) (c : Call) :
    Simulates capacity c.control (Registry.perform capacity c) := by
  cases c with
  | writePlans plans => exact .writePlans plans
  | writePod pod => exact .writePod pod
  | deletePod pod => exact .deletePod pod
  | writeRates entity rates => exact .writeRates entity rates
  | deleteRates entity => exact .deleteRates entity
  | apply config => exact .apply config

end Control

/-! ## Runs -/

theorem Mirrors.call {capacity : Nat} {s : Shaper} {m : Registry} (h : Mirrors capacity s m) (c : Call) :
    (s.call c).1 = (Registry.perform capacity c m).1 ∧
      Mirrors capacity (s.call c).2 (Registry.perform capacity c m).2 := by
  obtain ⟨hresult, hmirrors⟩ := Control.simulates_call capacity c ⟨s, #[]⟩ m h
  refine ⟨?_, hmirrors⟩
  have hcall : (s.call c).1 = (c.control.run.run ⟨s, #[]⟩).1 := rfl
  rw [← hresult, hcall]
  cases (c.control.run.run ⟨s, #[]⟩).1 <;> rfl

/-- How the calls of a run go. -/
def Pipeline.results (u : Pipeline) : Shaper → List Event → List (Except Failure Unit)
  | _, [] => []
  | s, .packet p now :: events => results u (u.step s (.packet p now)) events
  | s, .call c :: events => (s.call c).1 :: results u (u.step s (.call c)) events

/-- **A run goes as it is supposed to.** -/
theorem Pipeline.mirrors_run (u : Pipeline) {capacity : Nat} (events : List Event) {s : Shaper}
    {m : Registry} (h : Mirrors capacity s m) :
    u.results s events = (Registry.run capacity m events).1 ∧
      Mirrors capacity (u.after s events) (Registry.run capacity m events).2 := by
  induction events generalizing s m with
  | nil => exact ⟨rfl, h⟩
  | cons e events ih =>
    cases e with
    | packet p now => exact ih (h.packet u p now)
    | call c =>
      obtain ⟨hresult, hafter⟩ := h.call c
      obtain ⟨hresults, hmirrors⟩ := ih hafter
      exact ⟨congrArg₂ List.cons hresult hresults, hmirrors⟩

end Shaping
