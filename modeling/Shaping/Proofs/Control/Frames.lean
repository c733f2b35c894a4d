import Shaping.Proofs.Control.Effects
import Shaping.Proofs.OpenTable.Entries

/-!
# What the control plane leaves alone

The control plane changes a shaper in seven ways only: it stores plans, and it claims, sets and erases
addresses and entities.  So a property that survives these seven survives every operation
(`Stable.writePlans` and the others), and one that survives the last six survives the operations on pods and
rates (`StableInTables.writePod` and the others).  The changes to entities come with the direction and the
entity that they are about, because a property may well depend on one of them and on no other; such a
property is `Stable` for the places it does not depend on.

What tables keep under all that can be done to them survives (`stable_inTables`), and so tables stay
well-formed (`stable_wellFormed`).  Caps and counters are none of the control plane's business
(`stable_caps`, `stable_counters`), and the state of an entity in a direction survives all that is done to
other entities and in the other direction (`stable_entity`).  That plans stay in force is only true as long
as none are stored (`stableInTables_plan`).

The reason to fix the list of changes once is that there are many properties and many operations.  With a
lemma for every pair there would be dozens of them, all with the same proof.  As it is, the operations are
gone through once, for an arbitrary property, and each property is looked at under seven changes.
-/

set_option autoImplicit false

namespace Shaping

/-! ## The tables of a shaper -/

/-- The directory has one property, and the tables of entities have another. -/
structure Shaper.InTables (P : Directory → Prop) (Q : EntityTable → Prop) (s : Shaper) : Prop where
  directory : P s.directory
  entities : ∀ d, Q (s.lane d).entities

/-- All tables of the shaper are well-formed. -/
structure Shaper.WellFormed (s : Shaper) : Prop where
  directory : s.directory.WellFormed
  entities : ∀ d, (s.lane d).entities.WellFormed

namespace Shaper

theorem wellFormed_empty (n : Nat) : (empty n).WellFormed :=
  ⟨OpenTable.wellFormed_empty n, fun d => by cases d <;> exact OpenTable.wellFormed_empty n⟩

theorem wellFormed_eq : WellFormed = InTables OpenTable.WellFormed OpenTable.WellFormed :=
  funext fun _ => propext ⟨fun h => ⟨h.directory, h.entities⟩, fun h => ⟨h.directory, h.entities⟩⟩

/-- The tables of one direction are replaced. -/
theorem InTables.modify {P : Directory → Prop} {Q : EntityTable → Prop} {s : Shaper}
    (h : s.InTables P Q) {d : Direction} {f : Lane → Lane} (hf : Q (f (s.lane d)).entities) :
    (⟨s.directory, s.lanes.modify d f⟩ : Shaper).InTables P Q := by
  refine ⟨h.directory, fun d' => ?_⟩
  by_cases hd : d' = d
  · subst hd
    rw [lane, PerDirection.get_modify_self]
    exact hf
  · rw [lane, PerDirection.get_modify_of_ne _ hd]
    exact h.entities d'

theorem WellFormed.modify {s : Shaper} (h : s.WellFormed) {d : Direction} {f : Lane → Lane}
    (hf : (f (s.lane d)).entities.WellFormed) :
    (⟨s.directory, s.lanes.modify d f⟩ : Shaper).WellFormed := by
  rw [wellFormed_eq] at h ⊢
  exact h.modify hf

/-! ## The changes to the tables

What the control plane does to entities it does to one direction, and each of these equations shows it as
the replacement of one table in one lane.  So whether something else is touched is a question about two
directions and two keys. -/

theorem claimAddress_eq_ok {s s' : Shaper} {key : AddressKey} {created : Bool}
    (h : s.claimAddress key = .ok (created, s')) :
    ∃ directory, s.directory.claim key .fresh = .ok (created, directory) ∧
      s' = ⟨directory, s.lanes⟩ := by
  rw [claimAddress] at h
  cases hc : s.directory.claim key .fresh with
  | error full => rw [hc] at h; cases h
  | ok r =>
    rw [hc] at h
    cases h
    exact ⟨r.2, rfl, rfl⟩

theorem claimEntity_eq_ok {s s' : Shaper} {d : Direction} {e : EntityId} {created : Bool}
    (h : s.claimEntity d e = .ok (created, s')) :
    ∃ entities, (s.lane d).entities.claim e .fresh = .ok (created, entities) ∧
      s' = ⟨s.directory, s.lanes.modify d fun lane => { lane with entities }⟩ := by
  rw [claimEntity] at h
  cases hc : (s.lane d).entities.claim e .fresh with
  | error full => rw [hc] at h; cases h
  | ok r =>
    rw [hc] at h
    cases h
    exact ⟨r.2, rfl, rfl⟩

theorem eraseEntity_eq (s : Shaper) (d : Direction) (e : EntityId) :
    s.eraseEntity d e = (((s.lane d).entities.erase e).1,
      ⟨s.directory, s.lanes.modify d fun lane =>
        { lane with entities := ((s.lane d).entities.erase e).2 }⟩) := by
  cases d <;> rfl

theorem modifyEntity_eq (s : Shaper) (d : Direction) (e : EntityId) (f : EntityState → EntityState) :
    s.modifyEntity d e f = ⟨s.directory, s.lanes.modify d fun lane =>
      { lane with entities := (s.lane d).entities.modify e f }⟩ := by
  cases d <;> rfl

/-- The state of an entity after the entities of one direction were replaced. -/
theorem entity?_modify (s : Shaper) (d d' : Direction) (e : EntityId) (entities : EntityTable) :
    (⟨s.directory, s.lanes.modify d fun lane => { lane with entities }⟩ : Shaper).entity? d' e
      = if d' = d then entities.get? e else s.entity? d' e := by
  split
  · rename_i h
    rw [h, entity?, lane, PerDirection.get_modify_self]
  · rename_i h
    rw [entity?, lane, PerDirection.get_modify_of_ne _ h, entity?, lane]

/-- Other entities keep their state. -/
theorem entity?_replace {s : Shaper} {d d' : Direction} {e e' : EntityId} {entities : EntityTable}
    (h : d' ≠ d ∨ e' ≠ e) (hsame : ∀ k, k ≠ e' → entities.get? k = (s.lane d').entities.get? k) :
    (⟨s.directory, s.lanes.modify d' fun lane => { lane with entities }⟩ : Shaper).entity? d e
      = s.entity? d e := by
  rw [entity?_modify]
  split
  · rename_i hd
    rw [hsame e fun he => h.elim (fun h => h hd.symm) (fun h => h he.symm), ← hd, entity?]
  · rfl

/-- An entity that was claimed is there, with the state that it had. -/
theorem entity?_claimEntity {s s' : Shaper} (h : s.WellFormed) {d : Direction} {e : EntityId}
    {created : Bool} (hclaim : s.claimEntity d e = .ok (created, s')) :
    s'.entity? d e = some ((s.entity? d e).getD .fresh) := by
  obtain ⟨entities, hentities, rfl⟩ := claimEntity_eq_ok hclaim
  obtain ⟨-, -, -, -, hget⟩ := (h.entities d).claim_eq_ok hentities
  rw [entity?_modify, if_pos rfl, hget, if_pos rfl, entity?]

theorem entity?_modifyEntity {s : Shaper} (h : s.WellFormed) (d : Direction) (e : EntityId)
    (f : EntityState → EntityState) : (s.modifyEntity d e f).entity? d e = (s.entity? d e).map f := by
  rw [modifyEntity_eq, entity?_modify, if_pos rfl, OpenTable.modify, (h.entities d).get?_visit,
    if_pos rfl, entity?]

theorem entity?_eraseEntity {s : Shaper} (h : s.WellFormed) (d : Direction) (e : EntityId) :
    (s.eraseEntity d e).2.entity? d e = none := by
  rw [eraseEntity_eq, entity?_modify, if_pos rfl, (h.entities d).get?_erase, if_pos rfl]

end Shaper

/-! ## Properties that survive

Where an entity is `allowed` to be changed is a parameter, so that a property of one entity need not be lost
as soon as another one is written.  An operation is stable if all that it changes is allowed, which for a
pod means its own entity in both directions. -/

/-- The property survives what is done to tables, as long as entities are changed only where it is
`allowed`. -/
structure StableInTables (allowed : Direction → EntityId → Prop) (P : Shaper → Prop) : Prop where
  claimAddress : ∀ s key created s', P s → s.claimAddress key = .ok (created, s') → P s'
  setAddress : ∀ s key entry, P s → P (s.setAddress key entry)
  eraseAddress : ∀ s key, P s → P (s.eraseAddress key).2
  claimEntity : ∀ s d e created s', allowed d e → P s → s.claimEntity d e = .ok (created, s') → P s'
  modifyEntity : ∀ s d e f, allowed d e → P s → P (s.modifyEntity d e f)
  eraseEntity : ∀ s d e, allowed d e → P s → P (s.eraseEntity d e).2

/-- The property survives what the control plane does, as long as it changes entities only where it is
`allowed` to. -/
structure Stable (allowed : Direction → EntityId → Prop) (P : Shaper → Prop) : Prop
    extends StableInTables allowed P where
  setPlan : ∀ s d plan, P s → P (s.setPlan d plan)

/-! ### Pods and rates -/

namespace StableInTables

open Control

variable {allowed : Direction → EntityId → Prop} {P : Shaper → Prop}

theorem writeRateIn (h : StableInTables allowed P) {d : Direction} {e : EntityId} (ha : allowed d e)
    (rate : UInt64) : Keeps P (writeRateIn e d rate) := by
  rw [Control.writeRateIn]
  split
  · refine .bind (.alter fun s => h.eraseEntity s d e ha) fun found => ?_
    split
    · exact .note _
    · exact .pure _
  · refine .bind (.inspect _) fun rate' => ?_
    split
    · refine .bind (.within (.attempt fun s _ s' hs => h.claimEntity s d e _ s' ha hs)) fun _ => ?_
      exact .bind (.change fun s => h.modifyEntity s d e _ ha) fun _ => .note _
    · exact .pure _

theorem writeRates (h : StableInTables allowed P) {e : EntityId} (ha : ∀ d, allowed d e)
    (rates : PerDirection UInt64) : Keeps P (writeRates e rates) := by
  rw [Control.writeRates]
  split
  · exact .bind (.throw _) fun _ => .forM fun d _ => h.writeRateIn (ha d) _
  · exact .forM fun d _ => h.writeRateIn (ha d) _

theorem deleteRates (h : StableInTables allowed P) {e : EntityId} (ha : ∀ d, allowed d e) :
    Keeps P (deleteRates e) := by
  refine .forM fun d _ => .bind (.alter fun s => h.eraseEntity s d e (ha d)) fun found => ?_
  split
  · exact .note _
  · exact .pure _

theorem writeAddress (h : StableInTables allowed P) (pod : Pod) (a : Address) :
    Keeps P (writeAddress pod a) := by
  refine .bind (.within (.attempt fun s _ s' hs => h.claimAddress s a.key _ s' hs)) fun created => ?_
  refine .bind (.change fun s => h.setAddress s a.key _) fun _ => ?_
  split
  · exact .note _
  · exact .pure _

theorem writePod (h : StableInTables allowed P) {pod : Pod} (ha : ∀ d, allowed d pod.entity) :
    Keeps P (writePod pod) := by
  rw [Control.writePod]
  split
  · exact .note _
  · split
    · refine .bind (.throw _) fun _ => ?_
      exact .bind (.forM fun a _ => h.writeAddress pod a) fun _ => h.writeRates ha _
    · exact .bind (.forM fun a _ => h.writeAddress pod a) fun _ => h.writeRates ha _

theorem deletePod (h : StableInTables allowed P) (pod : Pod) : Keeps P (deletePod pod) := by
  rw [Control.deletePod]
  split
  · refine .forM fun a _ => .bind (.alter fun s => h.eraseAddress s a.key) fun found => ?_
    split
    · exact .note _
    · exact .pure _
  · exact .pure _

end StableInTables

/-! ### Plans and configurations -/

namespace Control

variable {P : Shaper → Prop}

/-- To look at a plan does nothing to the shaper. -/
theorem keeps_acceptPlan (d : Direction) (plan : BandwidthPlan) : Keeps P (acceptPlan d plan) := by
  rw [acceptPlan]
  split
  · exact .throw _
  · exact .bind (.forM fun _ _ => .note _) fun _ => .pure _

theorem keeps_storePlan (h : ∀ s d plan, P s → P (s.setPlan d plan)) (d : Direction)
    (plan : BandwidthPlan) : Keeps P (storePlan d plan) := by
  refine .bind (.inspect _) fun stored => ?_
  split
  · exact .note _
  · exact .bind (.note _) fun _ => .change fun s => h s d _

/-- What survives the storing of plans survives all that comes before it, too. -/
theorem keeps_writePlans (h : ∀ s d plan, P s → P (s.setPlan d plan))
    (plans : PerDirection BandwidthPlan) : Keeps P (writePlans plans) :=
  .bind (keeps_acceptPlan _ _) fun _ => .bind (keeps_acceptPlan _ _) fun _ =>
    .bind (keeps_storePlan h _ _) fun _ => keeps_storePlan h _ _

end Control

namespace Stable

open Control

variable {allowed : Direction → EntityId → Prop} {P : Shaper → Prop}

theorem writePlans (h : Stable allowed P) (plans : PerDirection BandwidthPlan) :
    Keeps P (writePlans plans) :=
  keeps_writePlans h.setPlan plans

theorem apply (h : Stable allowed P) {config : Config}
    (ha : ∀ pod ∈ config.pods, ∀ d, allowed d pod.entity) : Keeps P (apply config) :=
  .bind (h.writePlans _) fun _ => .forM fun pod hpod => .within (h.writePod (ha pod hpod))

end Stable

/-! ## The properties

A property that depends on the tables only through what is kept of them, or not on the tables at all, is
settled by one of two general statements (`stable_inTables`, `stableInTables_view`).  The state of an entity
is neither, as it depends on one entry; and to know that this entry is left alone, it has to be known as
well that the tables are well-formed. -/

namespace Shaper

/-- **What tables keep the shaper keeps**, a property of the directory and one of the tables of entities. -/
theorem stable_inTables {P : Directory → Prop} {Q : EntityTable → Prop} (hP : OpenTable.Kept P)
    (hQ : OpenTable.Kept Q) : Stable (fun _ _ => True) (InTables P Q) where
  setPlan s d plan h := by
    have := h.entities d
    exact h.modify this
  claimAddress s key created s' h hs := by
    obtain ⟨directory, hc, rfl⟩ := claimAddress_eq_ok hs
    exact ⟨hP.claim _ _ _ _ _ h.directory hc, h.entities⟩
  setAddress s key entry h := ⟨hP.visit _ key _ h.directory, h.entities⟩
  eraseAddress s key h := ⟨hP.erase _ key h.directory, h.entities⟩
  claimEntity s d e created s' _ h hs := by
    obtain ⟨entities, hc, rfl⟩ := claimEntity_eq_ok hs
    exact h.modify (hQ.claim _ _ _ _ _ (h.entities d) hc)
  modifyEntity s d e f _ h := by
    rw [modifyEntity_eq]
    exact h.modify (hQ.visit _ e _ (h.entities d))
  eraseEntity s d e _ h := by
    rw [eraseEntity_eq]
    exact h.modify (hQ.erase _ e (h.entities d))

/-- **Tables stay well-formed.** -/
theorem stable_wellFormed : Stable (fun _ _ => True) WellFormed := by
  rw [wellFormed_eq]
  exact stable_inTables OpenTable.kept_wellFormed OpenTable.kept_wellFormed

section

variable {α : Type} {view : Lane → α} (d : Direction) (a : α)

/-- What can be seen of a direction without its entities stays as it is while pods and rates are written. -/
theorem stableInTables_view (hentities : ∀ lane entities, view { lane with entities } = view lane) :
    StableInTables (fun _ _ => True) fun s => view (s.lane d) = a where
  claimAddress s key created s' h hs := by
    obtain ⟨directory, -, rfl⟩ := claimAddress_eq_ok hs
    exact h
  setAddress s key entry h := h
  eraseAddress s key h := h
  claimEntity s d' e created s' _ h hs := by
    obtain ⟨entities, -, rfl⟩ := claimEntity_eq_ok hs
    cases d' <;> cases d <;> first | exact h | exact (hentities _ _).trans h
  modifyEntity s d' e f _ h := by
    cases d' <;> cases d <;> first | exact h | exact (hentities _ _).trans h
  eraseEntity s d' e _ h := by
    cases d' <;> cases d <;> first | exact h | exact (hentities _ _).trans h

/-- What can be seen of a direction without its plan and its entities always stays as it is. -/
theorem stable_view (hentities : ∀ lane entities, view { lane with entities } = view lane)
    (hplan : ∀ lane plan, view { lane with plan } = view lane) :
    Stable (fun _ _ => True) fun s => view (s.lane d) = a where
  toStableInTables := stableInTables_view d a hentities
  setPlan s d' plan h := by
    cases d' <;> cases d <;> first | exact h | exact (hplan _ _).trans h

end

/-- **The caps of tiers stay as they are.** -/
theorem stable_caps (d : Direction) (caps : TierCaps) :
    Stable (fun _ _ => True) fun s => (s.lane d).caps = caps :=
  stable_view d caps (fun _ _ => rfl) (fun _ _ => rfl)

/-- **The counters of a direction stay as they are.** -/
theorem stable_counters (d : Direction) (c : Counters) :
    Stable (fun _ _ => True) fun s => (s.lane d).counters = c :=
  stable_view d c (fun _ _ => rfl) (fun _ _ => rfl)

/-- **Plans stay in force** while pods and rates are written. -/
theorem stableInTables_plan (d : Direction) (plan : RatePlan) :
    StableInTables (fun _ _ => True) fun s => (s.lane d).plan = plan :=
  stableInTables_view d plan fun _ _ => rfl

/-- **Entities do not depend on each other**, nor the directions on each other. -/
theorem stable_entity (d : Direction) (e : EntityId) (state : Option EntityState) :
    Stable (fun d' e' => d' ≠ d ∨ e' ≠ e) fun s => s.WellFormed ∧ s.entity? d e = state where
  setPlan s d' plan h :=
    ⟨h.1.modify (h.1.entities d'),
      by cases d' <;> cases d <;> exact h.2⟩
  claimAddress s key created s' h hs := by
    obtain ⟨directory, hc, rfl⟩ := claimAddress_eq_ok hs
    exact ⟨⟨(h.1.directory.claim_eq_ok hc).1, h.1.entities⟩, h.2⟩
  setAddress s key entry h := ⟨⟨h.1.directory.visit key _, h.1.entities⟩, h.2⟩
  eraseAddress s key h := ⟨⟨h.1.directory.erase key, h.1.entities⟩, h.2⟩
  claimEntity s d' e' created s' ha h hs := by
    obtain ⟨entities, hc, rfl⟩ := claimEntity_eq_ok hs
    obtain ⟨hwell, -, -, -, hget⟩ := (h.1.entities d').claim_eq_ok hc
    refine ⟨h.1.modify hwell, ?_⟩
    rw [entity?_replace ha fun k hk => by rw [hget, if_neg hk]]
    exact h.2
  modifyEntity s d' e' f ha h := by
    rw [modifyEntity_eq]
    refine ⟨h.1.modify ((h.1.entities d').visit e' _), ?_⟩
    rw [entity?_replace ha fun k hk => by
      rw [OpenTable.modify, (h.1.entities d').get?_visit, if_neg hk]]
    exact h.2
  eraseEntity s d' e' ha h := by
    rw [eraseEntity_eq]
    refine ⟨h.1.modify ((h.1.entities d').erase e'), ?_⟩
    rw [entity?_replace ha fun k hk => by rw [(h.1.entities d').get?_erase, if_neg hk]]
    exact h.2

end Shaper

end Shaping
