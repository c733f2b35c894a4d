import Shaping.Proofs.Control.Configured
import Shaping.Proofs.Control.PlansInForce
import Shaping.Proofs.Control.Refinement

/-!
# Configurations that are checked

A configuration is looked at twice, by `Config.check` when it is edited and by `Control.apply` when it is put
into force.  The two do not share any code, and they do not look in the same order, but they look for the same
things: both accept what is `Acceptable` (`Config.check_eq_ok_iff`, `Config.call_apply`).  The check goes on
to ask for tables that can hold anything at all.

What no check can foresee is that a table will be full.  To run into that takes more addresses than fit into
the directory, or more limited entities in one direction than fit into its table.  For if a write is refused,
the table holds as many keys as it may, all of them named by the configuration, and the key of the write is
not among them (`Stuck.not_fits`).

Checking also fills in plans, and that makes no difference to what is put into force (`Config.apply_check`).

The check goes through plans before pods and stops at what it finds first, as putting into force does, but a
pod that is not acceptable is found by one when it looks for such a pod, and by the other when it comes to
it, after writing those before.  To compare the two branch by branch would be to compare failures, which do
differ.  Compared are the conditions under which they do not fail.
-/

set_option autoImplicit false

namespace Shaping

/-! ## What the check accepts -/

namespace Config

theorem find?_incomplete_eq_none_iff (pods : List Pod) :
    pods.find? (fun p => !p.hostNetwork && p.entity == 0) = none ↔ ∀ pod ∈ pods, pod.Complete := by
  rw [List.find?_eq_none]
  refine forall₂_congr fun pod _ => ?_
  rw [Pod.Complete]
  cases pod.hostNetwork <;> simp

/-- **The check accepts a configuration that is acceptable**, if its tables can hold anything at all, and no
other one. -/
theorem check_eq_ok_iff (c : Config) :
    c.check.1 = .ok () ↔ c.Acceptable ∧ c.options.maxEntries ≠ 0 := by
  have hplans : (∀ d, (c.plans.get d).withDefaults.check = .ok ()) ↔
      c.plans.ingress.withDefaults.check = .ok () ∧ c.plans.egress.withDefaults.check = .ok () := by
    refine ⟨fun h => ⟨h .ingress, h .egress⟩, fun h d => ?_⟩
    cases d with
    | ingress => exact h.1
    | egress => exact h.2
  have hacceptable : c.Acceptable ↔
      (c.plans.ingress.withDefaults.check = .ok () ∧ c.plans.egress.withDefaults.check = .ok ()) ∧
        c.pods.find? (fun p => !p.hostNetwork && p.entity == 0) = none := by
    rw [find?_incomplete_eq_none_iff, ← hplans]
    exact ⟨fun h => ⟨h.plans, h.pods⟩, fun h => ⟨h.1, h.2⟩⟩
  rw [hacceptable, check]
  simp only [setPlan, PerDirection.modify]
  cases c.plans.ingress.withDefaults.check with
  | error refusal => simp
  | ok _ =>
    cases c.plans.egress.withDefaults.check with
    | error refusal => simp
    | ok _ =>
      cases c.pods.find? (fun p => !p.hostNetwork && p.entity == 0) with
      | some pod => simp
      | none => by_cases hmax : c.options.maxEntries = 0 <;> simp [hmax]

/-! ## What the check changes -/

/-- It does not matter when the plan of one direction is filled in. -/
theorem apply_setPlan (c : Config) (d : Direction) :
    Control.apply (c.setPlan d (c.plans.get d).withDefaults) = Control.apply c := by
  have haccept : ∀ d plan, Control.acceptPlan d (BandwidthPlan.withDefaults plan)
      = Control.acceptPlan d plan := fun d plan => by
    rw [Control.acceptPlan, Control.acceptPlan, BandwidthPlan.withDefaults_withDefaults]
  rw [Control.apply, Control.apply, Control.writePlans, Control.writePlans]
  cases d <;> simp only [setPlan, PerDirection.modify, PerDirection.get, haccept]

/-- The check fills in the plan of one direction, and if it can be kept that of the other one. -/
theorem check_config (c : Config) :
    let first := c.setPlan .ingress (c.plans.get .ingress).withDefaults
    c.check.2.1 = first ∨ c.check.2.1 = first.setPlan .egress (first.plans.get .egress).withDefaults := by
  dsimp only
  rw [check]
  cases c.plans.ingress.withDefaults.check with
  | error refusal => exact .inl rfl
  | ok _ =>
    refine .inr ?_
    dsimp only
    split
    · rfl
    · split
      · rfl
      · split <;> rfl

/-- The check leaves the options alone. -/
theorem options_check (c : Config) : c.check.2.1.options = c.options := by
  rcases c.check_config with hfirst | hboth
  · rw [hfirst, setPlan]
  · rw [hboth, setPlan, setPlan]

theorem Acceptable.setPlan {c : Config} (h : c.Acceptable) (d : Direction) :
    (c.setPlan d (c.plans.get d).withDefaults).Acceptable := by
  refine ⟨fun d' => ?_, h.pods⟩
  have hplan := h.plans d'
  cases d <;> cases d' <;>
    simpa only [Config.setPlan, PerDirection.modify, PerDirection.get,
      BandwidthPlan.withDefaults_withDefaults] using hplan

/-- What is acceptable remains so. -/
theorem Acceptable.check {c : Config} (h : c.Acceptable) : c.check.2.1.Acceptable := by
  rcases c.check_config with hfirst | hboth
  · exact hfirst ▸ h.setPlan _
  · exact hboth ▸ (h.setPlan _).setPlan _

/-- **A configuration that was checked comes to the same as before.** -/
theorem apply_check (c : Config) : Control.apply c.check.2.1 = Control.apply c := by
  rcases c.check_config with hfirst | hboth
  · rw [hfirst, apply_setPlan]
  · rw [hboth, apply_setPlan, apply_setPlan]

end Config

/-! ## Tables that are full

That a table is full is a statement about its listing, and from this to the number of keys it is a step,
taken once for a table with any view: the keys listed are those of a map, and so many does the table have. -/

namespace OpenTable.Shows

variable {κ ν μ : Type} [DecidableEq κ] [Hashable κ] {capacity : Nat} {view : ν → μ}
  {t : OpenTable κ ν} {m : BoundedMap κ μ}

/-- A claim is refused for want of room only. -/
theorem full_of_refused (h : Shows capacity view t m) {k : κ} {fresh : ν} {full : TableFull}
    (hc : t.claim k fresh = .error full) :
    t.get? k = none ∧ t.toList.length = capacity ∧ full = ⟨capacity⟩ := by
  obtain ⟨hnone, hsize, rfl⟩ := h.wellFormed.claim_eq_error_iff.mp hc
  refine ⟨hnone, ?_, by rw [h.room]⟩
  rw [length_toList, h.wellFormed.counted, hsize, h.room]

/-- There are more keys than a full table holds, if one of them is not in it. -/
theorem lt_card_of_full (h : Shows capacity view t m) {keys : Finset κ}
    (hkeys : ∀ k, t.get? k ≠ none → k ∈ keys) {k : κ} (hk : k ∈ keys) (hnone : t.get? k = none)
    (hfull : t.toList.length = capacity) : capacity < keys.card := by
  have hcard : m.keys.card = capacity := by
    rw [← h.size_eq, ← h.wellFormed.counted, ← length_toList, hfull]
  have hsub : m.keys ⊂ keys := by
    refine Finset.ssubset_iff_subset_ne.mpr ⟨fun j hj => hkeys j ((h.mem_keys j).mp hj), fun heq => ?_⟩
    exact (h.mem_keys k).mp (heq ▸ hk) hnone
  exact hcard ▸ Finset.card_lt_card hsub

end OpenTable.Shows

/-- The table that a write is about has nothing for it, and as many entries as it may. -/
def Shaper.FullFor (s : Shaper) (capacity : Nat) : Write → Prop
  | .address _ a => s.directory.get? a.key = none ∧ s.directory.toList.length = capacity
  | .rate e d _ => s.entity? d e = none ∧ (s.lane d).entities.toList.length = capacity

/-- A write is refused for want of room only. -/
theorem Mirrors.fullFor {capacity : Nat} {s : Shaper} {m : Registry} (h : Mirrors capacity s m)
    {w : Write} {full : TableFull} (hw : s.write w = .error full) :
    s.FullFor capacity w ∧ full = ⟨capacity⟩ := by
  cases w with
  | address pod a =>
    rw [Shaper.write, Shaper.claimAddress] at hw
    cases hclaim : s.directory.claim a.key .fresh with
    | ok r =>
      rw [hclaim] at hw
      cases hw
    | error e =>
      rw [hclaim] at hw
      cases hw
      obtain ⟨hnone, hlength, rfl⟩ := h.directory.full_of_refused hclaim
      exact ⟨⟨hnone, hlength⟩, rfl⟩
  | rate e d limit =>
    rw [Shaper.write] at hw
    split at hw
    · cases hw
    · split at hw
      · cases hw
      · rw [Shaper.claimEntity] at hw
        cases hclaim : (s.lane d).entities.claim e .fresh with
        | ok r =>
          rw [hclaim] at hw
          cases hw
        | error e' =>
          rw [hclaim] at hw
          cases hw
          obtain ⟨hnone, hlength, rfl⟩ := (h.entities d).full_of_refused hclaim
          exact ⟨⟨hnone, hlength⟩, rfl⟩

/-! ## What a configuration names

A key that is in a table was not there at first, so one of the writes before put it there, and that write is
part of the configuration.  This needs the exact account of what the writes did (`WrittenBy`); it would not
do to know that they changed nothing else. -/

namespace Config

variable {c : Config}

/-- The keys under which the addresses of pods are filed.  Pods that are left out have none. -/
def addressKeys (c : Config) : Finset AddressKey :=
  ((c.pods.filter (!·.hostNetwork)).flatMap fun pod => pod.addresses.map (·.key)).toFinset

/-- The entities that some pod limits in a direction. -/
def limitedEntities (c : Config) (d : Direction) : Finset EntityId :=
  ((c.pods.filter fun pod => !pod.hostNetwork && pod.rate d != 0).map (·.entity)).toFinset

/-- What a configuration names fits into tables of that capacity. -/
structure Fits (c : Config) (capacity : Nat) : Prop where
  addresses : c.addressKeys.card ≤ capacity
  entities : ∀ d, (c.limitedEntities d).card ≤ capacity

theorem mem_addressKeys {pod : Pod} {a : Address} (h : .address pod a ∈ c.writes) :
    a.key ∈ c.addressKeys := by
  obtain ⟨hpod, hhost, ha⟩ := address_mem_writes.mp h
  rw [addressKeys, List.mem_toFinset, List.mem_flatMap]
  exact ⟨pod, List.mem_filter.mpr ⟨hpod, by rw [hhost, Bool.not_false]⟩, List.mem_map_of_mem ha⟩

theorem mem_limitedEntities {e : EntityId} {d : Direction} {limit : UInt64}
    (h : .rate e d limit ∈ c.writes) (hlimit : limit ≠ 0) : e ∈ c.limitedEntities d := by
  obtain ⟨pod, hpod, hhost, rfl, rfl⟩ := rate_mem_writes.mp h
  rw [limitedEntities, List.mem_toFinset]
  refine List.mem_map_of_mem (List.mem_filter.mpr ⟨hpod, ?_⟩)
  rw [hhost, Bool.not_false, Bool.true_and]
  exact bne_iff_ne.mpr hlimit

end Config

/-- What was not there before and is there now was written. -/
theorem Write.exists_of_foldl {σ : Type} {f : Option σ → Write → Option σ} {writes : List Write}
    (h : writes.foldl f none ≠ none) : ∃ w ∈ writes, f none w ≠ none := by
  induction writes with
  | nil => exact absurd rfl h
  | cons w writes ih =>
    by_cases hw : f none w = none
    · rw [List.foldl_cons, hw] at h
      obtain ⟨w', hmem, hw'⟩ := ih h
      exact ⟨w', List.mem_cons_of_mem _ hmem, hw'⟩
    · exact ⟨w, List.mem_cons_self, hw⟩

namespace Stuck

variable {c : Config} {capacity : Nat} {s s' : Shaper} {m : Registry} {w : Write} {full : TableFull}

/-- An address that is in the directory now was named by the configuration. -/
theorem mem_addressKeys (h : Stuck c.writes s w full s') (hs : s.WellFormed)
    (hnone : ∀ key, s.directory.get? key = none) {key : AddressKey}
    (hkey : s'.directory.get? key ≠ none) : key ∈ c.addressKeys := by
  obtain ⟨earlier, hearlier, hwritten⟩ := h.writtenBy hs
  rw [hwritten.address, hnone] at hkey
  obtain ⟨w', hmem, hw'⟩ := Write.exists_of_foldl hkey
  cases w' with
  | rate e d limit => exact absurd rfl hw'
  | address pod a =>
    rw [Write.onAddress, ite_ne_right_iff] at hw'
    exact hw'.1 ▸ Config.mem_addressKeys (hearlier _ hmem)

/-- An entity that is limited now was limited by the configuration. -/
theorem mem_limitedEntities (h : Stuck c.writes s w full s') (hs : s.WellFormed) {d : Direction}
    (hnone : ∀ e, s.entity? d e = none) {e : EntityId} (he : s'.entity? d e ≠ none) :
    e ∈ c.limitedEntities d := by
  obtain ⟨earlier, hearlier, hwritten⟩ := h.writtenBy hs
  rw [hwritten.entity, hnone] at he
  obtain ⟨w', hmem, hw'⟩ := Write.exists_of_foldl he
  cases w' with
  | address pod a => exact absurd rfl hw'
  | rate e' d' limit =>
    rw [Write.onEntity, ite_ne_right_iff, Write.limited] at hw'
    obtain ⟨⟨rfl, rfl⟩, hlimited⟩ := hw'
    exact Config.mem_limitedEntities (hearlier _ hmem) fun hzero => hlimited (if_pos hzero)

/-- **A configuration that gets stuck names more than there is room for.** -/
theorem not_fits (h : Stuck c.writes s w full s') (hs : s.WellFormed)
    (hdirectory : ∀ key, s.directory.get? key = none) (hentities : ∀ d e, s.entity? d e = none)
    (hm : Mirrors capacity s' m) : ¬ c.Fits capacity := by
  intro hfits
  obtain ⟨hfull, -⟩ := hm.fullFor h.refused
  cases w with
  | address pod a =>
    exact absurd hfits.addresses (Nat.not_le.mpr (hm.directory.lt_card_of_full
      (fun _ hkey => h.mem_addressKeys hs hdirectory hkey) (Config.mem_addressKeys h.mem) hfull.1
      hfull.2))
  | rate e d limit =>
    have hlimit : limit ≠ 0 := by
      rintro rfl
      cases h.refused
    exact absurd (hfits.entities d) (Nat.not_le.mpr ((hm.entities d).lt_card_of_full
      (fun _ he => h.mem_limitedEntities hs (hentities d) he)
      (Config.mem_limitedEntities h.mem hlimit) hfull.1 hfull.2))

end Stuck

namespace Config

/-- **A configuration that fits is put into force** in an empty shaper. -/
theorem call_apply_of_fits {c : Config} {n : Nat} (h : c.Acceptable) (hfits : c.Fits (max n 1)) :
    ((Shaper.empty n).call (.apply c)).1 = .ok () := by
  have hmirrors := ((mirrors_empty n).call (.apply c)).2
  rcases call_apply h (Shaper.empty n) with ⟨s', -, hcall⟩ | ⟨pod, -, w, -, full, s', hstuck, hcall⟩
  · rw [hcall]
  · rw [hcall] at hmirrors
    have hwell := wellFormed_install (Shaper.wellFormed_empty n) c.plans
    refine absurd hfits (hstuck.not_fits hwell (fun key => ?_) (fun d e => ?_) hmirrors)
    · exact OpenTable.get?_empty n key
    · rw [Shaper.entity?, Shaper.lane_install]
      cases d <;> exact OpenTable.get?_empty n e

/-- What is acceptable and fits can be loaded, if there can be tables of the size that it asks for. -/
theorem exists_load {c : Config} (hcapacity : OpenTable.checkCapacity c.options.maxEntries.toNat = .ok ())
    (h : c.Acceptable) (hfits : c.Fits (max c.options.maxEntries.toNat 1)) : ∃ s, c.load.1 = .ok s :=
  ⟨_, (load_eq_ok_iff c).mpr ⟨hcapacity, Prod.ext (call_apply_of_fits h hfits) rfl⟩⟩

/-! ## The whole -/

/-- **The check and the control plane agree.**  Given tables that can hold something and are empty, a
configuration that is put into force passes the check; and one that passes the check is put into force, or it
fails because a table is full, which does not happen if what it names fits.  Whether plans were filled in by
the check does not matter to any shaper. -/
theorem check_agrees_with_apply (c : Config) (h : c.options.maxEntries ≠ 0) :
    let capacity := c.options.maxEntries.toNat
    let applied := (Shaper.empty capacity).call (.apply c)
    (applied.1 = .ok () → c.check.1 = .ok ()) ∧
      (c.check.1 = .ok () →
        (applied.1 = .ok () ∨
          ∃ pod ∈ c.pods, ∃ w ∈ pod.entries,
            applied.1 = .error ⟨[.applyingPod pod.id, w.context], .tableFull ⟨capacity⟩⟩ ∧
              applied.2.FullFor capacity w) ∧
        (c.Fits capacity → applied.1 = .ok ())) ∧
      ∀ s : Shaper, s.call (.apply c.check.2.1) = s.call (.apply c) := by
  intro capacity applied
  have hcapacity : max capacity 1 = capacity := by
    have hpos : 0 < c.options.maxEntries := UInt64.pos_iff_ne_zero.mpr h
    exact max_eq_left (UInt64.lt_iff_toNat_lt.mp hpos)
  refine ⟨fun hok => ?_, fun hcheck => ?_, fun s => ?_⟩
  · exact c.check_eq_ok_iff.mpr ⟨acceptable_of_call_apply (Prod.ext hok rfl), h⟩
  · have hacceptable := (c.check_eq_ok_iff.mp hcheck).1
    refine ⟨?_, fun hfits => call_apply_of_fits hacceptable (hcapacity.symm ▸ hfits)⟩
    rcases call_apply hacceptable (Shaper.empty capacity) with
      ⟨s', -, hcall⟩ | ⟨pod, hpod, w, hw, full, s', hstuck, hcall⟩
    · exact .inl (congrArg Prod.fst hcall)
    · have happlied : applied = _ := hcall
      have hmirrors : Mirrors (max capacity 1) applied.2 _ := ((mirrors_empty capacity).call _).2
      rw [hcapacity, happlied] at hmirrors
      obtain ⟨hfull, rfl⟩ := hmirrors.fullFor hstuck.refused
      rw [happlied]
      exact .inr ⟨pod, hpod, w, hw, rfl, hfull⟩
  · rw [Shaper.call, Shaper.call, Call.control, Call.control, apply_check]

end Config

/-! ## Cases

Two entities are too many for tables with room for one entry. -/

namespace CrowdedTable

/-- A pod without addresses, of an entity that is limited in what it receives. -/
def pod (entity : EntityId) : Pod := { Pod.blank with entity, receiveRate := 5 }

def config : Config := ⟨.const .unset, [pod 1, pod 2], { ShapingOptions.standard with maxEntries := 1 }⟩

theorem call_apply :
    ((Shaper.empty 1).call (.apply config)).1
      = .error ⟨[.applyingPod "", .settingRate .ingress 2], .tableFull ⟨1⟩⟩ := rfl

end CrowdedTable

section

open CrowdedTable

/-- The check accepts what cannot be put into force.  The table is full by then, and what the configuration
names does not fit. -/
theorem Config.check_agrees_with_apply_until_full :
    config.options.maxEntries ≠ 0 ∧ config.check.1 = .ok () ∧
      (∃ pod ∈ config.pods, ∃ w ∈ pod.entries,
        ((Shaper.empty 1).call (.apply config)).1
          = .error ⟨[.applyingPod pod.id, w.context], .tableFull ⟨1⟩⟩ ∧
        ((Shaper.empty 1).call (.apply config)).2.FullFor 1 w) ∧
      ¬ config.Fits 1 := by
  have hmax : config.options.maxEntries ≠ 0 := by decide
  have hcheck : config.check.1 = .ok () := rfl
  have hrefused : ((Shaper.empty 1).call (.apply config)).1 ≠ .ok () := by
    rw [CrowdedTable.call_apply]
    exact fun h => by cases h
  obtain ⟨hcases, hfits⟩ := (check_agrees_with_apply config hmax).2.1 hcheck
  exact ⟨hmax, hcheck, hcases.resolve_left hrefused, fun h => hrefused (hfits h)⟩

end

end Shaping
