import Shaping.Proofs.Control.Checking
import Shaping.Proofs.Control.Listings

/-!
# Pods that are torn down

A pod that goes away can be dealt with in two ways.  It can be torn down in the shaper that is running
(`Control.tearDown`), or a new shaper can be loaded from the configuration without it.  These do not always
lead to the same.

Nobody keeps account of how many pods name an address or an entity.  To tear a pod down is to take its
addresses out of the directory, also those that another pod has, and to take the limits of its entity away if
no pod that is left names the entity; otherwise they stay what they are, also if it was the pod that set them
(`Control.run_tearDown`).  A new shaper knows the last of the pods that are left for each address, and for
each entity (`Config.get?_of_load`, `Config.rate?_of_load`).

So it is known when the two agree (`Config.teardown_agrees_iff`).  They do so about addresses if the pod
shares none with a pod that is left, and about limits if no pod that is left names the entity, or if the
limits of the entity do not depend on the pod.

A teardown is followed in the registry and not in the shaper.  Erasing from tables has been compared with
erasing from maps for good, so it is enough to know what the edit does to three maps
(`Registry.tearDown_spec`), and that it never fails is seen there, too: nothing is entered.
-/

set_option autoImplicit false

namespace Shaping

/-- Both pods have an address that is filed under the same key. -/
def Pod.SharesAddress (pod pod' : Pod) : Prop := ∃ key, pod.owns key = true ∧ pod'.owns key = true

/-! ## What is torn down -/

namespace Registry

/-- What a teardown does to a registry. -/
def tearDown (capacity : Nat) (pod : Pod) (left : Config) : Edit :=
  (deletePod pod).andThen
    (if left.pods.any (·.entity == pod.entity) then .nothing else deleteRates capacity pod.entity)

theorem forget_inTurn (as : List Address) (m : Registry) :
    ∃ m', Edit.inTurn (as.map forget) m = (.ok (), m') ∧ m'.rates = m.rates ∧
      ∀ key, m'.addresses.lookup key = if as.any (·.key == key) then none else m.addresses.lookup key := by
  induction as generalizing m with
  | nil => exact ⟨m, rfl, rfl, fun _ => rfl⟩
  | cons a as ih =>
    obtain ⟨m', hrun, hrates, hlook⟩ := ih { m with addresses := m.addresses.erase a.key }
    refine ⟨m', hrun, hrates, fun key => ?_⟩
    rw [hlook, BoundedMap.lookup_erase, List.any_cons]
    by_cases hkey : key = a.key
    · simp [hkey]
    · simp [hkey, Ne.symm hkey]

theorem deletePod_spec (pod : Pod) (m : Registry) :
    ∃ m', deletePod pod m = (.ok (), m') ∧ m'.rates = m.rates ∧
      ∀ key, m'.addresses.lookup key = if pod.owns key then none else m.addresses.lookup key := by
  rw [deletePod]
  cases hhost : pod.hostNetwork with
  | true =>
    refine ⟨m, rfl, rfl, fun key => ?_⟩
    rw [Pod.owns, hhost, Bool.not_true, Bool.false_and, if_neg Bool.false_ne_true]
  | false =>
    obtain ⟨m', hrun, hrates, hlook⟩ := forget_inTurn pod.addresses m
    rw [eachAddress_eq]
    refine ⟨m', hrun, hrates, fun key => ?_⟩
    rw [hlook, Pod.owns, hhost, Bool.not_false, Bool.true_and]

theorem deleteRates_spec (capacity : Nat) (e : EntityId) (m : Registry) :
    ∃ m', deleteRates capacity e m = (.ok (), m') ∧ m'.addresses = m.addresses ∧
      ∀ d e', (m'.rates.get d).lookup e' = if e' = e then none else (m.rates.get d).lookup e' := by
  refine ⟨_, rfl, rfl, fun d e' => ?_⟩
  rw [← BoundedMap.lookup_erase]
  cases d <;> rfl

/-- **What a teardown takes out**: all addresses of the pod, and the limits of its entity if no pod that is
left names it. -/
theorem tearDown_spec (capacity : Nat) (pod : Pod) (left : Config) (m : Registry) :
    ∃ m', tearDown capacity pod left m = (.ok (), m') ∧
      (∀ key, m'.addresses.lookup key = if pod.owns key then none else m.addresses.lookup key) ∧
      ∀ d e, (m'.rates.get d).lookup e =
        if e = pod.entity ∧ ∀ p ∈ left.pods, p.entity ≠ pod.entity then none
        else (m.rates.get d).lookup e := by
  obtain ⟨m₁, hdelete, hrates, haddresses⟩ := deletePod_spec pod m
  rw [tearDown, Edit.andThen, hdelete]
  dsimp only
  split
  · rename_i hnamed
    obtain ⟨p, hp, hentity⟩ := List.any_eq_true.mp hnamed
    refine ⟨m₁, rfl, haddresses, fun d e => ?_⟩
    rw [hrates, if_neg fun h => h.2 p hp (beq_iff_eq.mp hentity)]
  · rename_i hnamed
    have hnone : ∀ p ∈ left.pods, p.entity ≠ pod.entity := fun p hp hentity =>
      hnamed (List.any_eq_true.mpr ⟨p, hp, beq_iff_eq.mpr hentity⟩)
    obtain ⟨m₂, hrun, hsame, hlook⟩ := deleteRates_spec capacity pod.entity m₁
    refine ⟨m₂, hrun, fun key => by rw [hsame, haddresses], fun d e => ?_⟩
    rw [hlook, hrates]
    exact if_congr (and_iff_left hnone).symm rfl rfl

end Registry

theorem Edit.KeepsSound.tearDown {capacity : Nat} (pod : Pod) (left : Config) :
    KeepsSound capacity (Registry.tearDown capacity pod left) := by
  refine andThen (deletePod pod) ?_
  split
  · exact nothing
  · exact limits pod.entity fun _ => 0

theorem Control.Simulates.tearDown {capacity : Nat} (pod : Pod) (left : Config) :
    Simulates capacity (Control.tearDown pod left) (Registry.tearDown capacity pod left) := by
  refine (deletePod pod).bind fun _ => ?_
  cases left.pods.any (·.entity == pod.entity) with
  | true => exact pure ()
  | false => exact deleteRates pod.entity

/-- **A pod can always be torn down.**  Its addresses have no owner any more, and its entity no limit if no
pod that is left names it. -/
theorem Control.run_tearDown {capacity : Nat} {s : Shaper} {m : Registry} (h : Mirrors capacity s m)
    (hm : m.Sound capacity) (pod : Pod) (left : Config) :
    ∃ torn notes m', (tearDown pod left).run.run ⟨s, #[]⟩ = (.ok (), ⟨torn, notes⟩) ∧
      Mirrors capacity torn m' ∧ m'.Sound capacity ∧
      (∀ key, torn.directory.get? key = if pod.owns key then none else s.directory.get? key) ∧
      ∀ d e, torn.rate? d e =
        if e = pod.entity ∧ ∀ p ∈ left.pods, p.entity ≠ pod.entity then none else s.rate? d e := by
  obtain ⟨hresult, hmirrors⟩ := Simulates.tearDown pod left ⟨s, #[]⟩ m h
  obtain ⟨m', hedit, haddresses, hrates⟩ := Registry.tearDown_spec capacity pod left m
  have hsound := Edit.KeepsSound.tearDown pod left m hm
  rw [hedit] at hresult hmirrors hsound
  generalize (tearDown pod left).run.run ⟨s, #[]⟩ = run at hresult hmirrors
  obtain ⟨result, torn, notes⟩ := run
  refine ⟨torn, notes, m', ?_, hmirrors, hsound, fun key => ?_, fun d e => ?_⟩
  · cases result with
    | error f => cases hresult
    | ok _ => rfl
  · rw [hmirrors.get?_eq, haddresses, h.get?_eq]
  · rw [hmirrors.rate?_eq, hrates, h.rate?_eq]

/-! ## What is loaded -/

namespace Config

variable {c left : Config} {s : Shaper} {id : String} {pod : Pod}

/-- The limit that a configuration sets for an entity. -/
def limit? (c : Config) (d : Direction) (e : EntityId) : Option UInt64 := (c.rate? d e).bind limitOf?

theorem reachable_of_load (h : c.load.1 = .ok s) : s.Reachable :=
  (Shaper.Reachable.empty _).of_call ((load_eq_ok_iff c).mp h).2

/-- The directory that is loaded. -/
theorem get?_of_load (h : c.load.1 = .ok s) (key : AddressKey) : s.directory.get? key = c.entryAt? key := by
  have hinstalled := installed (Shaper.wellFormed_empty _) ((load_eq_ok_iff c).mp h).2
  have hempty : (Shaper.empty c.options.maxEntries.toNat).directory.get? key = none :=
    OpenTable.get?_empty _ key
  rw [hinstalled.address, hempty, Option.or_none]

/-- The limits that are loaded. -/
theorem rate?_of_load (h : c.load.1 = .ok s) (d : Direction) (e : EntityId) :
    s.rate? d e = c.limit? d e := by
  have hinstalled := installed (Shaper.wellFormed_empty _) ((load_eq_ok_iff c).mp h).2
  have hempty : (Shaper.empty c.options.maxEntries.toNat).rate? d e = none := by
    rw [Shaper.rate?, Shaper.entity?, Option.map_eq_none_iff]
    cases d <;> exact OpenTable.get?_empty _ e
  rw [hinstalled.rate, hempty, limit?]
  cases c.rate? d e <;> rfl

theorem entryAt?_eq_none_iff {key : AddressKey} :
    c.entryAt? key = none ↔ ∀ p ∈ c.pods, p.owns key = false := by
  simp [entryAt?]

/-- An entity that no pod names is not limited. -/
theorem limit?_eq_none {e : EntityId} (h : ∀ p ∈ c.pods, p.entity ≠ e) (d : Direction) :
    c.limit? d e = none := by
  have hnone : c.pods.reverse.find? (·.limits e) = none :=
    List.find?_eq_none.mpr fun p hp hlimits => h p (List.mem_reverse.mp hp) (Pod.limits_iff.mp hlimits).2
  rw [limit?, rate?, hnone]
  rfl

/-! ### Without a pod -/

/-- The pod that is removed is the last of its kind only if it is of that kind. -/
theorem find?_removed (h : c.removePod id = (some pod, left)) {kind : Pod → Bool}
    (hkind : kind pod = false) : c.pods.reverse.find? kind = left.pods.reverse.find? kind := by
  rw [removePod, Prod.mk.injEq] at h
  obtain ⟨hfind, rfl⟩ := h
  obtain ⟨p, before, after, hbefore, hp, hpods, herase⟩ :=
    List.exists_of_eraseP (List.mem_of_find?_eq_some hfind) (List.find?_some hfind)
  have hpod : p = pod := by
    have hnone : before.find? (·.id == id) = none := List.find?_eq_none.mpr hbefore
    rw [hpods, List.find?_append, hnone, Option.none_or, List.find?_cons, hp] at hfind
    exact Option.some_inj.mp hfind
  rw [hpod] at hpods
  rw [hpods] at herase ⊢
  rw [herase]
  simp only [List.reverse_append, List.reverse_cons, List.find?_append, hkind, List.append_assoc,
    List.find?_singleton]
  rfl

theorem entryAt?_removed (h : c.removePod id = (some pod, left)) {key : AddressKey}
    (howns : pod.owns key = false) : c.entryAt? key = left.entryAt? key := by
  rw [entryAt?, entryAt?, find?_removed h howns]

theorem limit?_removed (h : c.removePod id = (some pod, left)) {e : EntityId}
    (hlimits : pod.limits e = false) (d : Direction) : c.limit? d e = left.limit? d e := by
  rw [limit?, limit?, rate?, rate?, find?_removed h hlimits]

/-! ## The two ways

Both shapers are described by their look-ups, one from the configuration with the pod and the other from the
one without.  For an address that is not the pod's, or an entity that is not, leaving the pod out changes
nothing of what the configuration says (`find?_removed`), so they agree there anyway.  What remains to be
compared are the addresses of the pod and its entity, and these are the two conditions, which are about
configurations alone (`forgotten_eq_iff`, `lifted_eq_iff`).  The lists are equal if and only if the look-ups
are, which is where it is needed that both shapers mirror something. -/

/-- It makes no difference to forget the addresses of a pod that no pod that is left has, and only these. -/
theorem forgotten_eq_iff : (∀ key, (if pod.owns key then none else left.entryAt? key) = left.entryAt? key) ↔
    ∀ p ∈ left.pods, ¬ pod.SharesAddress p := by
  constructor
  · rintro hsame p hp ⟨key, howns, hshared⟩
    have hnone := hsame key
    rw [if_pos howns, eq_comm, entryAt?_eq_none_iff] at hnone
    rw [hnone p hp] at hshared
    cases hshared
  · intro hshares key
    split
    · rename_i howns
      rw [eq_comm, entryAt?_eq_none_iff]
      exact fun p hp => Bool.eq_false_iff.mpr fun hshared => hshares p hp ⟨key, howns, hshared⟩
    · rfl

/-- The limits of other entities are the same without the pod. -/
theorem limit?_removed_of_ne (h : c.removePod id = (some pod, left)) {e : EntityId} (he : e ≠ pod.entity)
    (d : Direction) : c.limit? d e = left.limit? d e :=
  limit?_removed h (Bool.eq_false_iff.mpr fun hlimits => he (Pod.limits_iff.mp hlimits).2.symm) d

/-- A limit is lifted if nobody is left for whom it is, and otherwise it has to be the same without the pod. -/
theorem lifted_eq_iff (h : c.removePod id = (some pod, left)) :
    (∀ d e, (if e = pod.entity ∧ ∀ p ∈ left.pods, p.entity ≠ pod.entity then none else c.limit? d e)
        = left.limit? d e) ↔
      (∀ p ∈ left.pods, p.entity ≠ pod.entity) ∨
        ∀ d, c.limit? d pod.entity = left.limit? d pod.entity := by
  by_cases hnamed : ∀ p ∈ left.pods, p.entity ≠ pod.entity
  · refine iff_of_true (fun d e => ?_) (.inl hnamed)
    by_cases he : e = pod.entity
    · rw [if_pos ⟨he, hnamed⟩, he, limit?_eq_none hnamed]
    · rw [if_neg fun hown => he hown.1, limit?_removed_of_ne h he]
  · rw [or_iff_right hnamed]
    simp only [hnamed, and_false, if_false]
    refine ⟨fun hsame d => hsame d pod.entity, fun hlimit d e => ?_⟩
    by_cases he : e = pod.entity
    · rw [he, hlimit]
    · exact limit?_removed_of_ne h he d

/-- **When a teardown agrees with a new start.**  A pod that was loaded can be torn down, whether or not the
configuration without it can be loaded.  If it can, the addresses of other pods and the limits of other entities
are then what they are without the pod.  All addresses are if the pod shares none of its own with a pod that is
left, and only then; and all limits are if no pod that is left names its entity, or if the pod makes no
difference to the limits of its entity, and only then. -/
theorem teardown_agrees_iff (h : c.load.1 = .ok s) (hremove : c.removePod id = (some pod, left)) :
    ∃ torn notes, (Control.tearDown pod left).run.run ⟨s, #[]⟩ = (.ok (), ⟨torn, notes⟩) ∧
      ∀ s', left.load.1 = .ok s' →
        (∀ key, torn.directory.get? key = if pod.owns key then none else s'.directory.get? key) ∧
        (∀ d e, e ≠ pod.entity → torn.rate? d e = s'.rate? d e) ∧
        (torn.pods = s'.pods ↔ ∀ p ∈ left.pods, ¬ pod.SharesAddress p) ∧
        (torn.entityRates = s'.entityRates ↔
          (∀ p ∈ left.pods, p.entity ≠ pod.entity) ∨
            ∀ d, c.limit? d pod.entity = left.limit? d pod.entity) := by
  obtain ⟨capacity, m, hm, hsound⟩ := (reachable_of_load h).mirrors
  obtain ⟨torn, notes, m₁, hrun, hm₁, hsound₁, hget, hrate⟩ := Control.run_tearDown hm hsound pod left
  refine ⟨torn, notes, hrun, fun s' h' => ?_⟩
  obtain ⟨capacity', m', hm', hsound'⟩ := (reachable_of_load h').mirrors
  have haddress : ∀ key, torn.directory.get? key = if pod.owns key then none else left.entryAt? key := by
    intro key
    rw [hget, get?_of_load h]
    by_cases howns : pod.owns key = true
    · rw [if_pos howns, if_pos howns]
    · rw [if_neg howns, if_neg howns, entryAt?_removed hremove (Bool.eq_false_iff.mpr howns)]
  simp only [rate?_of_load h] at hrate
  refine ⟨fun key => ?_, fun d e he => ?_, ?_, ?_⟩
  · rw [haddress, get?_of_load h']
  · rw [hrate, if_neg fun hown => he hown.1, rate?_of_load h', limit?_removed_of_ne hremove he]
  · rw [hm₁.pods_eq_iff hm']
    simp only [haddress, get?_of_load h']
    exact forgotten_eq_iff
  · rw [hm₁.entityRates_eq_iff hm' hsound₁ hsound']
    simp only [hrate, rate?_of_load h']
    exact lifted_eq_iff hremove

end Config

/-! ## Cases

Of two pods the second one goes away.  In one configuration it shares its address and its entity with the
first one, and in the other one it shares nothing. -/

namespace PairOfPods

/-- A pod with an address, of an entity that is limited in what it receives. -/
def pod (id : String) (v4 : BitVec 32) (entity : EntityId) (receiveRate : UInt64) : Pod :=
  { Pod.blank with id, v4 := some v4, entity, receiveRate }

def first : Pod := pod "a" 0x0A000001 1 2000000

def double : Pod := pod "b" 0x0A000001 1 5000000

def stranger : Pod := pod "b" 0x0A000002 2 5000000

/-- There is room for two pods. -/
def config (pods : List Pod) : Config :=
  ⟨.const .unset, pods, { ShapingOptions.standard with maxEntries := 2 }⟩

theorem exists_load {pods : List Pod} (h : ∀ pod ∈ pods, pod.Complete) (hfits : (config pods).Fits 2) :
    ∃ s, (config pods).load.1 = .ok s := by
  have hcapacity : OpenTable.checkCapacity 2 = .ok () := rfl
  have hunset : BandwidthPlan.unset.withDefaults.check = .ok () := rfl
  exact Config.exists_load hcapacity ⟨fun d => by cases d <;> exact hunset, h⟩ hfits

theorem exists_load_first : ∃ s, (config [first]).load.1 = .ok s :=
  exists_load (by decide) ⟨by decide, fun d => by cases d <;> decide⟩

theorem exists_load_double : ∃ s, (config [first, double]).load.1 = .ok s :=
  exists_load (by decide) ⟨by decide, fun d => by cases d <;> decide⟩

theorem exists_load_stranger : ∃ s, (config [first, stranger]).load.1 = .ok s :=
  exists_load (by decide) ⟨by decide, fun d => by cases d <;> decide⟩

theorem not_sharesAddress : ¬ stranger.SharesAddress first := by
  rintro ⟨key, hstranger, hfirst⟩
  obtain ⟨-, a, ha, rfl⟩ := Pod.owns_iff.mp hstranger
  obtain ⟨-, a', ha', hkey⟩ := Pod.owns_iff.mp hfirst
  rw [List.mem_singleton.mp ha, List.mem_singleton.mp ha'] at hkey
  exact absurd hkey (by decide)

end PairOfPods

section

open PairOfPods

/-- **A teardown is not a new start.**  The address is gone with the pod that goes away, though the other pod
has it too; and the limit of the entity stays the one that the pod set. -/
theorem Config.teardown_is_no_new_start :
    ¬ (∀ (c left : Config) (id : String) (pod : Pod) (s s' torn : Shaper) (notes : Array Note),
        c.load.1 = .ok s → c.removePod id = (some pod, left) → left.load.1 = .ok s' →
        (Control.tearDown pod left).run.run ⟨s, #[]⟩ = (.ok (), ⟨torn, notes⟩) →
        torn.pods = s'.pods) ∧
      ¬ ∀ (c left : Config) (id : String) (pod : Pod) (s s' torn : Shaper) (notes : Array Note),
        c.load.1 = .ok s → c.removePod id = (some pod, left) → left.load.1 = .ok s' →
        (Control.tearDown pod left).run.run ⟨s, #[]⟩ = (.ok (), ⟨torn, notes⟩) →
        torn.entityRates = s'.entityRates := by
  obtain ⟨s, hs⟩ := exists_load_double
  obtain ⟨s', hs'⟩ := exists_load_first
  obtain ⟨capacity, m, hm, hsound⟩ := (reachable_of_load hs).mirrors
  obtain ⟨capacity', m', hm', hsound'⟩ := (reachable_of_load hs').mirrors
  obtain ⟨torn, notes, m₁, hrun, hm₁, hsound₁, hget, hrate⟩ :=
    Control.run_tearDown hm hsound double (config [first])
  have hremove : (config [first, double]).removePod "b" = (some double, config [first]) := rfl
  have hpods : torn.pods ≠ s'.pods := fun heq => by
    have hsame := (hm₁.pods_eq_iff hm').mp heq (Address.v4 0x0A000001).key
    rw [hget, if_pos (by decide), get?_of_load hs'] at hsame
    exact absurd hsame (by decide)
  have hrates : torn.entityRates ≠ s'.entityRates := fun heq => by
    have hsame := (hm₁.entityRates_eq_iff hm' hsound₁ hsound').mp heq .ingress 1
    rw [hrate, rate?_of_load hs, rate?_of_load hs'] at hsame
    exact absurd hsame (by decide)
  exact ⟨fun h => hpods (h _ _ _ _ _ _ _ _ hs hremove hs' hrun),
    fun h => hrates (h _ _ _ _ _ _ _ _ hs hremove hs' hrun)⟩

/-- A pod that shares nothing leaves nothing behind. -/
theorem Config.teardown_agrees_iff_of_stranger :
    ∃ s s' torn notes, (config [first, stranger]).load.1 = .ok s ∧ (config [first]).load.1 = .ok s' ∧
      (Control.tearDown stranger (config [first])).run.run ⟨s, #[]⟩ = (.ok (), ⟨torn, notes⟩) ∧
      torn.pods = s'.pods ∧ torn.entityRates = s'.entityRates := by
  obtain ⟨s, hs⟩ := exists_load_stranger
  obtain ⟨s', hs'⟩ := exists_load_first
  have hremove : (config [first, stranger]).removePod "b" = (some stranger, config [first]) := rfl
  obtain ⟨torn, notes, hrun, hagrees⟩ := teardown_agrees_iff hs hremove
  obtain ⟨-, -, hpods, hrates⟩ := hagrees s' hs'
  refine ⟨s, s', torn, notes, hs, hs', hrun, hpods.mpr fun p hp => ?_, hrates.mpr (.inl (by decide))⟩
  rw [List.mem_singleton.mp hp]
  exact not_sharesAddress

end

end Shaping
