import Shaping.Proofs.Control.Reading

/-!
# Listings that are equal

Nothing of the maps that the control plane keeps is lost when they are listed.  A line of the directory says
which key it is about, because the address that is shown is filed under that key (`AddressKey.key_address`).
In the list of limits a zero stands for no limit, and no limit is ever zero.

So two shapers list the same pods if and only if each address has the same entry in both
(`Mirrors.pods_eq_iff`), and the same limits if and only if each entity is limited in the same way
(`Mirrors.entityRates_eq_iff`).  This holds of all shapers that can come about, since each of them mirrors a
registry that is sound (`Shaper.Reachable.mirrors`).
-/

set_option autoImplicit false

namespace Shaping

/-! ## Listings of a registry -/

namespace Registry

variable {capacity capacity' : Nat} {m m' : Registry}

/-- What is known of an address is a line of the listing. -/
theorem lookup_eq_some_iff {key : AddressKey} {entry : PodEntry} :
    m.addresses.lookup key = some entry ↔ ⟨key.address, entry.entity, entry.classId⟩ ∈ m.pods := by
  simp only [pods, List.mem_filterMap, Finset.mem_sort, Option.map_eq_some_iff]
  constructor
  · intro hlook
    exact ⟨key, BoundedMap.mem_keys_iff.mpr (by simp [hlook]), entry, hlook, rfl⟩
  · rintro ⟨key', -, entry', hlook, hrow⟩
    rw [PodInfo.mk.injEq] at hrow
    have hkey : key' = key := by
      rw [← AddressKey.key_address key', hrow.1, AddressKey.key_address]
    have hentry : entry' = entry := by
      cases entry'
      cases entry
      exact congrArg₂ PodEntry.mk hrow.2.1 hrow.2.2
    rw [← hkey, hlook, hentry]

theorem pods_eq_iff : m.pods = m'.pods ↔ ∀ key, m.addresses.lookup key = m'.addresses.lookup key := by
  constructor
  · intro h key
    refine Option.ext fun entry => ?_
    rw [lookup_eq_some_iff, lookup_eq_some_iff, h]
  · intro h
    rw [pods, pods, Finmap.ext_lookup h]

/-- An entity with a limit has a line in the listing, and the line says so. -/
theorem lookup_of_entityRates_eq (hm : m.Sound capacity) (h : m.entityRates = m'.entityRates)
    {d : Direction} {e : EntityId} {rate : UInt64} (hlook : (m.rates.get d).lookup e = some rate) :
    (m'.rates.get d).lookup e = some rate := by
  have hkey : e ∈ (m.rates.get d).keys := BoundedMap.mem_keys_iff.mpr (by simp [hlook])
  have hlisted : e ∈ m.limitedEntities := by
    rw [limitedEntities, Finset.mem_sort, Finset.mem_union]
    cases d with
    | ingress => exact .inl hkey
    | egress => exact .inr hkey
  have hline : (⟨e, (m.rates.ingress.lookup e).getD 0, (m.rates.egress.lookup e).getD 0⟩ : EntityRate)
      ∈ m'.entityRates := h ▸ List.mem_map_of_mem hlisted
  obtain ⟨e', -, heq⟩ := List.mem_map.mp hline
  rw [EntityRate.mk.injEq] at heq
  obtain ⟨rfl, hingress, hegress⟩ := heq
  have hsame : ((m'.rates.get d).lookup e').getD 0 = rate := by
    have hshown : ((m'.rates.get d).lookup e').getD 0 = ((m.rates.get d).lookup e').getD 0 := by
      cases d with
      | ingress => exact hingress
      | egress => exact hegress
    rw [hshown, hlook, Option.getD_some]
  have hne : rate ≠ 0 := fun hzero => hm.limited d e' (hzero ▸ hlook)
  cases hother : (m'.rates.get d).lookup e' with
  | none =>
    rw [hother] at hsame
    exact absurd hsame.symm hne
  | some rate' =>
    rw [hother] at hsame
    exact congrArg some hsame

theorem entityRates_eq_iff (hm : m.Sound capacity) (hm' : m'.Sound capacity') :
    m.entityRates = m'.entityRates ↔
      ∀ d e, (m.rates.get d).lookup e = (m'.rates.get d).lookup e := by
  constructor
  · intro h d e
    exact Option.ext fun rate =>
      ⟨lookup_of_entityRates_eq hm h, lookup_of_entityRates_eq hm' h.symm⟩
  · intro h
    have hingress : m.rates.ingress = m'.rates.ingress := Finmap.ext_lookup (h .ingress)
    have hegress : m.rates.egress = m'.rates.egress := Finmap.ext_lookup (h .egress)
    rw [entityRates, entityRates, limitedEntities, limitedEntities, hingress, hegress]

end Registry

/-! ## Listings of a shaper -/

namespace Mirrors

variable {capacity capacity' : Nat} {s s' : Shaper} {m m' : Registry}

theorem get?_eq (h : Mirrors capacity s m) (key : AddressKey) :
    s.directory.get? key = m.addresses.lookup key := by
  rw [← h.directory.lookup, Option.map_id_apply]

theorem rate?_eq (h : Mirrors capacity s m) (d : Direction) (e : EntityId) :
    s.rate? d e = (m.rates.get d).lookup e := h.rate_eq d e

/-- **The same pods are listed if each address has the same entry, and only then.** -/
theorem pods_eq_iff (h : Mirrors capacity s m) (h' : Mirrors capacity' s' m') :
    s.pods = s'.pods ↔ ∀ key, s.directory.get? key = s'.directory.get? key := by
  rw [h.pods_eq, h'.pods_eq, Registry.pods_eq_iff]
  simp only [h.get?_eq, h'.get?_eq]

/-- **The same limits are listed if each entity is limited in the same way, and only then.** -/
theorem entityRates_eq_iff (h : Mirrors capacity s m) (h' : Mirrors capacity' s' m')
    (hm : m.Sound capacity) (hm' : m'.Sound capacity') :
    s.entityRates = s'.entityRates ↔ ∀ d e, s.rate? d e = s'.rate? d e := by
  rw [h.entityRates_eq, h'.entityRates_eq, Registry.entityRates_eq_iff hm hm']
  simp only [h.rate?_eq, h'.rate?_eq]

end Mirrors

/-- **A shaper that can come about mirrors a registry.** -/
theorem Shaper.Reachable.mirrors {s : Shaper} (h : s.Reachable) :
    ∃ capacity m, Mirrors capacity s m ∧ m.Sound capacity := by
  induction h with
  | empty n => exact ⟨max n 1, .blank, mirrors_empty n, Registry.sound_blank _⟩
  | step u e _ ih =>
    obtain ⟨capacity, m, hmirrors, hsound⟩ := ih
    cases e with
    | packet p now => exact ⟨capacity, m, hmirrors.packet u p now, hsound⟩
    | call c => exact ⟨capacity, _, (hmirrors.call c).2, Edit.KeepsSound.perform c m hsound⟩

end Shaping
