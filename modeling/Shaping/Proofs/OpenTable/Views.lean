import Shaping.Proofs.OpenTable.Refinement
import Mathlib.Data.Finset.Sort

/-!
# Tables of which only a part is looked at

An entry of a table may hold more than its reader cares for.  `OpenTable.Shows view t m` says that the
table `t` shows the map `m` to a reader who looks at each value through `view`.  What is written in two
steps, by claiming an entry and changing it, is one step for the map (`BoundedMap.put`), which fails where
the claim is refused (`Shows.put_of_refused`, `Shows.put_of_claimed`); and what changes in an entry but
not in its view does not change the map at all (`Shows.visit`).

A table lists its entries in the order of its slots.  Sorted by their keys, they are the entries of the map
that is shown (`Shows.listing`).

`Represents` would be no use here, for it wants the whole value.  To read off it what a part of the value
does would mean to have another map for the other parts and to change that along with everything, although
nobody looks at it.  With the view in the statement, the map has what is read and nothing besides.
-/

set_option autoImplicit false

namespace Shaping

/-! ## Maps with few keys

`put` can fail and does not say whether the key is new.  What is needed of it is when it fails, what it
leaves otherwise, and that a map with room for so many keys never has more. -/

namespace BoundedMap

variable {κ ν : Type} [DecidableEq κ]

/-- Give a key a value in a map that may have `capacity` keys. -/
def put (capacity : Nat) (m : BoundedMap κ ν) (k : κ) (v : ν) : Except TableFull (BoundedMap κ ν) :=
  if k ∉ m.keys ∧ m.keys.card = capacity then .error ⟨capacity⟩ else .ok (m.insert k v)

/-- **Only a new key is refused, and only by a full map.** -/
theorem put_eq_error_iff {capacity : Nat} {m : BoundedMap κ ν} {k : κ} {v : ν} {full : TableFull} :
    m.put capacity k v = .error full ↔
      k ∉ m.keys ∧ m.keys.card = capacity ∧ full = ⟨capacity⟩ := by
  rw [put]
  split
  · rename_i h
    simp [h, eq_comm]
  · rename_i h
    refine iff_of_false (by simp) fun hfull => h ⟨hfull.1, hfull.2.1⟩

theorem put_eq_ok {capacity : Nat} {m m' : BoundedMap κ ν} {k : κ} {v : ν}
    (h : m.put capacity k v = .ok m') :
    m' = m.insert k v ∧ (k ∉ m.keys → m.keys.card ≠ capacity) := by
  rw [put] at h
  split at h
  · cases h
  · rename_i hroom
    cases h
    exact ⟨rfl, fun hk hfull => hroom ⟨hk, hfull⟩⟩

theorem mem_keys_iff {m : BoundedMap κ ν} {k : κ} : k ∈ m.keys ↔ m.lookup k ≠ none := by
  rw [Finmap.mem_keys, Ne, Finmap.lookup_eq_none, not_not]

theorem lookup_insert (m : BoundedMap κ ν) (k j : κ) (v : ν) :
    (m.insert k v).lookup j = if j = k then some v else m.lookup j := by
  split
  · rename_i h
    rw [h, Finmap.lookup_insert]
  · rename_i h
    rw [Finmap.lookup_insert_of_ne _ h]

theorem lookup_erase (m : BoundedMap κ ν) (k j : κ) :
    (m.erase k).lookup j = if j = k then none else m.lookup j := by
  split
  · rename_i h
    rw [h, Finmap.lookup_erase]
  · rename_i h
    rw [Finmap.lookup_erase_ne h]

/-- What a key has already can be put again. -/
theorem put_of_lookup {capacity : Nat} {m : BoundedMap κ ν} {k : κ} {v : ν} (h : m.lookup k = some v) :
    m.put capacity k v = .ok m := by
  have hk : k ∈ m.keys := mem_keys_iff.mpr (by simp [h])
  rw [put, if_neg fun hfull => hfull.1 hk]
  refine congrArg Except.ok (Finmap.ext_lookup fun j => ?_)
  rw [lookup_insert]
  split
  · rename_i hj
    rw [hj, h]
  · rfl

/-- A map that is not too large does not become so. -/
theorem card_put_le {capacity : Nat} {m m' : BoundedMap κ ν} {k : κ} {v : ν}
    (hm : m.keys.card ≤ capacity) (h : m.put capacity k v = .ok m') : m'.keys.card ≤ capacity := by
  obtain ⟨rfl, hroom⟩ := put_eq_ok h
  cases hk : m.lookup k with
  | some u => rwa [keys_insert_of_some m v hk]
  | none =>
    have hne := hroom fun hmem => mem_keys_iff.mp hmem hk
    rw [keys_card_insert m v hk]
    omega

theorem card_erase_le {capacity : Nat} {m : BoundedMap κ ν} (hm : m.keys.card ≤ capacity) (k : κ) :
    (m.erase k).keys.card ≤ capacity := by
  rw [Finmap.keys_erase]
  exact Nat.le_trans Finset.card_erase_le hm

end BoundedMap

/-! ## Lists in order -/

section Order

variable {κ : Type} [LE κ] [Std.IsLinearOrder κ]

/-- Two lists in order that name the same keys, each of them once, are equal. -/
theorem eq_of_ascending {xs ys : List κ} (hxs : xs.Pairwise (· ≤ ·)) (hys : ys.Pairwise (· ≤ ·))
    (hxs' : xs.Nodup) (hys' : ys.Nodup) (h : ∀ k, k ∈ xs ↔ k ∈ ys) : xs = ys :=
  ((List.perm_ext_iff_of_nodup hxs' hys').mpr h).eq_of_pairwise
    (fun _ _ _ _ => Std.le_antisymm) hxs hys

theorem ascending_mergeSort [DecidableLE κ] (xs : List κ) :
    (xs.mergeSort fun a b => a ≤ b).Pairwise (· ≤ ·) := by
  have hsorted := @List.pairwise_mergeSort κ (fun a b => decide (a ≤ b))
    (fun a b c hab hbc => decide_eq_true (Std.le_trans (of_decide_eq_true hab) (of_decide_eq_true hbc)))
    (fun a b => by simpa using Std.le_total) xs
  exact hsorted.imp of_decide_eq_true

end Order

/-! ## Tables and what they show

There is no clause about the number of entries.  It is a consequence (`Shows.size_eq`): the listing names
the keys of the map, each of them once, and it is as long as the table is large. -/

namespace OpenTable

variable {κ ν μ β : Type} [DecidableEq κ] [Hashable κ]

/-- Seen through `view`, a table with room for `capacity` entries is a map. -/
structure Shows (capacity : Nat) (view : ν → μ) (t : OpenTable κ ν) (m : BoundedMap κ μ) : Prop where
  wellFormed : WellFormed t
  room : t.capacity = capacity
  lookup : ∀ k, (t.get? k).map view = m.lookup k

theorem shows_empty (capacity : Nat) (view : ν → μ) :
    Shows (max capacity 1) view (empty capacity : OpenTable κ ν) ∅ where
  wellFormed := wellFormed_empty capacity
  room := rfl
  lookup k := by rw [get?_empty, Finmap.lookup_empty, Option.map_none]

namespace Shows

variable {capacity : Nat} {view : ν → μ} {t : OpenTable κ ν} {m : BoundedMap κ μ}

theorem mem_keys (h : Shows capacity view t m) (k : κ) : k ∈ m.keys ↔ t.get? k ≠ none := by
  rw [BoundedMap.mem_keys_iff, ← h.lookup, Ne, Option.map_eq_none_iff]

/-- The keys that are listed are those of the map. -/
theorem mem_map_fst (h : Shows capacity view t m) (k : κ) :
    k ∈ t.toList.map Prod.fst ↔ k ∈ m.keys := by
  rw [h.mem_keys, Ne, Option.eq_none_iff_forall_ne_some, not_forall_not, List.mem_map]
  constructor
  · rintro ⟨⟨k', v⟩, hmem, rfl⟩
    exact ⟨v, h.wellFormed.get?_eq_some_iff.mpr (mem_toList.mp hmem)⟩
  · rintro ⟨v, hv⟩
    exact ⟨(k, v), mem_toList.mpr (h.wellFormed.get?_eq_some_iff.mp hv), rfl⟩

theorem size_eq (h : Shows capacity view t m) : t.size = m.keys.card := by
  have hkeys : (t.toList.map Prod.fst).toFinset = m.keys := by
    ext k
    rw [List.mem_toFinset, h.mem_map_fst]
  rw [← hkeys, List.toFinset_card_of_nodup h.wellFormed.nodup_toList, List.length_map, length_toList,
    h.wellFormed.counted]

/-! ## Changes -/

/-- What changes in an entry but not in its view does not show. -/
theorem visit (h : Shows capacity view t m) (k : κ) {f : ν → β × ν}
    (hf : ∀ v, view (f v).2 = view v) : Shows capacity view (t.visit k f).2 m := by
  refine ⟨h.wellFormed.visit k f, ?_, fun j => ?_⟩
  · rcases t.visit_eq k f with ⟨-, heq⟩ | ⟨i, v, -, -, heq⟩ <;> rw [heq] <;> exact h.room
  · rw [h.wellFormed.get?_visit, ← h.lookup]
    split
    · rename_i hj
      rw [hj, Option.map_map]
      exact congrArg (fun g => (t.get? k).map g) (funext hf)
    · rfl

theorem erase (h : Shows capacity view t m) (k : κ) :
    Shows capacity view (t.erase k).2 (m.erase k) := by
  refine ⟨h.wellFormed.erase k, ?_, fun j => ?_⟩
  · cases hv : t.get? k with
    | none =>
      rw [h.wellFormed.erase_of_none hv]
      exact h.room
    | some v =>
      obtain ⟨t', ht', -, -, hcap, -⟩ := h.wellFormed.erase_of_some hv
      rw [ht']
      exact hcap.trans h.room
  · rw [h.wellFormed.get?_erase, BoundedMap.lookup_erase, ← h.lookup]
    split <;> rfl

/-- A claim is refused where the map is full for its key. -/
theorem put_of_refused (h : Shows capacity view t m) {k : κ} {fresh : ν} {full : TableFull}
    (hc : t.claim k fresh = .error full) (u : μ) : m.put capacity k u = .error full := by
  obtain ⟨hnone, hsize, rfl⟩ := h.wellFormed.claim_eq_error_iff.mp hc
  refine BoundedMap.put_eq_error_iff.mpr ⟨fun hk => (h.mem_keys k).mp hk hnone, ?_, ?_⟩
  · rw [← h.size_eq, hsize, h.room]
  · rw [h.room]

/-- A claimed entry that is then changed shows as a key with a new value. -/
theorem put_of_claimed (h : Shows capacity view t m) {k : κ} {fresh : ν} {created : Bool}
    {t' : OpenTable κ ν} (hc : t.claim k fresh = .ok (created, t')) {f : ν → ν} {u : μ}
    (hf : ∀ v, view (f v) = u) :
    m.put capacity k u = .ok (m.insert k u) ∧ Shows capacity view (t'.modify k f) (m.insert k u) := by
  obtain ⟨hwell, -, hcap, -, hget⟩ := h.wellFormed.claim_eq_ok hc
  refine ⟨?_, hwell.visit k _, ?_, fun j => ?_⟩
  · rw [BoundedMap.put, if_neg]
    rintro ⟨hk, hcard⟩
    have hnone : t.get? k = none := by
      by_contra hne
      exact hk ((h.mem_keys k).mpr hne)
    rw [h.wellFormed.claim_of_full hnone (by rw [h.size_eq, hcard, h.room])] at hc
    cases hc
  · rw [modify]
    rcases t'.visit_eq k fun v => ((), f v) with ⟨-, heq⟩ | ⟨i, v, -, -, heq⟩ <;> rw [heq] <;>
      exact hcap.trans h.room
  · rw [modify, hwell.get?_visit, BoundedMap.lookup_insert, hget, hget]
    split
    · rw [if_pos rfl, Option.map_some, Option.map_some, hf]
    · exact h.lookup j

end Shows

/-! ## Listings

Two lists in order that have the same elements, each of them once, are the same list.  So it is not asked
where sorting puts an entry, neither in the table nor in the map, but only which keys are listed; the values
then come from look-ups. -/

section Listings

variable [LE κ] [DecidableLE κ] [Std.IsLinearOrder κ]

/-- **The entries of a table in the order of their keys are those of the map that it shows.** -/
theorem Shows.listing {capacity : Nat} {view : ν → μ} {t : OpenTable κ ν} {m : BoundedMap κ μ}
    (h : Shows capacity view t m) (row : κ → μ → β) :
    (t.toList.mergeSort fun a b => a.1 ≤ b.1).map (fun entry => row entry.1 (view entry.2))
      = (m.keys.sort (· ≤ ·)).filterMap fun k => (m.lookup k).map (row k) := by
  have hperm := List.mergeSort_perm t.toList fun a b => a.1 ≤ b.1
  have hkeys : (t.toList.mergeSort fun a b => a.1 ≤ b.1).map Prod.fst = m.keys.sort (· ≤ ·) := by
    refine eq_of_ascending ?_ (m.keys.pairwise_sort _) ?_ (m.keys.sort_nodup _) fun k => ?_
    · rw [List.map_mergeSort (s := fun a b : κ => decide (a ≤ b)) fun _ _ _ _ => rfl]
      exact ascending_mergeSort _
    · exact (hperm.map Prod.fst).nodup_iff.mpr h.wellFormed.nodup_toList
    · rw [(hperm.map Prod.fst).mem_iff, h.mem_map_fst, Finset.mem_sort]
  rw [← hkeys, List.filterMap_map, ← List.filterMap_eq_map]
  refine List.filterMap_congr fun entry hentry => ?_
  have hget : t.get? entry.1 = some entry.2 :=
    h.wellFormed.get?_eq_some_iff.mpr (mem_toList.mp (hperm.mem_iff.mp hentry))
  simp only [Function.comp, ← h.lookup, hget, Option.map_some]

end Listings

end OpenTable

end Shaping
