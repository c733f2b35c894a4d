import Shaping.Proofs.OpenTable.Paths

/-!
# The entries of an open table

What the operations of a table do, said of the map `OpenTable.get?` alone.  Every table that comes out
of the operations is `WellFormed`, and for such a table a look-up finds exactly the entries that are in
its slots (`get?_eq_some_iff`).  So each operation has an equation for `get?`, in which neither hashes nor
slots occur:

* `claim_eq_ok`: claiming gives a key its fresh value if it has none, and touches no other key;
* `get?_erase`: erasing takes the value of one key away;
* `get?_visit`: visiting replaces the value of one key.

The answers are as simple: `claim` refuses only a new key, and only in a full table
(`claim_eq_error_iff`).

Where the entries are in the slots does not show in `get?`, but two tables that have the same entries in the
same places are the same table (`eq_of_map_eq`).

A property of tables that every operation keeps is `Kept`; being well formed is one
(`kept_wellFormed`).

It would not do to compare `get?` before and after an operation by following both look-ups.  They need not
take the same path: a claim may make the longest distance longer, and a sweep may make a slot vacant at
which the new look-up would stop.  So both sides are taken to the slots first (`get?_congr`), where the
comparison is one of two arrays that differ in the slots that were written, and the order in which a look-up
passes over them is no longer there.
-/

set_option autoImplicit false

namespace Shaping

namespace OpenTable

variable {κ ν μ β : Type}

theorem two_mul_le_slotCount (capacity : Nat) : 2 * capacity ≤ slotCount capacity := by
  have := Nat.lt_log2_self (n := 2 * capacity - 1)
  rw [slotCount, Nat.one_shiftLeft]
  omega

variable [DecidableEq κ] [Hashable κ]

/-- What every table made by the operations satisfies. -/
structure WellFormed (t : OpenTable κ ν) : Prop where
  /-- Look-ups find their way. -/
  tidy : Tidy t.reach t.slots
  /-- There are more slots than there may be entries. -/
  roomy : t.capacity < t.slots.size
  /-- The entries are counted. -/
  counted : liveCount t.slots = t.size
  /-- There are not more of them than there may be. -/
  bounded : t.size ≤ t.capacity

omit [DecidableEq κ] in
theorem wellFormed_empty (capacity : Nat) : WellFormed (empty capacity : OpenTable κ ν) where
  tidy := tidy_replicate _
  roomy := by
    have := two_mul_le_slotCount (max capacity 1)
    simp only [empty, Array.size_replicate]
    omega
  counted := by
    simp [empty, liveCount, Array.countP_replicate]
  bounded := Nat.zero_le _

/-! ## Looking up

A look-up that finds an entry of the key may have found another one than that which is known to be in the
slots.  The two are the same because a key has one entry only, which is why uniqueness is part of `Tidy` and
not a consequence drawn from it later. -/

theorem WellFormed.find?_eq_some_iff {t : OpenTable κ ν} (h : WellFormed t) {key : κ} {i : Nat} :
    t.find? key = some i ↔ ∃ v, t.slots[i]? = some (.live key v) := by
  refine ⟨live_of_search, fun ⟨v, hi⟩ => ?_⟩
  obtain ⟨d, hd, rfl, hway⟩ := h.tidy.path i key v hi
  obtain ⟨j, hj⟩ := exists_search (n := t.reach + 1) (by omega) hway hi
  obtain ⟨w, hw⟩ := live_of_search hj
  rwa [h.tidy.unique _ _ key v w hi hw]

/-- **A look-up finds exactly what is in the slots.** -/
theorem WellFormed.get?_eq_some_iff {t : OpenTable κ ν} (h : WellFormed t) {key : κ} {v : ν} :
    t.get? key = some v ↔ Holds t.slots key v := by
  rw [get?]
  split
  · rename_i hnone
    refine iff_of_false (by simp) fun ⟨i, hi⟩ => ?_
    rw [h.find?_eq_some_iff.mpr ⟨v, hi⟩] at hnone
    cases hnone
  · rename_i i hi
    obtain ⟨w, hw⟩ := h.find?_eq_some_iff.mp hi
    rw [hw]
    simp only [Option.some_inj]
    constructor
    · rintro rfl; exact ⟨i, hw⟩
    · rintro ⟨j, hj⟩
      have hij := h.tidy.unique i j key w v hw hj
      rw [hij, hj] at hw
      cases hw; rfl

theorem WellFormed.get?_eq_none_iff {t : OpenTable κ ν} (h : WellFormed t) {key : κ} :
    t.get? key = none ↔ ∀ v, ¬ Holds t.slots key v := by
  rw [Option.eq_none_iff_forall_ne_some]
  exact forall_congr' fun v => not_congr h.get?_eq_some_iff

theorem WellFormed.contains_eq {t : OpenTable κ ν} (h : WellFormed t) (key : κ) :
    t.contains key = (t.get? key).isSome := by
  rw [contains, get?]
  cases hf : t.find? key with
  | none => rfl
  | some i =>
    obtain ⟨v, hv⟩ := h.find?_eq_some_iff.mp hf
    simp [hv]

/-- Two well-formed tables with the same entries are the same map. -/
theorem get?_congr {t t' : OpenTable κ ν} (h : WellFormed t) (h' : WellFormed t') {k : κ}
    (hsame : ∀ v, Holds t.slots k v ↔ Holds t'.slots k v) : t.get? k = t'.get? k :=
  Option.ext fun v => by rw [h.get?_eq_some_iff, h'.get?_eq_some_iff, hsame]

omit [DecidableEq κ] [Hashable κ] in
theorem mem_toList {t : OpenTable κ ν} {k : κ} {v : ν} :
    (k, v) ∈ t.toList ↔ Holds t.slots k v := by
  rw [toList, List.mem_filterMap]
  constructor
  · rintro ⟨s, hs, hkv⟩
    obtain ⟨i, hi, rfl⟩ := List.getElem_of_mem hs
    refine ⟨i, ?_⟩
    split at hkv
    · rename_i hlive
      cases hkv
      rw [← Array.getElem?_toList, List.getElem?_eq_getElem hi, hlive]
    · cases hkv
  · rintro ⟨i, hi⟩
    refine ⟨.live k v, ?_, rfl⟩
    rw [Array.mem_toList_iff]
    exact Array.mem_of_getElem? hi

omit [DecidableEq κ] in
/-- A listing names every key once. -/
theorem WellFormed.nodup_toList {t : OpenTable κ ν} (h : WellFormed t) :
    (t.toList.map Prod.fst).Nodup := by
  rw [List.Nodup, List.pairwise_map, toList, List.pairwise_filterMap, List.pairwise_iff_getElem]
  intro i j hi hj hij a ha b hb hab
  split at ha
  · rename_i k v hslot
    split at hb
    · rename_i k' v' hslot'
      cases ha
      cases hb
      have hget : t.slots[i]? = some (.live k v) := by
        rw [← Array.getElem?_toList, List.getElem?_eq_getElem hi, hslot]
      have hget' : t.slots[j]? = some (.live k' v') := by
        rw [← Array.getElem?_toList, List.getElem?_eq_getElem hj, hslot']
      have hkeys : k = k' := hab
      rw [← hkeys] at hget'
      exact Nat.ne_of_lt hij (h.tidy.unique i j k v v' hget hget')
    · cases hb
  · cases ha

omit [DecidableEq κ] [Hashable κ] in
theorem length_toList (t : OpenTable κ ν) : t.toList.length = liveCount t.slots := by
  rw [toList, List.length_filterMap_eq_countP, liveCount, ← Array.countP_toList]
  refine List.countP_congr fun s _ => ?_
  cases s <;> simp

/-! ## Visiting

A visit is two cases (`visit_eq`): no entry, and then nothing happens, or one slot is written with the same
key.  What a visit keeps is read off these cases, here and in everything that is about more than one table. -/

/-- A visit that finds its key replaces the entry in place. -/
theorem visit_eq (t : OpenTable κ ν) (key : κ) (f : ν → β × ν) :
    (t.get? key = none ∧ t.visit key f = (none, t)) ∨
      ∃ i v, t.get? key = some v ∧ t.slots[i]? = some (.live key v) ∧
        t.visit key f = (some (f v).1,
          ⟨t.slots.setIfInBounds i (.live key (f v).2), t.capacity, t.reach, t.size⟩) := by
  cases hf : t.find? key with
  | none =>
    left
    exact ⟨by rw [get?, hf], by rw [visit, hf]⟩
  | some i =>
    right
    obtain ⟨v, hv⟩ := live_of_search hf
    refine ⟨i, v, ?_, hv, ?_⟩
    · rw [get?, hf]
      simp only [hv]
    · rw [visit, hf]
      simp only [hv]

/-- Replacing the value of an entry keeps the invariant of the slots. -/
theorem tidy_replace {reach i : Nat} {slots : Array (Slot κ ν)} {key : κ} {v w : ν}
    (h : Tidy reach slots) (hi : slots[i]? = some (.live key v)) :
    Tidy reach (slots.setIfInBounds i (.live key w)) ∧
      ∀ k u, Holds (slots.setIfInBounds i (.live key w)) k u ↔
        if k = key then u = w else Holds slots k u := by
  have hget := getElem?_replaced hi (.live key w)
  -- where an entry is now, the same key had an entry before
  have hback : ∀ (j : Nat) (k : κ) (u : ν), (slots.setIfInBounds i (.live key w))[j]?
      = some (.live k u) → ∃ u', slots[j]? = some (.live k u') := by
    intro j k u hj
    rw [hget] at hj
    split at hj
    · rename_i hij
      cases hj
      exact ⟨v, hij ▸ hi⟩
    · exact ⟨u, hj⟩
  refine ⟨⟨fun j k u hj => ?_, fun j j' k u u' hj hj' => ?_⟩, fun k u => ?_⟩
  · obtain ⟨u', hu'⟩ := hback j k u hj
    obtain ⟨d, hd, hend, hway⟩ := h.path j k u' hu'
    simp only [home_setIfInBounds, Array.size_setIfInBounds, hget]
    refine ⟨d, hd, hend, fun e he => ?_⟩
    split
    · simp
    · exact hway e he
  · obtain ⟨x, hx⟩ := hback j k u hj
    obtain ⟨x', hx'⟩ := hback j' k u' hj'
    exact h.unique j j' k x x' hx hx'
  · constructor
    · rintro ⟨j, hj⟩
      rw [hget] at hj
      split at hj
      · cases hj
        simp
      · rename_i hij
        rw [if_neg]
        · exact ⟨j, hj⟩
        · rintro rfl
          exact hij (h.unique i j k v u hi hj)
    · split
      · rename_i hk
        rintro rfl
        exact ⟨i, by rw [hget, if_pos rfl, hk]⟩
      · rename_i hk
        rintro ⟨j, hj⟩
        refine ⟨j, ?_⟩
        rw [hget, if_neg]
        · exact hj
        · rintro rfl
          rw [hi] at hj
          cases hj
          exact hk rfl

theorem WellFormed.visit {t : OpenTable κ ν} (h : WellFormed t) (key : κ) (f : ν → β × ν) :
    WellFormed (t.visit key f).2 := by
  rcases t.visit_eq key f with ⟨-, heq⟩ | ⟨i, v, -, hi, heq⟩
  · rw [heq]
    exact h
  · rw [heq]
    refine ⟨(tidy_replace h.tidy hi).1, by simpa using h.roomy, ?_, h.bounded⟩
    have hcount := liveCount_set (r := .live key (f v).2) hi
    simp only [isFree_live, Bool.false_eq_true, if_false, Nat.add_right_cancel_iff] at hcount
    rw [hcount]
    exact h.counted

theorem visit_fst (t : OpenTable κ ν) (key : κ) (f : ν → β × ν) :
    (t.visit key f).1 = (t.get? key).map fun v => (f v).1 := by
  rcases t.visit_eq key f with ⟨hnone, heq⟩ | ⟨i, v, hv, -, heq⟩
  · rw [heq, hnone, Option.map_none]
  · rw [heq, hv, Option.map_some]

/-- Visiting replaces the value of one key. -/
theorem WellFormed.get?_visit {t : OpenTable κ ν} (h : WellFormed t) (key : κ) (f : ν → β × ν)
    (k : κ) : (t.visit key f).2.get? k
      = if k = key then (t.get? key).map fun v => (f v).2 else t.get? k := by
  rcases t.visit_eq key f with ⟨hnone, heq⟩ | ⟨i, v, hv, hi, heq⟩
  · rw [heq, hnone, Option.map_none]
    split
    · rename_i hk; rw [hk, hnone]
    · rfl
  · have hw := h.visit key f
    have hholds := (tidy_replace (w := (f v).2) h.tidy hi).2
    ext u
    rw [hw.get?_eq_some_iff, heq, hholds]
    split
    · rw [hv, Option.map_some, Option.some_inj, eq_comm]
    · rw [h.get?_eq_some_iff]

/-! ## Parts of values

To say that an operation changes nothing but a part of some values, the other part is taken by `map`, and
the two tables are said to be equal after that.  This is stronger than to say that look-ups agree on that
part: it fixes the slots as well.  Where a table has to come out the same as before, slot for slot, the way
is to show that the layout is the same (`map` by a constant) and that look-ups agree, since a layout and the
values of the keys determine a table. -/

omit [DecidableEq κ] [Hashable κ] in
/-- A slot with something made of its value. -/
def mapSlot (g : ν → μ) : Slot κ ν → Slot κ μ
  | .vacant => .vacant
  | .buried => .buried
  | .live k v => .live k (g v)

omit [DecidableEq κ] [Hashable κ] in
/-- The table with something made of every value. -/
def map (g : ν → μ) (t : OpenTable κ ν) : OpenTable κ μ :=
  ⟨t.slots.map (mapSlot g), t.capacity, t.reach, t.size⟩

/-- Visiting leaves the parts of values alone that the visitor leaves alone. -/
theorem map_visit (t : OpenTable κ ν) {key : κ} {f : ν → β × ν} {g : ν → μ}
    (h : ∀ v, t.get? key = some v → g (f v).2 = g v) : (t.visit key f).2.map g = t.map g := by
  rcases t.visit_eq key f with ⟨-, heq⟩ | ⟨i, v, hv, hi, heq⟩
  · rw [heq]
  · have hslots : (t.slots.setIfInBounds i (.live key (f v).2)).map (mapSlot g)
        = t.slots.map (mapSlot g) := by
      refine Array.ext_getElem? fun j => ?_
      rw [Array.getElem?_map, Array.getElem?_map, Array.getElem?_setIfInBounds]
      split
      · rename_i hij
        have hlt := (Array.getElem?_eq_some_iff.mp hi).1
        rw [← hij, if_pos hlt, hi, Option.map_some, Option.map_some, mapSlot, mapSlot, h v hv]
      · rfl
    rw [heq, map, hslots]
    rfl

omit [Hashable κ] in
/-- A search does not look at values. -/
theorem search_map (g : ν → μ) (slots : Array (Slot κ ν)) (key : κ) (place n : Nat) :
    search (slots.map (mapSlot g)) key place n = search slots key place n := by
  induction n generalizing place with
  | zero => rfl
  | succ n ih =>
    rw [search, search, Array.getElem?_map, Array.size_map]
    cases slots[place % slots.size]? with
    | none => rfl
    | some slot =>
      cases slot with
      | vacant => rfl
      | buried => exact ih _
      | live k v =>
        simp only [Option.map_some, mapSlot]
        rw [ih]

theorem get?_map (t : OpenTable κ ν) (g : ν → μ) (key : κ) :
    (t.map g).get? key = (t.get? key).map g := by
  have hfind : (t.map g).find? key = t.find? key := by
    rw [find?, find?, map, home, home, Array.size_map, search_map]
  rw [get?, get?, hfind, map]
  cases t.find? key with
  | none => rfl
  | some i =>
    dsimp only
    rw [Array.getElem?_map]
    rcases t.slots[i]? with _ | (_ | _ | ⟨k, v⟩) <;> rfl

omit [DecidableEq κ] [Hashable κ] in
theorem eq_or_live_of_mapSlot_eq {s s' : Slot κ ν}
    (h : mapSlot (fun _ => ()) s = mapSlot (fun _ => ()) s') :
    s = s' ∨ ∃ k v v', s = .live k v ∧ s' = .live k v' := by
  cases s <;> cases s' <;> cases h
  · exact .inl rfl
  · exact .inl rfl
  · exact .inr ⟨_, _, _, rfl, rfl⟩

/-- Two tables of the same layout are the same if their entries are. -/
theorem WellFormed.eq_of_map_eq {t t' : OpenTable κ ν} (h : WellFormed t) (h' : WellFormed t')
    (hlayout : t.map (fun _ => ()) = t'.map fun _ => ()) (hget : ∀ k, t.get? k = t'.get? k) : t = t' := by
  rw [map, map, mk.injEq] at hlayout
  obtain ⟨hslots, hcapacity, hreach, hsize⟩ := hlayout
  have hsame : t.slots = t'.slots := by
    refine Array.ext_getElem? fun i => ?_
    have hslot : (t.slots.map (mapSlot fun _ => ()))[i]? = (t'.slots.map (mapSlot fun _ => ()))[i]? :=
      congrArg (·[i]?) hslots
    rw [Array.getElem?_map, Array.getElem?_map] at hslot
    cases hi : t.slots[i]? with
    | none =>
      rw [hi] at hslot
      exact (Option.map_eq_none_iff.mp hslot.symm).symm
    | some s =>
      rw [hi] at hslot
      obtain ⟨s', hi', hs'⟩ := Option.map_eq_some_iff.mp hslot.symm
      rw [hi']
      rcases eq_or_live_of_mapSlot_eq hs' with rfl | ⟨k, v, v', rfl, rfl⟩
      · rfl
      · have hv := hget k
        rw [h.get?_eq_some_iff.mpr ⟨i, hi⟩, h'.get?_eq_some_iff.mpr ⟨i, hi'⟩] at hv
        rw [Option.some_inj.mp hv]
  obtain ⟨slots, capacity, reach, size⟩ := t
  exact (mk.injEq ..).mpr ⟨hsame, hcapacity, hreach, hsize⟩

/-! ## Claiming

There are three outcomes: the key is in, the table is full, there is room.  They exclude each other, and
each has an equation for the whole table.  The two statements about an unknown outcome, `claim_eq_error_iff`
and `claim_eq_ok`, are the three equations put together.  That `claim` has a further exit, for a search that
comes back without a free slot, does not show in any of them: `exists_freeDistance` closes it once. -/

theorem WellFormed.claim_of_some {t : OpenTable κ ν} (h : WellFormed t) {key : κ} {v : ν}
    (hv : t.get? key = some v) (fresh : ν) : t.claim key fresh = .ok (false, t) := by
  rw [claim, if_pos (by rw [h.contains_eq, hv]; rfl)]

theorem WellFormed.claim_of_full {t : OpenTable κ ν} (h : WellFormed t) {key : κ}
    (hv : t.get? key = none) (hfull : t.size = t.capacity) (fresh : ν) :
    t.claim key fresh = .error ⟨t.capacity⟩ := by
  rw [claim, if_neg (by rw [h.contains_eq, hv]; simp), if_pos (show t.capacity ≤ t.size by omega)]

omit [DecidableEq κ] in
/-- The search for a free slot, which every new entry needs, cannot fail while the table is not full. -/
theorem WellFormed.exists_freeDistance {t : OpenTable κ ν} (h : WellFormed t)
    (hroom : t.size < t.capacity) (start : Nat) :
    ∃ d, freeDistance? t.slots start 0 t.slots.size = some d :=
  OpenTable.exists_freeDistance (by have := h.counted; have := h.roomy; omega) start

/-- **A new key gets the fresh value** in a table that is not full, and nothing else changes. -/
theorem WellFormed.claim_of_room {t : OpenTable κ ν} (h : WellFormed t) {key : κ}
    (hv : t.get? key = none) (hroom : t.size < t.capacity) (fresh : ν) :
    ∃ t', t.claim key fresh = .ok (true, t') ∧ WellFormed t' ∧ t'.size = t.size + 1 ∧
      t'.capacity = t.capacity ∧ ∀ k, t'.get? k = if k = key then some fresh else t.get? k := by
  obtain ⟨d, hd⟩ := h.exists_freeDistance hroom (home t.slots key)
  have habsent := h.get?_eq_none_iff.mp hv
  have htidy := tidy_fill (w := fresh) h.tidy habsent hd
  obtain ⟨⟨s, hslot, hfree⟩, -⟩ := freeDistance?_eq_some hd
  generalize hp : (home t.slots key + d) % t.slots.size = p at htidy hslot
  have hget := getElem?_replaced hslot (.live key fresh)
  have hcount := liveCount_set (r := .live key fresh) hslot
  simp only [hfree, if_true, Nat.add_zero, isFree_live, Bool.false_eq_true, if_false] at hcount
  have hw : WellFormed (⟨t.slots.setIfInBounds p (.live key fresh), t.capacity, max t.reach d,
      t.size + 1⟩ : OpenTable κ ν) :=
    ⟨htidy, by simpa using h.roomy, by rw [hcount, h.counted], hroom⟩
  refine ⟨_, ?_, hw, rfl, rfl, fun k => ?_⟩
  · rw [claim, if_neg (by rw [h.contains_eq, hv]; simp), if_neg (show ¬ t.capacity ≤ t.size by omega)]
    simp only [hd, hp]
  · split
    · rename_i hk
      exact hw.get?_eq_some_iff.mpr ⟨p, by rw [hget, if_pos rfl, hk]⟩
    · rename_i hk
      refine get?_congr hw h fun v => ⟨fun ⟨j, hj⟩ => ⟨j, ?_⟩, fun ⟨j, hj⟩ => ⟨j, ?_⟩⟩
      · rw [hget] at hj
        split at hj
        · cases hj; exact absurd rfl hk
        · exact hj
      · rw [hget, if_neg]
        · exact hj
        · rintro rfl
          rw [hslot, Option.some_inj] at hj
          rw [hj] at hfree
          cases hfree

/-- A claim is refused exactly when it would be one entry too many. -/
theorem WellFormed.claim_eq_error_iff {t : OpenTable κ ν} (h : WellFormed t) {key : κ} {fresh : ν}
    {e : TableFull} : t.claim key fresh = .error e ↔
      t.get? key = none ∧ t.size = t.capacity ∧ e = ⟨t.capacity⟩ := by
  cases hv : t.get? key with
  | some v => simp [h.claim_of_some hv]
  | none =>
    rcases Nat.eq_or_lt_of_le h.bounded with hfull | hroom
    · rw [h.claim_of_full hv hfull]
      simp [hfull, eq_comm]
    · obtain ⟨t', ht', -⟩ := h.claim_of_room hv hroom fresh
      rw [ht']
      simp [Nat.ne_of_lt hroom]

/-- What a claim that is not refused leaves. -/
theorem WellFormed.claim_eq_ok {t t' : OpenTable κ ν} (h : WellFormed t) {key : κ} {fresh : ν}
    {created : Bool} (hc : t.claim key fresh = .ok (created, t')) :
    WellFormed t' ∧ created = (t.get? key).isNone ∧ t'.capacity = t.capacity ∧
      t'.size = t.size + created.toNat ∧
      ∀ k, t'.get? k = if k = key then some ((t.get? key).getD fresh) else t.get? k := by
  cases hv : t.get? key with
  | some v =>
    rw [h.claim_of_some hv] at hc
    cases hc
    refine ⟨h, rfl, rfl, rfl, fun k => ?_⟩
    split
    · rename_i hk; rw [hk, hv]; rfl
    · rfl
  | none =>
    rcases Nat.eq_or_lt_of_le h.bounded with hfull | hroom
    · rw [h.claim_of_full hv hfull] at hc
      cases hc
    · obtain ⟨t'', ht'', hwell, hsize, hcap, hget⟩ := h.claim_of_room hv hroom fresh
      rw [ht''] at hc
      cases hc
      exact ⟨hwell, rfl, hcap, hsize, hget⟩

/-! ## Erasing

Erasing buries a slot and sweeps.  The sweep changes no entry (`sweep_spec`), so the entries afterwards are
those of all slots but one; and they are all the entries of other keys, since the key had its only entry in
that slot. -/

theorem WellFormed.erase_of_none {t : OpenTable κ ν} {key : κ} (h : WellFormed t)
    (hv : t.get? key = none) : t.erase key = (false, t) := by
  have hc := h.contains_eq key
  rw [hv, contains, Option.isSome_none, Option.isSome_eq_false_iff, Option.isNone_iff_eq_none] at hc
  rw [erase, hc]

/-- **Erasing takes one entry away** and makes the slots behind it free again where it can. -/
theorem WellFormed.erase_of_some {t : OpenTable κ ν} {key : κ} {v : ν} (h : WellFormed t)
    (hv : t.get? key = some v) :
    ∃ t', t.erase key = (true, t') ∧ WellFormed t' ∧ t'.size + 1 = t.size ∧
      t'.capacity = t.capacity ∧ ∀ k, t'.get? k = if k = key then none else t.get? k := by
  obtain ⟨i, hi⟩ := h.get?_eq_some_iff.mp hv
  have hf := h.find?_eq_some_iff.mpr ⟨v, hi⟩
  have hlt := (Array.getElem?_eq_some_iff.mp hi).1
  have hcount := liveCount_set (r := (.buried : Slot κ ν)) hi
  obtain ⟨htidy, hsize, hlive, hsame⟩ := sweep_spec (t.slots.setIfInBounds i .buried).size i
    (tidy_bury h.tidy i)
  generalize hs : sweep (t.slots.setIfInBounds i .buried) i (t.slots.setIfInBounds i .buried).size
    = swept at htidy hsize hlive hsame
  simp only [isFree_live, isFree_buried, Bool.false_eq_true, if_false, if_true, Nat.add_zero] at hcount
  rw [h.counted] at hcount
  have hw : WellFormed (⟨swept, t.capacity, t.reach, t.size - 1⟩ : OpenTable κ ν) := by
    refine ⟨htidy, ?_, ?_, ?_⟩
    · rw [hsize, Array.size_setIfInBounds]
      exact h.roomy
    · rw [hlive, ← hcount, Nat.add_sub_cancel]
    · exact Nat.le_trans (Nat.sub_le _ _) h.bounded
  refine ⟨_, ?_, hw, by dsimp only; omega, rfl, fun k => ?_⟩
  · rw [erase, hf]
    simp only [hs]
  · have hget : ∀ (j : Nat) (u : ν), swept[j]? = some (.live k u) ↔
        j ≠ i ∧ t.slots[j]? = some (.live k u) := by
      intro j u
      rw [hsame, Array.getElem?_setIfInBounds]
      split
      · rename_i hij
        simp [hij.symm]
      · rename_i hij
        simp [Ne.symm hij]
    split
    · rename_i hk
      rw [hw.get?_eq_none_iff]
      rintro u ⟨j, hj⟩
      rw [hget] at hj
      rw [hk] at hj
      exact hj.1 (h.tidy.unique j i key u v hj.2 hi)
    · rename_i hk
      refine get?_congr hw h fun u => ⟨fun ⟨j, hj⟩ => ⟨j, ((hget j u).mp hj).2⟩,
        fun ⟨j, hj⟩ => ⟨j, (hget j u).mpr ⟨?_, hj⟩⟩⟩
      rintro rfl
      rw [hi] at hj
      cases hj
      exact hk rfl

theorem WellFormed.erase {t : OpenTable κ ν} (h : WellFormed t) (key : κ) :
    WellFormed (t.erase key).2 := by
  cases hv : t.get? key with
  | none => rw [h.erase_of_none hv]; exact h
  | some v =>
    obtain ⟨t', ht', hwell, -⟩ := h.erase_of_some hv
    rw [ht']
    exact hwell

theorem WellFormed.erase_fst {t : OpenTable κ ν} (h : WellFormed t) (key : κ) :
    (t.erase key).1 = (t.get? key).isSome := by
  cases hv : t.get? key with
  | none => rw [h.erase_of_none hv]; rfl
  | some v =>
    obtain ⟨t', ht', -⟩ := h.erase_of_some hv
    rw [ht']; rfl

theorem WellFormed.get?_erase {t : OpenTable κ ν} (h : WellFormed t) (key k : κ) :
    (t.erase key).2.get? k = if k = key then none else t.get? k := by
  cases hv : t.get? key with
  | none =>
    rw [h.erase_of_none hv]
    split
    · rename_i hk; rw [hk, hv]
    · rfl
  | some v =>
    obtain ⟨t', ht', -, -, -, hget⟩ := h.erase_of_some hv
    rw [ht', hget]

/-! ## Properties that are kept

Tables are used in many places, and each of them would need the same induction for the same three
operations.  A property is shown to be `Kept` once, and a module that uses tables goes through its own steps
with any such property at all. -/

/-- The property is kept by whatever is done to a table. -/
structure Kept (P : OpenTable κ ν → Prop) : Prop where
  claim : ∀ t key fresh created t', P t → t.claim key fresh = .ok (created, t') → P t'
  visit : ∀ {β : Type} t key (f : ν → β × ν), P t → P (t.visit key f).2
  erase : ∀ t key, P t → P (t.erase key).2

theorem kept_wellFormed : Kept (WellFormed : OpenTable κ ν → Prop) where
  claim _ _ _ _ _ h hclaim := (h.claim_eq_ok hclaim).1
  visit _ key f h := h.visit key f
  erase _ key h := h.erase key

end OpenTable

end Shaping
