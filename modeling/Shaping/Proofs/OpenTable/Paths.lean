import Shaping.OpenTable
import Mathlib.Data.Nat.Basic

/-!
# Paths through an open table

A look-up follows the path of a key: it starts at the key's home and stops at the first vacant slot.
It finds what is there because of one property, which every operation has to keep:

* **between the home of a key and its entry no slot is vacant**, and the entry is no further from home
  than `OpenTable.reach` (`Tidy.path`).

Claiming a slot never makes one vacant, so it only has to be seen that the new entry is at the end of
its own path.  Erasing is the delicate part: `sweep` does make slots vacant, and `tidy_vacate` is the
reason why it may.  A buried slot whose successor is vacant lies on no path at all, since such a path
would have to go on through a vacant slot or end in one.

Together with the fact that no key has two entries (`Tidy.unique`) this turns a look-up into a statement
about the slots as a set (`find?_eq_some_iff`), and from there on nothing depends on hashes any more.
`WellFormed` adds the account of the entries, which is what guarantees that a free slot is found
whenever the table is not full (`exists_freeDistance`).

The way to an entry is given by its length and not by the places on it, since places are taken modulo the
number of slots, and of two places on a ring neither comes before the other.  A length may therefore be more
than once around; nothing here minds, and only where it has to be less (`OpenTable.OnPath`) are the turns
left out.
-/

set_option autoImplicit false

namespace Shaping

namespace OpenTable

variable {κ ν β : Type}

/-! ## Slots as a set

Every operation writes one slot or several one after the other, and each time two things are asked: what is
in slot `i` now, and how many slots are in use now.  `getElem?_replaced` and `liveCount_set` answer them for
one slot, whatever was in it and whatever goes into it, so that nothing further down has to look into an
array. -/

/-- Some slot holds this entry. -/
def Holds (slots : Array (Slot κ ν)) (key : κ) (value : ν) : Prop :=
  ∃ i : Nat, slots[i]? = some (.live key value)

/-- The number of slots in use. -/
def liveCount (slots : Array (Slot κ ν)) : Nat := slots.countP fun s => !s.isFree

@[simp] theorem isFree_live (k : κ) (v : ν) : (Slot.live k v).isFree = false := rfl

@[simp] theorem isFree_buried : (.buried : Slot κ ν).isFree = true := rfl

@[simp] theorem isFree_vacant : (.vacant : Slot κ ν).isFree = true := rfl

theorem isFree_eq_false_iff {s : Slot κ ν} : s.isFree = false ↔ ∃ k v, s = .live k v := by
  cases s <;> simp

theorem pos_of_getElem? {slots : Array (Slot κ ν)} {i : Nat} {s : Slot κ ν}
    (h : slots[i]? = some s) : 0 < slots.size :=
  Nat.lt_of_le_of_lt (Nat.zero_le i) (Array.getElem?_eq_some_iff.mp h).1

/-- What stands in the slots after one of them was replaced. -/
theorem getElem?_replaced {slots : Array (Slot κ ν)} {p : Nat} {s : Slot κ ν}
    (hp : slots[p]? = some s) (r : Slot κ ν) (i : Nat) :
    (slots.setIfInBounds p r)[i]? = if p = i then some r else slots[i]? := by
  rw [Array.getElem?_setIfInBounds, if_pos (Array.getElem?_eq_some_iff.mp hp).1]

/-- Replacing one free slot by another leaves the entries where they are. -/
theorem getElem?_set_free {slots : Array (Slot κ ν)} {p i : Nat} {s r : Slot κ ν} {k : κ} {v : ν}
    (hp : slots[p]? = some s) (hs : s.isFree = true) (hr : r.isFree = true) :
    (slots.setIfInBounds p r)[i]? = some (.live k v) ↔ slots[i]? = some (.live k v) := by
  rw [getElem?_replaced hp]
  by_cases hpi : p = i
  · subst hpi
    rw [if_pos rfl, hp, Option.some_inj, Option.some_inj]
    constructor
    · rintro rfl; simp at hr
    · rintro rfl; simp at hs
  · rw [if_neg hpi]

/-- The account of the slots in use when one of them is replaced. -/
theorem liveCount_set {slots : Array (Slot κ ν)} {p : Nat} {s r : Slot κ ν}
    (hp : slots[p]? = some s) :
    liveCount (slots.setIfInBounds p r) + (if s.isFree then 0 else 1)
      = liveCount slots + (if r.isFree then 0 else 1) := by
  obtain ⟨hlt, rfl⟩ := Array.getElem?_eq_some_iff.mp hp
  have hle := Array.boole_getElem_le_countP (p := fun s : Slot κ ν => !s.isFree) hlt
  rw [liveCount, liveCount, Array.setIfInBounds_def, dif_pos hlt, Array.countP_set hlt]
  cases hs : slots[p].isFree <;> cases hr : r.isFree <;>
    simp only [hs, Bool.not_true, Bool.not_false, if_true, if_false, Bool.false_eq_true] at hle ⊢ <;>
    omega

/-! ## Searching

A search that finds something is always right (`live_of_search`), with no assumption on the slots: it has
compared the key.  That it finds what is there is where the invariant comes in, and it comes in as
hypotheses on one way and one entry (`exists_search`), so that the induction on the number of slots left can
drop the first slot from the way and go on from the next. -/

section Search

variable [DecidableEq κ] [Hashable κ]

omit [DecidableEq κ] in
@[simp] theorem home_setIfInBounds (slots : Array (Slot κ ν)) (i : Nat) (s : Slot κ ν) (key : κ) :
    home (slots.setIfInBounds i s) key = home slots key := by
  simp [home]

omit [Hashable κ] in
/-- A search never lies. -/
theorem live_of_search {slots : Array (Slot κ ν)} {key : κ} {place n i : Nat}
    (h : search slots key place n = some i) : ∃ v, slots[i]? = some (.live key v) := by
  fun_induction search slots key place n with
  | case1 => simp at h
  | case2 place n v hslot =>
    cases h
    exact ⟨v, hslot⟩
  | case3 _ _ _ _ _ _ ih => exact ih h
  | case4 _ _ _ ih => exact ih h
  | case5 => simp at h

omit [Hashable κ] in
/-- A search that gets as far as an entry, without a vacant slot on the way, ends in success. -/
theorem exists_search {slots : Array (Slot κ ν)} {key : κ} {v : ν} {place d n : Nat} (hd : d < n)
    (hpath : ∀ e < d, slots[(place + e) % slots.size]? ≠ some .vacant)
    (hlive : slots[(place + d) % slots.size]? = some (.live key v)) :
    ∃ i, search slots key place n = some i := by
  induction n generalizing place d with
  | zero => omega
  | succ n ih =>
    have hpos := pos_of_getElem? hlive
    have hlt : place % slots.size < slots.size := Nat.mod_lt _ hpos
    -- what the search finds unless its first slot settles the matter
    have hnext : d ≠ 0 → ∃ i, search slots key (place + 1) n = some i := by
      intro hd0
      obtain ⟨d, rfl⟩ := Nat.exists_eq_succ_of_ne_zero hd0
      refine ih (d := d) (by omega) (fun e he => ?_) ?_
      · have := hpath (e + 1) (by omega)
        rwa [show place + 1 + e = place + (e + 1) by omega]
      · rwa [show place + 1 + d = place + (d + 1) by omega]
    have hzero : d = 0 → slots[place % slots.size]? = some (.live key v) := by
      rintro rfl; simpa using hlive
    rw [search]
    split
    · rename_i k w hslot
      split
      · exact ⟨_, rfl⟩
      · rename_i hk
        refine hnext fun h0 => hk ?_
        have := hzero h0
        rw [hslot] at this
        cases this; rfl
    · rename_i hslot
      refine hnext fun h0 => ?_
      have := hzero h0
      rw [hslot] at this
      cases this
    · rename_i h1 h2
      exfalso
      cases hs : slots[place % slots.size]? with
      | none =>
        rw [Array.getElem?_eq_none_iff] at hs
        omega
      | some s =>
        cases s with
        | live k w => exact h1 k w hs
        | buried => exact h2 hs
        | vacant =>
          rcases Nat.eq_zero_or_pos d with h0 | h0
          · rw [hzero h0] at hs
            cases hs
          · exact hpath 0 h0 (by simpa using hs)

end Search

/-! ## Free slots

`freeDistance?` looks at all slots in turn.  If it gives up, it has seen an entry in each of them, and then
there are as many entries as slots.  That is how the account of the entries, a number, says something about
where the free slots are, of which nothing else is known. -/

theorem freeDistance?_eq_some {slots : Array (Slot κ ν)} {start distance n d : Nat}
    (h : freeDistance? slots start distance n = some d) :
    (∃ s, slots[(start + d) % slots.size]? = some s ∧ s.isFree = true) ∧
      ∀ e, distance ≤ e → e < d → ∃ k v, slots[(start + e) % slots.size]? = some (.live k v) := by
  fun_induction freeDistance? slots start distance n with
  | case1 => simp at h
  | case2 distance n s hslot hfree =>
    cases h
    exact ⟨⟨s, hslot, hfree⟩, fun e h1 h2 => by omega⟩
  | case3 distance n s hslot hfree ih =>
    obtain ⟨hend, hway⟩ := ih h
    refine ⟨hend, fun e h1 h2 => ?_⟩
    rcases Nat.eq_or_lt_of_le h1 with rfl | h1
    · obtain ⟨k, v, rfl⟩ := isFree_eq_false_iff.mp (by simpa using hfree)
      exact ⟨k, v, hslot⟩
    · exact hway e h1 h2
  | case4 => simp at h

theorem freeDistance?_eq_none {slots : Array (Slot κ ν)} {start distance n : Nat}
    (hpos : 0 < slots.size) (h : freeDistance? slots start distance n = none) :
    ∀ e, distance ≤ e → e < distance + n →
      ∃ k v, slots[(start + e) % slots.size]? = some (.live k v) := by
  fun_induction freeDistance? slots start distance n with
  | case1 => intro e h1 h2; omega
  | case2 => simp at h
  | case3 distance n s hslot hfree ih =>
    intro e h1 h2
    rcases Nat.eq_or_lt_of_le h1 with rfl | h1
    · obtain ⟨k, v, rfl⟩ := isFree_eq_false_iff.mp (by simpa using hfree)
      exact ⟨k, v, hslot⟩
    · exact ih h e h1 (by omega)
  | case4 distance n hslot =>
    rw [Array.getElem?_eq_none_iff] at hslot
    have := Nat.mod_lt (start + distance) hpos
    omega

/-- Going once around the ring from any start comes by every slot. -/
theorem exists_distance (size start i : Nat) (hi : i < size) :
    ∃ e < size, (start + e) % size = i := by
  have hs : start % size < size := Nat.mod_lt _ (by omega)
  refine ⟨(i + (size - start % size)) % size, Nat.mod_lt _ (by omega), ?_⟩
  rw [Nat.add_mod_mod, ← Nat.mod_add_mod,
    show start % size + (i + (size - start % size)) = i + size by omega, Nat.add_mod_right,
    Nat.mod_eq_of_lt hi]

/-- **Unless all slots are in use, a free one is found**, wherever the search for it starts. -/
theorem exists_freeDistance {slots : Array (Slot κ ν)} (h : liveCount slots < slots.size)
    (start : Nat) : ∃ d, freeDistance? slots start 0 slots.size = some d := by
  cases hd : freeDistance? slots start 0 slots.size with
  | some d => exact ⟨d, rfl⟩
  | none =>
    exfalso
    have hall := freeDistance?_eq_none (by omega) hd
    have hlive : liveCount slots = slots.size := by
      rw [liveCount, Array.countP_eq_size]
      intro s hs
      obtain ⟨i, hi, rfl⟩ := Array.getElem_of_mem hs
      obtain ⟨e, he, hei⟩ := exists_distance slots.size start i hi
      obtain ⟨k, v, hkv⟩ := hall e (Nat.zero_le e) (by omega)
      rw [hei, Array.getElem?_eq_getElem hi, Option.some_inj] at hkv
      simp [hkv]
    omega

/-! ## The invariant of the slots

There is one lemma for each way of writing a slot: burying, vacating, filling, and in
`OpenTable.tidy_replace` replacing a value.  They are put in terms of slots and not of tables, because in
the middle of an erasure there is no table: what the counters of the table say is true again only after the
last slot of the sweep. -/

section Tidy

variable [Hashable κ]

/-- Every entry can be reached from its home, and no key has two. -/
structure Tidy (reach : Nat) (slots : Array (Slot κ ν)) : Prop where
  /-- On the way from home to an entry no slot is vacant, and the way is at most `reach` long. -/
  path : ∀ (i : Nat) (k : κ) (v : ν), slots[i]? = some (.live k v) →
    ∃ d ≤ reach, (home slots k + d) % slots.size = i ∧
      ∀ e < d, slots[(home slots k + e) % slots.size]? ≠ some .vacant
  /-- A key is in one slot at most. -/
  unique : ∀ (i j : Nat) (k : κ) (v w : ν),
    slots[i]? = some (.live k v) → slots[j]? = some (.live k w) → i = j

theorem tidy_replicate (n : Nat) : Tidy 0 (Array.replicate n (Slot.vacant : Slot κ ν)) where
  path i k v hi := by
    rw [Array.getElem?_replicate] at hi
    split at hi <;> cases hi
  unique i j k v w hi := by
    rw [Array.getElem?_replicate] at hi
    split at hi <;> cases hi

/-- Freeing a slot without making it vacant keeps all paths. -/
theorem tidy_bury {reach : Nat} {slots : Array (Slot κ ν)} (h : Tidy reach slots) (p : Nat) :
    Tidy reach (slots.setIfInBounds p .buried) := by
  have hback : ∀ (i : Nat) (k : κ) (v : ν),
      (slots.setIfInBounds p .buried)[i]? = some (.live k v) → slots[i]? = some (.live k v) := by
    intro i k v hi
    rw [Array.getElem?_setIfInBounds] at hi
    split at hi
    · split at hi <;> cases hi
    · exact hi
  refine ⟨fun i k v hi => ?_, fun i j k v w hi hj => h.unique i j k v w (hback _ _ _ hi) (hback _ _ _ hj)⟩
  obtain ⟨d, hd, hend, hway⟩ := h.path i k v (hback i k v hi)
  simp only [home_setIfInBounds, Array.size_setIfInBounds]
  refine ⟨d, hd, hend, fun e he => ?_⟩
  rw [Array.getElem?_setIfInBounds]
  split
  · split <;> simp
  · exact hway e he

/-- **A buried slot with a vacant successor may become vacant.**  A path through it would have to go on
through its successor or end there, and a vacant slot allows neither. -/
theorem tidy_vacate {reach p : Nat} {slots : Array (Slot κ ν)} (h : Tidy reach slots)
    (hp : slots[p]? = some .buried) (hnext : slots[(p + 1) % slots.size]? = some .vacant) :
    Tidy reach (slots.setIfInBounds p .vacant) := by
  have hlive : ∀ (i : Nat) (k : κ) (v : ν),
      (slots.setIfInBounds p .vacant)[i]? = some (.live k v) ↔ slots[i]? = some (.live k v) :=
    fun _ _ _ => getElem?_set_free hp rfl rfl
  refine ⟨fun i k v hi => ?_, fun i j k v w hi hj => h.unique i j k v w ((hlive _ _ _).mp hi)
    ((hlive _ _ _).mp hj)⟩
  have hi' := (hlive i k v).mp hi
  obtain ⟨d, hd, hend, hway⟩ := h.path i k v hi'
  simp only [home_setIfInBounds, Array.size_setIfInBounds]
  refine ⟨d, hd, hend, fun e he => ?_⟩
  have hne : p ≠ (home slots k + e) % slots.size := by
    intro hpe
    have hsucc : (home slots k + (e + 1)) % slots.size = (p + 1) % slots.size := by
      rw [hpe, Nat.mod_add_mod, Nat.add_assoc]
    rcases Nat.eq_or_lt_of_le (Nat.succ_le_of_lt he) with hlast | hlast
    · rw [show d = e + 1 from hlast.symm, hsucc] at hend
      rw [hend, hi'] at hnext
      cases hnext
    · exact hway (e + 1) hlast (hsucc ▸ hnext)
  rw [Array.getElem?_setIfInBounds, if_neg hne]
  exact hway e he

/-- What a sweep keeps: the invariant, the number of slots, and every entry. -/
theorem sweep_spec {reach : Nat} (n : Nat) {slots : Array (Slot κ ν)} (place : Nat)
    (h : Tidy reach slots) :
    Tidy reach (sweep slots place n) ∧ (sweep slots place n).size = slots.size ∧
      liveCount (sweep slots place n) = liveCount slots ∧
      ∀ (i : Nat) (k : κ) (v : ν),
        (sweep slots place n)[i]? = some (.live k v) ↔ slots[i]? = some (.live k v) := by
  induction n generalizing slots place with
  | zero => exact ⟨h, rfl, rfl, fun _ _ _ => Iff.rfl⟩
  | succ n ih =>
    rw [sweep]
    split
    · rename_i hnext hp
      have hstep := tidy_vacate h hp hnext
      obtain ⟨htidy, hsize, hcount, hlive⟩ := ih
        ((place + (slots.setIfInBounds place .vacant).size - 1)
          % (slots.setIfInBounds place .vacant).size) hstep
      have hsame := liveCount_set (r := .vacant) hp
      refine ⟨htidy, by rw [hsize, Array.size_setIfInBounds], by rw [hcount]; simpa using hsame,
        fun i k v => ?_⟩
      rw [hlive, getElem?_set_free hp rfl rfl]
    · exact ⟨h, rfl, rfl, fun _ _ _ => Iff.rfl⟩

/-- **A new entry in the first free slot of its path** keeps the invariant, if its key had none. -/
theorem tidy_fill {reach d : Nat} {slots : Array (Slot κ ν)} {key : κ} {w : ν}
    (h : Tidy reach slots) (habsent : ∀ v, ¬ Holds slots key v)
    (hd : freeDistance? slots (home slots key) 0 slots.size = some d) :
    Tidy (max reach d)
      (slots.setIfInBounds ((home slots key + d) % slots.size) (.live key w)) := by
  obtain ⟨⟨s, hslot, hfree⟩, hway⟩ := freeDistance?_eq_some hd
  generalize hp : (home slots key + d) % slots.size = p at hslot ⊢
  have hget := getElem?_replaced hslot (.live key w)
  refine ⟨fun i k v hi => ?_, fun i j k v u hi hj => ?_⟩
  · simp only [home_setIfInBounds, Array.size_setIfInBounds, hget] at hi ⊢
    by_cases hpi : p = i
    · rw [if_pos hpi] at hi
      cases hi
      refine ⟨d, Nat.le_max_right _ _, by rw [hp, hpi], fun e he => ?_⟩
      obtain ⟨k, v, hkv⟩ := hway e (Nat.zero_le e) he
      rw [hkv]
      split <;> simp
    · rw [if_neg hpi] at hi
      obtain ⟨d', hd', hend, hway'⟩ := h.path i k v hi
      refine ⟨d', Nat.le_trans hd' (Nat.le_max_left _ _), hend, fun e he => ?_⟩
      split
      · simp
      · exact hway' e he
  · rw [hget] at hi hj
    split at hi <;> split at hj
    · omega
    · cases hi
      exact absurd ⟨j, hj⟩ (habsent u)
    · cases hj
      exact absurd ⟨i, hi⟩ (habsent v)
    · exact h.unique i j k v u hi hj

end Tidy

end OpenTable

end Shaping
