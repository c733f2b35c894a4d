import Shaping.Proofs.OpenTable.Refinement
import Mathlib.Data.Nat.ModEq

/-!
# Buried slots do not pile up

A slot is buried so that the paths through it stay whole, and a look-up that fails has to pass over every
buried slot on its way.  What keeps this cheap is that **no buried slot has a vacant successor**
(`Swept`): a run of buried slots ends at an entry, and where there is no entry left there is nothing to
pass over, unless no slot is vacant at all.

Claims cannot break this, since they only put entries where there was none.  When an entry is erased, the
slot just buried may be followed by a vacant one, and then it becomes vacant itself, which is the same
problem for the slot before it.  So `sweep` works with a weaker property, in which one slot is exempt
(`SweptBut`).  Each of its steps hands the exemption to the slot before (`sweptBut_vacate`), and as a step
uses up a buried slot, there are enough of them to come to an end (`swept_sweep`).

That the slots made vacant are on no path is a matter of `Tidy` alone: on a path no slot is vacant
(`Tidy.not_onPath`).

It is the property with no exemption that operations keep, but it does not carry an induction on the sweep,
since it fails between the steps.  What is true between them is said by where the sweep has come to, so the
exempt place goes through the induction together with the slots.  The sweep stops where the exempt slot has
no need of an exemption (`SweptBut.swept`), or after as many steps as there are slots; in the second case
nothing is buried any more.
-/

set_option autoImplicit false

namespace Shaping

namespace OpenTable

variable {κ ν β : Type}

/-! ## Slots and their successors -/

/-- No buried slot has a vacant successor, going around the ring. -/
def Swept (slots : Array (Slot κ ν)) : Prop :=
  ∀ i : Nat, slots[i]? = some .buried → slots[(i + 1) % slots.size]? ≠ some .vacant

/-- The same of all slots but one. -/
def SweptBut (exempt : Nat) (slots : Array (Slot κ ν)) : Prop :=
  ∀ i : Nat, i ≠ exempt → slots[i]? = some .buried → slots[(i + 1) % slots.size]? ≠ some .vacant

theorem SweptBut.swept {place : Nat} {slots : Array (Slot κ ν)} (h : SweptBut place slots)
    (hplace : slots[place]? = some .buried → slots[(place + 1) % slots.size]? ≠ some .vacant) :
    Swept slots := by
  intro i hi
  by_cases heq : i = place
  · subst heq
    exact hplace hi
  · exact h i heq hi

/-- An entry may go anywhere. -/
theorem Swept.fill {slots : Array (Slot κ ν)} (h : Swept slots) {p : Nat} {s : Slot κ ν}
    (hp : slots[p]? = some s) (key : κ) (value : ν) :
    Swept (slots.setIfInBounds p (.live key value)) := by
  intro i hi
  rw [Array.size_setIfInBounds, getElem?_replaced hp]
  rw [getElem?_replaced hp] at hi
  split at hi
  · cases hi
  · split
    · simp
    · exact h i hi

/-- A slot that is buried is the only one for which something may be left to do. -/
theorem Swept.bury {slots : Array (Slot κ ν)} (h : Swept slots) {p : Nat} {s : Slot κ ν}
    (hp : slots[p]? = some s) : SweptBut p (slots.setIfInBounds p .buried) := by
  intro i hne hi
  rw [Array.size_setIfInBounds, getElem?_replaced hp]
  rw [getElem?_replaced hp, if_neg (Ne.symm hne)] at hi
  split
  · simp
  · exact h i hi

/-- The place before a place on the ring is the only one that it comes after. -/
theorem eq_before {size place i : Nat} (hi : i < size) (h : (i + 1) % size = place) :
    i = (place + size - 1) % size := by
  rcases Nat.lt_or_ge (i + 1) size with hlt | hge
  · rw [← h, Nat.mod_eq_of_lt hlt, Nat.add_right_comm, Nat.add_sub_cancel, Nat.add_mod_right,
      Nat.mod_eq_of_lt hi]
  · have hlast : i + 1 = size := by omega
    rw [← h, hlast, Nat.mod_self, Nat.zero_add, Nat.mod_eq_of_lt (by omega)]
    omega

/-- **A step of a sweep** hands the exemption to the slot before. -/
theorem sweptBut_vacate {slots : Array (Slot κ ν)} {p : Nat} (h : SweptBut p slots)
    (hp : slots[p]? = some .buried) :
    SweptBut ((p + slots.size - 1) % slots.size) (slots.setIfInBounds p .vacant) := by
  intro i hne hi
  rw [Array.size_setIfInBounds, getElem?_replaced hp]
  rw [getElem?_replaced hp] at hi
  split at hi
  · cases hi
  · rename_i hpi
    have hlt := (Array.getElem?_eq_some_iff.mp hi).1
    rw [if_neg fun hsucc => hne (eq_before hlt hsucc.symm)]
    exact h i (Ne.symm hpi) hi

/-! ## The whole sweep -/

/-- Is the slot buried? -/
def isBuried : Slot κ ν → Bool
  | .buried => true
  | _ => false

/-- The number of buried slots. -/
def buriedCount (slots : Array (Slot κ ν)) : Nat := slots.countP isBuried

theorem buriedCount_vacate {slots : Array (Slot κ ν)} {p : Nat} (hp : slots[p]? = some .buried) :
    buriedCount (slots.setIfInBounds p .vacant) + 1 = buriedCount slots := by
  obtain ⟨hlt, hslot⟩ := Array.getElem?_eq_some_iff.mp hp
  have hpos : 0 < slots.countP isBuried :=
    Array.countP_pos_iff.mpr ⟨_, Array.mem_of_getElem? hp, rfl⟩
  rw [buriedCount, buriedCount, Array.setIfInBounds_def, dif_pos hlt, Array.countP_set hlt, hslot]
  simp only [isBuried, if_true, Bool.false_eq_true, if_false]
  omega

/-- **A sweep leaves nothing to do**, if it may go as far as there are buried slots. -/
theorem swept_sweep (n : Nat) {slots : Array (Slot κ ν)} {place : Nat} (h : SweptBut place slots)
    (hn : buriedCount slots ≤ n) : Swept (sweep slots place n) := by
  induction n generalizing slots place with
  | zero =>
    intro i hi
    have hnone := Array.countP_eq_zero.mp (Nat.le_zero.mp hn) _ (Array.mem_of_getElem? hi)
    exact absurd rfl hnone
  | succ n ih =>
    rw [sweep]
    split
    · rename_i hnext hp
      have hstep := sweptBut_vacate h hp
      have hcount := buriedCount_vacate hp
      dsimp only
      rw [Array.size_setIfInBounds]
      exact ih hstep (by omega)
    · rename_i hstop
      exact h.swept fun hp hnext => hstop hnext hp

variable [DecidableEq κ] [Hashable κ]

/-- **Whatever is done to a table keeps it swept.** -/
theorem kept_swept : Kept fun t : OpenTable κ ν => Swept t.slots where
  claim t key fresh created t' h hclaim := by
    rw [claim] at hclaim
    split at hclaim
    · cases hclaim
      exact h
    · split at hclaim
      · cases hclaim
      · dsimp only at hclaim
        split at hclaim
        · cases hclaim
        · rename_i d hd
          cases hclaim
          obtain ⟨⟨s, hslot, -⟩, -⟩ := freeDistance?_eq_some hd
          exact h.fill hslot key fresh
  visit t key f h := by
    rcases t.visit_eq key f with ⟨-, heq⟩ | ⟨i, v, -, hi, heq⟩
    · rw [heq]
      exact h
    · rw [heq]
      exact h.fill hi key (f v).2
  erase t key h := by
    rw [erase]
    split
    · exact h
    · rename_i i hi
      obtain ⟨v, hv⟩ := live_of_search hi
      exact swept_sweep _ (h.bury hv) Array.countP_le_size

omit [DecidableEq κ] [Hashable κ] in
theorem swept_empty (capacity : Nat) : Swept (empty capacity : OpenTable κ ν).slots := by
  intro i hi
  rw [empty, Array.getElem?_replicate] at hi
  split at hi <;> cases hi

/-! ## Runs of buried slots

A run is followed from slot to slot up to the first one that is not buried.  There is such a slot if any
slot is vacant, because going around the ring comes by it.  It is not vacant itself, since it is the
successor of a buried one: so it holds an entry. -/

omit [DecidableEq κ] [Hashable κ] in
/-- **A run of buried slots ends at an entry**, unless no slot is vacant. -/
theorem Swept.run_ends {slots : Array (Slot κ ν)} (h : Swept slots) {i : Nat}
    (hi : slots[i]? = some .buried) :
    (∃ d, (∀ e < d, slots[(i + e) % slots.size]? = some .buried) ∧
      ∃ k v, slots[(i + d) % slots.size]? = some (.live k v)) ∨ ∀ j : Nat, slots[j]? ≠ some .vacant := by
  refine or_iff_not_imp_right.mpr fun hvacant => ?_
  push Not at hvacant
  obtain ⟨j, hj⟩ := hvacant
  obtain ⟨hlt, -⟩ := Array.getElem?_eq_some_iff.mp hi
  obtain ⟨e, -, he⟩ := exists_distance slots.size i j (Array.getElem?_eq_some_iff.mp hj).1
  -- the first slot from `i` on that is not buried
  have hex : ∃ d, slots[(i + d) % slots.size]? ≠ some .buried := ⟨e, by rw [he, hj]; simp⟩
  classical
  have hfirst := Nat.find_spec hex
  have hrun : ∀ e < Nat.find hex, slots[(i + e) % slots.size]? = some .buried :=
    fun e he => not_not.mp (Nat.find_min hex he)
  generalize Nat.find hex = d at hfirst hrun
  refine ⟨d, hrun, ?_⟩
  cases hslot : slots[(i + d) % slots.size]? with
  | none =>
    have hle := Array.getElem?_eq_none_iff.mp hslot
    exact absurd (Nat.mod_lt (i + d) (Nat.zero_lt_of_lt hlt)) (Nat.not_lt.mpr hle)
  | some s =>
    cases s with
    | live k v => exact ⟨k, v, rfl⟩
    | buried => exact absurd hslot hfirst
    | vacant =>
      cases d with
      | zero =>
        rw [Nat.add_zero, Nat.mod_eq_of_lt hlt, hi] at hslot
        cases hslot
      | succ d =>
        have hlast := h _ (hrun d (Nat.lt_succ_self d))
        rw [Nat.mod_add_mod] at hlast
        exact absurd hslot hlast

omit [DecidableEq κ] [Hashable κ] in
/-- Without entries, either all slots are vacant or none is. -/
theorem Swept.all_or_none {slots : Array (Slot κ ν)} (h : Swept slots) (hcount : liveCount slots = 0) :
    (∀ i < slots.size, slots[i]? = some .vacant) ∨ ∀ i : Nat, slots[i]? ≠ some .vacant := by
  have hfree : ∀ (i : Nat) (k : κ) (v : ν), slots[i]? ≠ some (.live k v) := by
    intro i k v hi
    have hnot := Array.countP_eq_zero.mp hcount _ (Array.mem_of_getElem? hi)
    simp at hnot
  refine or_iff_not_imp_right.mpr fun hvacant i hi => ?_
  cases hslot : slots[i] with
  | vacant => rw [Array.getElem?_eq_getElem hi, hslot]
  | live k v => exact absurd (by rw [Array.getElem?_eq_getElem hi, hslot]) (hfree i k v)
  | buried =>
    rcases h.run_ends (i := i) (by rw [Array.getElem?_eq_getElem hi, hslot]) with ⟨d, -, k, v, hd⟩ | hnone
    · exact absurd hd (hfree _ k v)
    · exact absurd hnone hvacant

/-! ## Paths

A path is given here by its places, and it is at most once around the ring, as one would draw it.  The way
that `Tidy` speaks of may be longer by whole turns, of which the path is the end, so no vacant slot is on it
either. -/

omit [DecidableEq κ] in
/-- The place is on the path from the home of a key to its entry, both included. -/
def OnPath (slots : Array (Slot κ ν)) (key : κ) (place : Nat) : Prop :=
  ∃ d < slots.size, (∃ v, slots[(home slots key + d) % slots.size]? = some (.live key v)) ∧
    ∃ e ≤ d, (home slots key + e) % slots.size = place

omit [DecidableEq κ] in
/-- **No vacant slot is on a path.** -/
theorem Tidy.not_onPath {reach place : Nat} {slots : Array (Slot κ ν)} (h : Tidy reach slots)
    (hplace : slots[place]? = some .vacant) (key : κ) : ¬ OnPath slots key place := by
  rintro ⟨d, hd, ⟨v, hlive⟩, e, he, rfl⟩
  obtain ⟨d', -, hend, hway⟩ := h.path _ key v hlive
  -- the way there may be given with some turns around the ring, which are left out
  have hsame : d' % slots.size = d := by
    have hmod : d' ≡ d [MOD slots.size] := Nat.ModEq.add_left_cancel' (home slots key) hend
    rw [← Nat.mod_eq_of_lt hd]
    exact hmod
  have hle : d ≤ d' := hsame ▸ Nat.mod_le _ _
  rcases Nat.eq_or_lt_of_le he with rfl | hlt
  · rw [hlive] at hplace
    cases hplace
  · exact hway e (Nat.lt_of_lt_of_le hlt hle) hplace

/-! ## The whole -/

/-- **Buried slots do not pile up in front of vacant ones**, for every capacity and every hash.  After any
operations on the empty table no buried slot has a vacant successor.  So a run of buried slots ends at an
entry, or no slot is vacant at all; and a table without entries has only vacant slots, or none.  When an
entry is erased, the slots that become vacant are on the path of no entry that is left. -/
theorem buried_never_pile_up (capacity : Nat) (fresh : ν) (ops : List (TableOp κ ν)) :
    let t := ((empty capacity : OpenTable κ ν).run fresh ops).2
    (∀ i : Nat, t.slots[i]? = some .buried → t.slots[(i + 1) % t.slots.size]? ≠ some .vacant) ∧
      (∀ i : Nat, t.slots[i]? = some .buried →
        (∃ d, (∀ e < d, t.slots[(i + e) % t.slots.size]? = some .buried) ∧
          ∃ k v, t.slots[(i + d) % t.slots.size]? = some (.live k v)) ∨
        ∀ j : Nat, t.slots[j]? ≠ some .vacant) ∧
      (t.size = 0 →
        (∀ i < t.slots.size, t.slots[i]? = some .vacant) ∨ ∀ i : Nat, t.slots[i]? ≠ some .vacant) ∧
      ∀ (key : κ) (i : Nat), t.slots[i]? ≠ some .vacant → (t.erase key).2.slots[i]? = some .vacant →
        ∀ k, ¬ OnPath (t.erase key).2.slots k i := by
  intro t
  have hswept : Swept t.slots := kept_swept.run fresh ops (swept_empty capacity)
  have hwell : WellFormed t := kept_wellFormed.run fresh ops (wellFormed_empty capacity)
  refine ⟨hswept, fun i hi => hswept.run_ends hi, fun hsize => ?_, fun key i _ hi => ?_⟩
  · exact hswept.all_or_none (hwell.counted.trans hsize)
  · exact (hwell.erase key).tidy.not_onPath hi

/-- Two keys of one home, of which the first is erased again.  Its slot stays buried, since the entry behind
it came past it, and becomes vacant with the other when that is erased too. -/
theorem buried_never_pile_up_at_one_home :
    let t := ((empty 2 : OpenTable Nat Unit).run () [.claim 0, .claim 4, .erase 0]).2
    (t.slots[0]? = some .buried ∧ t.slots[2]? = some .vacant ∧
        ∃ d, (∀ e < d, t.slots[(0 + e) % t.slots.size]? = some .buried) ∧
          ∃ k v, t.slots[(0 + d) % t.slots.size]? = some (.live k v)) ∧
      (t.erase 4).2.slots[0]? = some .vacant ∧ ∀ k, ¬ OnPath (t.erase 4).2.slots k 0 := by
  have hpiled := buried_never_pile_up (κ := Nat) 2 () [.claim 0, .claim 4, .erase 0]
  exact ⟨⟨rfl, rfl, (hpiled.2.1 0 rfl).resolve_right fun hnone => hnone 2 rfl⟩, rfl,
    hpiled.2.2.2 4 0 nofun rfl⟩

end OpenTable

end Shaping
