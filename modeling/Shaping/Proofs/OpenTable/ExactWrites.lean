import Shaping.Proofs.OpenTable.Exact
import Mathlib.Algebra.Group.Nat.Defs

/-!
# Changes to open tables in exact arithmetic

Making a table, claiming an entry and erasing one, in exact arithmetic.  A table is made if the number of its
slots is a word, which it is for up to `2 ^ 62` entries (`emptyExact_eq`); whether there is so much memory is
not asked here.  Claiming and erasing go around the ring of slots like a look-up, the sweep after an erasure
the other way around, where the place before the first is the last: on the machine the difference wraps, and
the mask makes the largest word the last place.

A table that is `Addressable` is still so after each slot that is written, because their number stays the same.
So neither traps on such a table, whatever is in it (`claimExact_eq`, `eraseExact_eq`).

What is new against a look-up is only the place before a place.  There the machine has `2 ^ 64 - 1` at the
first slot, where the definition has the number of slots less one.  The mask takes the one to the other
because the number of slots divides the number of words, being a smaller power of the same number; no other
size of the ring would do.
-/

set_option autoImplicit false

namespace Shaping

namespace OpenTable

variable {κ ν : Type}

/-! ## Exact forms -/

/-- `empty` in exact arithmetic, given that there is enough memory. -/
def emptyExact (capacity : Nat) : Except Trap (OpenTable κ ν) := do
  let _ ← Word.exact .addition (slotCount (max capacity 1))
  return empty capacity

/-- `freeDistance?` in exact arithmetic. -/
def freeDistanceExact (slots : Array (Slot κ ν)) (start distance : Nat) :
    Nat → Except Trap (Option Nat)
  | 0 => return none
  | n + 1 => do
    let slot ← element slots (← placeExact slots start distance)
    if slot.isFree then return some distance
    else freeDistanceExact slots start (distance + 1) n

/-- The place before a place.  The difference wraps before it is masked. -/
def placeBeforeExact (slots : Array (Slot κ ν)) (place : Nat) : Except Trap Nat := do
  let mask ← Word.sub (.ofNat slots.size) 1
  return ((UInt64.ofNat place - 1) &&& mask).toNat

/-- `sweep` in exact arithmetic. -/
def sweepExact (slots : Array (Slot κ ν)) (place : Nat) : Nat → Except Trap (Array (Slot κ ν))
  | 0 => return slots
  | n + 1 => do
    let next ← element slots (← placeExact slots place 1)
    let here ← element slots place
    match next, here with
    | .vacant, .buried =>
      let swept := slots.setIfInBounds place .vacant
      sweepExact swept (← placeBeforeExact swept place) n
    | _, _ => return slots

section

variable [DecidableEq κ] [Hashable κ]

/-- `claim` in exact arithmetic. -/
def claimExact (t : OpenTable κ ν) (key : κ) (fresh : ν) :
    Except Trap (Except TableFull (Bool × OpenTable κ ν)) := do
  if (← t.findExact key).isSome then return .ok (false, t)
  else if t.capacity ≤ t.size then return .error ⟨t.capacity⟩
  else
    let start ← homeExact t.slots key
    match ← freeDistanceExact t.slots start 0 t.slots.size with
    | none => return .error ⟨t.capacity⟩
    | some d =>
      let place ← placeExact t.slots start d
      let _ ← element t.slots place
      return .ok (true, ⟨t.slots.setIfInBounds place (.live key fresh), t.capacity, max t.reach d,
        t.size + 1⟩)

/-- `erase` in exact arithmetic. -/
def eraseExact (t : OpenTable κ ν) (key : κ) : Except Trap (Bool × OpenTable κ ν) := do
  match ← t.findExact key with
  | none => return (false, t)
  | some i =>
    let _ ← element t.slots i
    let slots := t.slots.setIfInBounds i .buried
    return (true, ⟨← sweepExact slots i slots.size, t.capacity, t.reach, t.size - 1⟩)

end

/-! ## They agree

The sweep is compared by induction on its steps.  Each step goes on with other slots, so the induction is
for all slots that can be addressed, and not for those of one table. -/

/-- Up to `2 ^ 62` entries the slots can be counted. -/
theorem slotCount_lt {capacity : Nat} (h : capacity ≤ 2 ^ 62) :
    slotCount (max capacity 1) < UInt64.size := by
  have hlarge : max capacity 1 ≤ 2 ^ 62 := by omega
  have hlog : (2 * max capacity 1 - 1).log2 < 63 := by
    rw [Nat.log2_lt (by omega)]
    omega
  rw [slotCount, Nat.one_shiftLeft]
  exact Nat.pow_lt_pow_right Nat.one_lt_two (Nat.succ_lt_succ hlog)

theorem emptyExact_eq {capacity : Nat} (h : slotCount (max capacity 1) < UInt64.size) :
    (emptyExact capacity : Except Trap (OpenTable κ ν)) = pure (empty capacity) := by
  rw [emptyExact, Word.exact, if_pos h]
  rfl

variable {t : OpenTable κ ν} (h : t.Addressable)

include h in
theorem freeDistanceExact_eq {start : Nat} (hstart : start < t.slots.size) (n : Nat) {distance : Nat}
    (hn : distance + n ≤ t.slots.size) :
    freeDistanceExact t.slots start distance n = pure (freeDistance? t.slots start distance n) := by
  induction n generalizing distance with
  | zero => rfl
  | succ n ih =>
    have hslot := Array.getElem?_eq_getElem (Nat.mod_lt (start + distance) h.pos)
    rw [freeDistanceExact, placeExact_eq h hstart (by omega), pure_bind, element_of_some hslot, pure_bind,
      freeDistance?, hslot]
    dsimp only
    split
    · rfl
    · exact ih (by omega)

include h in
/-- Before the first place comes the last one. -/
theorem placeBeforeExact_eq {place : Nat} (hplace : place < t.slots.size) :
    placeBeforeExact t.slots place = pure ((place + t.slots.size - 1) % t.slots.size) := by
  have hsmall := h.small
  have hpos := h.pos
  obtain ⟨k, hk⟩ := h.power
  have hword : (UInt64.ofNat place).toNat = place := UInt64.toNat_ofNat_of_lt' (by omega)
  have hone : (1 : UInt64) ≤ .ofNat t.slots.size := by
    rw [UInt64.le_iff_toNat_le, h.toNat_size]
    exact hpos
  have hmask : ∀ n, n &&& (t.slots.size - 1) = n % t.slots.size := fun n => by
    rw [hk]
    exact Nat.and_two_pow_sub_one_eq_mod _ _
  -- the ring has a number of slots that divides the number of words
  have hdvd : t.slots.size ∣ 2 ^ 64 := by
    have hle : 2 ^ k ≤ 2 ^ 64 := by
      rw [← hk]
      exact Nat.le_trans (Nat.le_mul_of_pos_left _ Nat.two_pos) hsmall
    rw [hk]
    exact Nat.pow_dvd_pow 2 ((Nat.pow_le_pow_iff_right Nat.one_lt_two).mp hle)
  rw [placeBeforeExact, Word.sub_of_le hone, pure_bind, UInt64.toNat_and,
    UInt64.toNat_sub_of_le _ _ hone, h.toNat_size]
  refine congrArg pure ((hmask _).trans ?_)
  obtain ⟨m, hm⟩ := hdvd
  have hm' : t.slots.size * (m - 1) + t.slots.size = 2 ^ 64 := by
    rw [← Nat.mul_succ, Nat.succ_eq_add_one, Nat.sub_add_cancel (Nat.pos_of_ne_zero ?_), hm]
    rintro rfl
    cases hm
  have hwrapped : 2 ^ 64 - (1 : UInt64).toNat + place
      = place + t.slots.size - 1 + t.slots.size * (m - 1) := by
    rw [UInt64.toNat_one]
    omega
  rw [UInt64.toNat_sub, hword, Nat.mod_mod_of_dvd _ ⟨m, hm⟩, hwrapped, Nat.add_mul_mod_self_left]

omit h in
/-- The sweep writes one slot after the other, and never changes their number. -/
theorem sweepExact_eq {capacity reach size : Nat} {slots : Array (Slot κ ν)}
    (h : (⟨slots, capacity, reach, size⟩ : OpenTable κ ν).Addressable) {place : Nat}
    (hplace : place < slots.size) (n : Nat) : sweepExact slots place n = pure (sweep slots place n) := by
  induction n generalizing slots place with
  | zero => rfl
  | succ n ih =>
    have hpos : 0 < slots.size := h.pos
    have hmod : (place + 1) % slots.size < slots.size := Nat.mod_lt _ hpos
    have hnext := Array.getElem?_eq_getElem hmod
    have hhere := Array.getElem?_eq_getElem hplace
    rw [sweepExact, placeExact_eq h hplace hpos, pure_bind, element_of_some hnext, pure_bind,
      element_of_some hhere, pure_bind, sweep, hnext, hhere]
    cases slots[(place + 1) % slots.size] <;> cases slots[place] <;> try rfl
    -- a buried slot in front of a vacant one
    have hsize : (slots.setIfInBounds place .vacant).size = slots.size := Array.size_setIfInBounds
    have hswept := h.replace hsize h.reach_lt capacity size
    have hlt : place < (slots.setIfInBounds place .vacant).size := hsize ▸ hplace
    dsimp only
    rw [placeBeforeExact_eq hswept hlt, pure_bind]
    exact ih hswept (Nat.mod_lt _ hswept.pos)

variable [DecidableEq κ] [Hashable κ]

include h in
/-- **A claim never traps.** -/
theorem claimExact_eq (key : κ) (fresh : ν) : t.claimExact key fresh = pure (t.claim key fresh) := by
  have hstart : home t.slots key < t.slots.size := Nat.mod_lt _ h.pos
  rw [claimExact, findExact_eq h, pure_bind, claim, contains]
  split
  · rfl
  · split
    · rfl
    · rw [homeExact_eq h, pure_bind, freeDistanceExact_eq h hstart _ (Nat.le_of_eq (Nat.zero_add _)),
        pure_bind]
      dsimp only
      cases hfree : freeDistance? t.slots (home t.slots key) 0 t.slots.size with
      | none => rfl
      | some d =>
        have hd := freeDistance?_lt hfree
        have hslot := Array.getElem?_eq_getElem (Nat.mod_lt (home t.slots key + d) h.pos)
        dsimp only
        rw [placeExact_eq h hstart (by omega), pure_bind, element_of_some hslot, pure_bind]

include h in
/-- **An erasure never traps.** -/
theorem eraseExact_eq (key : κ) : t.eraseExact key = pure (t.erase key) := by
  rw [eraseExact, findExact_eq h, pure_bind, erase]
  cases hfind : t.find? key with
  | none => rfl
  | some i =>
    obtain ⟨v, hv⟩ := live_of_search hfind
    have hsize : (t.slots.setIfInBounds i .buried).size = t.slots.size := Array.size_setIfInBounds
    have hi : i < (t.slots.setIfInBounds i .buried).size := by
      rw [hsize]
      exact (Array.getElem?_eq_some_iff.mp hv).1
    dsimp only
    rw [element_of_some hv, pure_bind, sweepExact_eq (h.replace hsize h.reach_lt t.capacity t.size) hi,
      pure_bind]

end OpenTable

end Shaping
