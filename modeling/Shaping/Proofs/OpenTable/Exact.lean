import Shaping.Proofs.OpenTable.Entries

/-!
# Open tables in exact arithmetic

A look-up goes around a ring of slots.  On the machine places are words: a distance is added to home, and the
sum is masked by the number of slots less one.  That comes to the remainder that the definitions speak of if
the number of slots is a power of two, and the sum is a word if there are not too many slots; a table of which
both is true is `Addressable`.  Every table is that was made at all (`addressable_empty`), and it stays so
whatever is done to it (`kept_addressable`).

So the exact forms of reading and of visiting an entry agree with them on every table that can come about
(`getExact_eq`, `visitExact_eq`).  It does not matter what is in the slots.

Being addressable says nothing of the slots but their number.  It would be possible to use `WellFormed`
here, but what a table holds while it is being written is not well formed, and the exact forms must not trap
there either.  A property that looks at the number of slots alone goes through every write at no cost
(`Addressable.replace`).
-/

set_option autoImplicit false

namespace Shaping

namespace OpenTable

variable {κ ν β : Type}

/-! ## Tables that can be addressed -/

/-- What has to be known of a table so that its places can be worked out. -/
structure Addressable (t : OpenTable κ ν) : Prop where
  /-- The number of slots can be used as a mask. -/
  power : t.slots.size.isPowerOfTwo
  /-- A place and a distance add up to a word. -/
  small : 2 * t.slots.size ≤ UInt64.size
  /-- No entry is further from home than there are slots. -/
  reach_lt : t.reach < t.slots.size

namespace Addressable

variable {t : OpenTable κ ν}

theorem pos (h : t.Addressable) : 0 < t.slots.size := Nat.zero_lt_of_lt h.reach_lt

/-- Only the number of slots matters. -/
theorem replace (h : t.Addressable) {slots : Array (Slot κ ν)} (hsize : slots.size = t.slots.size)
    {reach : Nat} (hreach : reach < t.slots.size) (capacity size : Nat) :
    Addressable ⟨slots, capacity, reach, size⟩ := by
  refine ⟨?_, ?_, ?_⟩
  · rw [hsize]
    exact h.power
  · rw [hsize]
    exact h.small
  · rw [hsize]
    exact hreach

end Addressable

/-- A table can be addressed if the number of its slots is a word. -/
theorem addressable_empty_of_lt {capacity : Nat} (h : slotCount (max capacity 1) < UInt64.size) :
    (empty capacity : OpenTable κ ν).Addressable := by
  have hpower : slotCount (max capacity 1) = 2 ^ ((2 * max capacity 1 - 1).log2 + 1) := by
    rw [slotCount, Nat.one_shiftLeft]
  have hpos : 0 < slotCount (max capacity 1) := by
    rw [hpower]
    exact Nat.two_pow_pos _
  have hsize : (empty capacity : OpenTable κ ν).slots.size = slotCount (max capacity 1) :=
    Array.size_replicate
  refine ⟨⟨_, hsize.trans hpower⟩, ?_, hsize ▸ hpos⟩
  -- the number of slots is a power of two, so there are no more than half as many slots as words
  have hhalf : 2 ^ ((2 * max capacity 1 - 1).log2 + 1) < 2 ^ 64 := hpower ▸ h
  have hexponent := (Nat.pow_lt_pow_iff_right Nat.one_lt_two).mp hhalf
  rw [hsize, hpower, ← Nat.pow_succ']
  exact Nat.pow_le_pow_right Nat.two_pos hexponent

/-- **A table that can be made can be addressed.** -/
theorem addressable_empty {capacity : Nat} (h : checkCapacity capacity = .ok ()) :
    (empty capacity : OpenTable κ ν).Addressable := by
  refine addressable_empty_of_lt (Nat.lt_of_not_le fun hle => ?_)
  rw [checkCapacity, if_pos hle] at h
  cases h

theorem size_sweep (slots : Array (Slot κ ν)) (place n : Nat) :
    (sweep slots place n).size = slots.size := by
  induction n generalizing slots place with
  | zero => rfl
  | succ n ih =>
    rw [sweep]
    split
    · rw [ih, Array.size_setIfInBounds]
    · rfl

/-- A free slot is looked for once around. -/
theorem freeDistance?_lt {slots : Array (Slot κ ν)} {start distance n d : Nat}
    (h : freeDistance? slots start distance n = some d) : d < distance + n := by
  fun_induction freeDistance? slots start distance n with
  | case1 => cases h
  | case2 => cases h; omega
  | case3 _ _ _ _ _ ih =>
    have := ih h
    omega
  | case4 => cases h

variable [DecidableEq κ] [Hashable κ]

namespace Addressable

variable {t : OpenTable κ ν}

theorem visit (h : t.Addressable) (key : κ) (f : ν → β × ν) : (t.visit key f).2.Addressable := by
  rcases visit_eq t key f with ⟨-, hvisit⟩ | ⟨i, v, -, -, hvisit⟩
  · rw [hvisit]
    exact h
  · rw [hvisit]
    exact h.replace Array.size_setIfInBounds h.reach_lt _ _

theorem claim (h : t.Addressable) {key : κ} {fresh : ν} {created : Bool} {t' : OpenTable κ ν}
    (hclaim : t.claim key fresh = .ok (created, t')) : t'.Addressable := by
  rw [OpenTable.claim] at hclaim
  split at hclaim
  · cases hclaim
    exact h
  · split at hclaim
    · cases hclaim
    · dsimp only at hclaim
      split at hclaim
      · cases hclaim
      · rename_i d hd
        cases hclaim
        have hlt : d < t.slots.size := by
          have := freeDistance?_lt hd
          rwa [Nat.zero_add] at this
        exact h.replace Array.size_setIfInBounds (Nat.max_lt.mpr ⟨h.reach_lt, hlt⟩) _ _

theorem erase (h : t.Addressable) (key : κ) : (t.erase key).2.Addressable := by
  rw [OpenTable.erase]
  split
  · exact h
  · exact h.replace (by rw [size_sweep, Array.size_setIfInBounds]) h.reach_lt _ _

end Addressable

theorem kept_addressable : Kept (Addressable : OpenTable κ ν → Prop) where
  claim _ _ _ _ _ h hclaim := h.claim hclaim
  visit _ key f h := h.visit key f
  erase _ key h := h.erase key

/-! ## Exact forms

Only what can trap is written anew: an element that is not there, a remainder by zero, a sum that is no
word.  The recursion of `searchExact` has the distance as an argument where `search` has the place, because
the machine adds the distance to home each time.  The two are compared by induction on the number of slots
left, with the bound that this number and the distance make no more than the ring; it holds at the start
because the reach of a table is less than the number of its slots. -/

/-- `home` in exact arithmetic. -/
def homeExact (slots : Array (Slot κ ν)) (key : κ) : Except Trap Nat := do
  return (← Word.rem (hash key) (.ofNat slots.size)).toNat

omit [DecidableEq κ] [Hashable κ] in
/-- The place that is so far behind the start of a path. -/
def placeExact (slots : Array (Slot κ ν)) (start distance : Nat) : Except Trap Nat := do
  let place ← Word.add (.ofNat start) (.ofNat distance)
  let mask ← Word.sub (.ofNat slots.size) 1
  return (place &&& mask).toNat

omit [Hashable κ] in
/-- `search` in exact arithmetic, with `n` slots left to look at and `distance` passed. -/
def searchExact (slots : Array (Slot κ ν)) (key : κ) (start distance : Nat) :
    Nat → Except Trap (Option Nat)
  | 0 => return none
  | n + 1 => do
    let place ← placeExact slots start distance
    match ← element slots place with
    | .live k _ =>
      if k = key then return some place else searchExact slots key start (distance + 1) n
    | .buried => searchExact slots key start (distance + 1) n
    | .vacant => return none

/-- `find?` in exact arithmetic. -/
def findExact (t : OpenTable κ ν) (key : κ) : Except Trap (Option Nat) := do
  searchExact t.slots key (← homeExact t.slots key) 0 (t.reach + 1)

/-- `get?` in exact arithmetic. -/
def getExact (t : OpenTable κ ν) (key : κ) : Except Trap (Option ν) := do
  match ← t.findExact key with
  | none => return none
  | some i =>
    match ← element t.slots i with
    | .live _ v => return some v
    | _ => return none

/-- `visit` in exact arithmetic. -/
def visitExact (t : OpenTable κ ν) (key : κ) (f : ν → Except Trap (β × ν)) :
    Except Trap (Option β × OpenTable κ ν) := do
  match ← t.findExact key with
  | none => return (none, t)
  | some i =>
    match ← element t.slots i with
    | .live k v =>
      let (b, v) ← f v
      return (some b, ⟨t.slots.setIfInBounds i (.live k v), t.capacity, t.reach, t.size⟩)
    | _ => return (none, t)

variable {t : OpenTable κ ν} (h : t.Addressable)

omit [DecidableEq κ] [Hashable κ] in
include h in
theorem Addressable.toNat_size : (UInt64.ofNat t.slots.size).toNat = t.slots.size := by
  have hsmall := h.small
  have hpos := h.pos
  exact UInt64.toNat_ofNat_of_lt' (by omega)

omit [DecidableEq κ] in
include h in
theorem homeExact_eq (key : κ) : homeExact t.slots key = pure (home t.slots key) := by
  have hne : UInt64.ofNat t.slots.size ≠ 0 := by
    intro hzero
    have hsize := h.toNat_size
    rw [hzero] at hsize
    exact absurd h.pos (by rw [← hsize]; decide)
  rw [homeExact, Word.rem_of_ne_zero _ hne, pure_bind, UInt64.toNat_mod, h.toNat_size, home]

omit [DecidableEq κ] [Hashable κ] in
include h in
/-- Masking a place comes to taking its remainder. -/
theorem placeExact_eq {start distance : Nat} (hstart : start < t.slots.size)
    (hdistance : distance ≤ t.slots.size) :
    placeExact t.slots start distance = pure ((start + distance) % t.slots.size) := by
  have hsmall := h.small
  obtain ⟨k, hk⟩ := h.power
  have hs : (UInt64.ofNat start).toNat = start := UInt64.toNat_ofNat_of_lt' (by omega)
  have hd : (UInt64.ofNat distance).toNat = distance := UInt64.toNat_ofNat_of_lt' (by omega)
  have hsum : (UInt64.ofNat start).toNat + (UInt64.ofNat distance).toNat < UInt64.size := by omega
  have hone : (1 : UInt64) ≤ .ofNat t.slots.size := by
    rw [UInt64.le_iff_toNat_le, h.toNat_size]
    exact h.pos
  rw [placeExact, Word.add_of_lt hsum, pure_bind, Word.sub_of_le hone, pure_bind, UInt64.toNat_and,
    UInt64.toNat_sub_of_le _ _ hone, h.toNat_size, UInt64.toNat_add, Nat.mod_eq_of_lt hsum, hs, hd, hk]
  exact congrArg pure (Nat.and_two_pow_sub_one_eq_mod _ _)

omit [Hashable κ] in
include h in
theorem searchExact_eq (key : κ) {start : Nat} (hstart : start < t.slots.size) (n : Nat)
    {distance : Nat} (hn : distance + n ≤ t.slots.size) :
    searchExact t.slots key start distance n = pure (search t.slots key (start + distance) n) := by
  induction n generalizing distance with
  | zero => rfl
  | succ n ih =>
    have hlt : (start + distance) % t.slots.size < t.slots.size := Nat.mod_lt _ h.pos
    have hslot := Array.getElem?_eq_getElem hlt
    have hnext : searchExact t.slots key start (distance + 1) n
        = pure (search t.slots key (start + distance + 1) n) := ih (by omega)
    rw [searchExact, placeExact_eq h hstart (by omega), pure_bind, element_of_some hslot, pure_bind,
      search, hslot]
    cases t.slots[(start + distance) % t.slots.size] with
    | vacant => rfl
    | buried => exact hnext
    | live k v =>
      dsimp only
      split
      · rfl
      · exact hnext

include h in
theorem findExact_eq (key : κ) : t.findExact key = pure (t.find? key) := by
  rw [findExact, homeExact_eq h, pure_bind, find?]
  exact searchExact_eq h key (Nat.mod_lt _ h.pos) _ (by have := h.reach_lt; omega)

include h in
/-- **A look-up never traps.** -/
theorem getExact_eq (key : κ) : t.getExact key = pure (t.get? key) := by
  rw [getExact, findExact_eq h, pure_bind, get?]
  cases hfind : t.find? key with
  | none => rfl
  | some i =>
    obtain ⟨v, hv⟩ := live_of_search hfind
    dsimp only
    rw [element_of_some hv, pure_bind, hv]

include h in
/-- **A visit never traps**, unless what is done there does. -/
theorem visitExact_eq (key : κ) {f : ν → Except Trap (β × ν)} {g : ν → β × ν}
    (hf : ∀ v, f v = pure (g v)) : t.visitExact key f = pure (t.visit key g) := by
  rw [visitExact, findExact_eq h, pure_bind, visit]
  cases hfind : t.find? key with
  | none => rfl
  | some i =>
    obtain ⟨v, hv⟩ := live_of_search hfind
    dsimp only
    rw [element_of_some hv, pure_bind, hv]
    dsimp only
    rw [hf, pure_bind]

end OpenTable

end Shaping
