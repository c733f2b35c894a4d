import Shaping.Word

/-!
# Tables of fixed capacity

An `OpenTable` is a finite map that never grows: it is told at the start how many entries it may
hold, and `OpenTable.claim` refuses the entry that would be one too many.  What it stands for is the
map `OpenTable.get?`; the rest of this module is about finding an entry without looking at all of
them.

Entries live in a ring of slots, at least twice as many as there may be entries.  A key has a *home*
given by its hash, and its entry is in the first slot from home on that was free when it was claimed.
So a look-up starts at home and goes on until it finds the key, or a slot that is `Slot.vacant`, or
has gone as far as any entry was ever put (`OpenTable.reach`).

## Removal

A slot in the middle of such a path must not become vacant, or the entries behind it are lost.
`OpenTable.erase` leaves a `Slot.buried` slot behind, which look-ups pass over and claims may use
again.  Left alone, buried slots would pile up until every failing look-up has to go through all of
them.  Only a buried slot with an occupied slot somewhere behind it is needed, though: one whose
successor is vacant ends no path that a vacant slot would not end as well.  So `sweep` walks backwards
from the slot just buried and makes slots vacant as long as that holds.

Two properties follow, for every hash: between the home of a key and its entry no slot is vacant, and
no buried slot has a vacant successor.
-/

set_option autoImplicit false

namespace Shaping

/-- A place for an entry. -/
inductive Slot (κ ν : Type) where
  /-- Never used, or free again with nothing behind it. -/
  | vacant
  /-- Freed, with entries behind it that may have come past it. -/
  | buried
  /-- In use. -/
  | live (key : κ) (value : ν)

/-- Is the slot free for a new entry? -/
def Slot.isFree {κ ν : Type} : Slot κ ν → Bool
  | .live _ _ => false
  | _ => true

/-- A finite map of bounded size. -/
structure OpenTable (κ ν : Type) where
  slots : Array (Slot κ ν)
  /-- The number of entries that the table may hold. -/
  capacity : Nat
  /-- The longest distance from home at which an entry was ever put. -/
  reach : Nat
  /-- The number of entries. -/
  size : Nat

/-- A table refused a new entry, being full with this many. -/
structure TableFull where
  capacity : Nat
  deriving DecidableEq

/-- The words for a full table. -/
def TableFull.message (e : TableFull) : String := s!"table full ({e.capacity} entries)"

namespace OpenTable

variable {κ ν β : Type}

/-! ## Making a table -/

/-- The number of slots for so many entries: the next power of two from twice as many on. -/
def slotCount (capacity : Nat) : Nat := 1 <<< ((2 * capacity - 1).log2 + 1)

/-- The table without entries.  It has room for at least one. -/
def empty (capacity : Nat) : OpenTable κ ν where
  slots := Array.replicate (slotCount (max capacity 1)) .vacant
  capacity := max capacity 1
  reach := 0
  size := 0

/-- The bytes of memory taken by the smallest slot there is. -/
def slotBytes : Nat := 40

/-- Can a table of this capacity be addressed?  The number of slots has to be a word, and their bytes
have to fit into half of the address space. -/
def checkCapacity (capacity : Nat) : Except Trap Unit :=
  if UInt64.size ≤ slotCount (max capacity 1) then .error .addition
  else if UInt64.size / 2 ≤ slotCount (max capacity 1) * slotBytes then .error .allocation
  else .ok ()

/-! ## Finding entries -/

variable [DecidableEq κ] [Hashable κ]

/-- The place at which the path of a key starts. -/
def home (slots : Array (Slot κ ν)) (key : κ) : Nat := (hash key).toNat % slots.size

/-- Look for a key in the `n` slots from `place` on. -/
def search (slots : Array (Slot κ ν)) (key : κ) (place : Nat) : Nat → Option Nat
  | 0 => none
  | n + 1 =>
    match slots[place % slots.size]? with
    | some (.live k _) =>
      if k = key then some (place % slots.size) else search slots key (place + 1) n
    | some .buried => search slots key (place + 1) n
    | _ => none

/-- The place of a key's entry. -/
def find? (t : OpenTable κ ν) (key : κ) : Option Nat :=
  search t.slots key (home t.slots key) (t.reach + 1)

/-- The value of a key. -/
def get? (t : OpenTable κ ν) (key : κ) : Option ν :=
  match t.find? key with
  | none => none
  | some i =>
    match t.slots[i]? with
    | some (.live _ v) => some v
    | _ => none

/-- Has the key an entry? -/
def contains (t : OpenTable κ ν) (key : κ) : Bool := (t.find? key).isSome

/-- Is the table without entries? -/
def isEmpty (t : OpenTable κ ν) : Bool := t.size == 0

omit [DecidableEq κ] [Hashable κ] in
/-- The entries, in the order of their slots. -/
def toList (t : OpenTable κ ν) : List (κ × ν) :=
  t.slots.toList.filterMap fun
    | .live k v => some (k, v)
    | _ => none

/-! ## Changing entries -/

/-- Replace the value of a key by what `f` makes of it, and hand out what else `f` gives.  Nothing
happens if the key has no entry. -/
def visit (t : OpenTable κ ν) (key : κ) (f : ν → β × ν) : Option β × OpenTable κ ν :=
  match t.find? key with
  | none => (none, t)
  | some i =>
    match t with
    | ⟨slots, capacity, reach, size⟩ =>
      match slots[i]? with
      | some (.live k v) =>
        match f v with
        | (b, v) => (some b, ⟨slots.setIfInBounds i (.live k v), capacity, reach, size⟩)
      | _ => (none, ⟨slots, capacity, reach, size⟩)

/-- Replace the value of a key by what `f` makes of it, if it has an entry. -/
def modify (t : OpenTable κ ν) (key : κ) (f : ν → ν) : OpenTable κ ν :=
  (t.visit key fun v => ((), f v)).2

omit [DecidableEq κ] [Hashable κ] in
/-- The distance from `start` to the first free slot, given that `n` slots are left to look at and
`distance` were passed. -/
def freeDistance? (slots : Array (Slot κ ν)) (start distance : Nat) : Nat → Option Nat
  | 0 => none
  | n + 1 =>
    match slots[(start + distance) % slots.size]? with
    | some s => if s.isFree then some distance else freeDistance? slots start (distance + 1) n
    | none => none

/-- Make sure that a key has an entry.  A key that has none gets one with the value `fresh`; the
answer says whether that happened. -/
def claim (t : OpenTable κ ν) (key : κ) (fresh : ν) : Except TableFull (Bool × OpenTable κ ν) :=
  if t.contains key then .ok (false, t)
  else if t.capacity ≤ t.size then .error ⟨t.capacity⟩
  else
    match t with
    | ⟨slots, capacity, reach, size⟩ =>
      let start := home slots key
      match freeDistance? slots start 0 slots.size with
      | none => .error ⟨capacity⟩
      | some d =>
        .ok (true, ⟨slots.setIfInBounds ((start + d) % slots.size) (.live key fresh), capacity,
          max reach d, size + 1⟩)

omit [DecidableEq κ] [Hashable κ] in
/-- Walk backwards from `place`, over at most `n` slots, and make every buried slot vacant whose
successor is. -/
def sweep (slots : Array (Slot κ ν)) (place : Nat) : Nat → Array (Slot κ ν)
  | 0 => slots
  | n + 1 =>
    match slots[(place + 1) % slots.size]?, slots[place]? with
    | some .vacant, some .buried =>
      let swept := slots.setIfInBounds place .vacant
      sweep swept ((place + swept.size - 1) % swept.size) n
    | _, _ => slots

/-- Remove the entry of a key.  The answer says whether there was one. -/
def erase (t : OpenTable κ ν) (key : κ) : Bool × OpenTable κ ν :=
  match t.find? key with
  | none => (false, t)
  | some i =>
    match t with
    | ⟨slots, capacity, reach, size⟩ =>
      let slots := slots.setIfInBounds i .buried
      (true, ⟨sweep slots i slots.size, capacity, reach, size - 1⟩)

end OpenTable

end Shaping
