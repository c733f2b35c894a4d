import Shaping.Basic

/-!
# Addresses and the keys they are looked up by

An `Address` is an internet address of either family.  The directory of pods does not want two
families: a packet may carry the address of a pod in either form, since a socket that serves both
families sees IPv4 peers as IPv6 addresses of the *mapped* range.  So the directory is keyed by
`AddressKey`, a single number of 128 bits, into which IPv4 addresses are mapped (`Address.key`).  Two
addresses have the same key only if they are the same or one is the mapped form of the other.

`AddressKey.address` goes back, and prefers the IPv4 form.  `AddressKey.words` cuts a key into the two
words that it is stored as.
-/

set_option autoImplicit false

namespace Shaping

/-- An internet address. -/
inductive Address where
  | v4 (bits : BitVec 32)
  | v6 (bits : BitVec 128)
  deriving DecidableEq

/-- The number under which an address is filed. -/
abbrev AddressKey := BitVec 128

namespace AddressKey

/-- What the upper 96 bits of a mapped IPv4 address are. -/
def mappedRange : BitVec 96 := 0xFFFF

/-- The mapped form of an IPv4 address. -/
def ofV4 (bits : BitVec 32) : AddressKey := mappedRange ++ bits

/-- The IPv4 address that a key is the mapped form of. -/
def v4? (key : AddressKey) : Option (BitVec 32) :=
  if key.extractLsb' 32 96 = mappedRange then some (key.extractLsb' 0 32) else none

/-- What is cut in two can be put together again. -/
theorem append_extractLsb' (upper lower : Nat) (x : BitVec (upper + lower)) :
    x.extractLsb' lower upper ++ x.extractLsb' 0 lower = x := by
  rw [BitVec.extractLsb'_append_extractLsb'_eq_extractLsb' (Nat.zero_add lower).symm,
    BitVec.extractLsb'_eq_self]

/-- A key in the mapped range is the mapped form of its lower bits. -/
theorem ofV4_of_v4? {key : AddressKey} {bits : BitVec 32} (h : v4? key = some bits) : ofV4 bits = key := by
  rw [v4?] at h
  split at h
  · rename_i hmapped
    cases h
    rw [ofV4, ← hmapped]
    exact append_extractLsb' 96 32 key
  · cases h

theorem v4?_ofV4 (bits : BitVec 32) : v4? (ofV4 bits) = some bits := by
  rw [v4?, ofV4, BitVec.extractLsb'_append_eq_left, if_pos rfl, BitVec.extractLsb'_append_eq_right]

theorem toNat_ofV4 (bits : BitVec 32) : (ofV4 bits).toNat = 0xFFFF00000000 + bits.toNat := by
  rw [ofV4, BitVec.toNat_append, ← Nat.shiftLeft_add_eq_or_of_lt bits.isLt]
  rfl

/-- The address filed under a key, as an IPv4 address where it can be one. -/
def address (key : AddressKey) : Address :=
  match v4? key with
  | some bits => .v4 bits
  | none => .v6 key

/-- A key as its upper and its lower word. -/
def words (key : AddressKey) : UInt64 × UInt64 :=
  (⟨key.extractLsb' 64 64⟩, ⟨key.extractLsb' 0 64⟩)

/-- The key of which two words are the upper and the lower one. -/
def ofWords (w : UInt64 × UInt64) : AddressKey := w.1.toBitVec ++ w.2.toBitVec

end AddressKey

namespace Address

/-- The bits of an address written in the longer family. -/
def wide : Address → BitVec 128
  | .v4 bits => AddressKey.ofV4 bits
  | .v6 bits => bits

/-- The key that an address is filed under. -/
def key (a : Address) : AddressKey := a.wide

end Address

end Shaping
