import Shaping.Address

/-!
# Addresses and their keys

A key is one of three ways to write the same number of 128 bits: as an address, as the number, or as the two
words that a slot of the directory has for it.  Going there and back is the identity wherever it can be.

* Words lose nothing (`AddressKey.ofWords_words`), and the first one is the upper one
  (`AddressKey.toNat_eq_words`).
* The address that is shown for a key is filed under that key (`AddressKey.key_address`).
* The other way round it is the same address unless that is the mapped form of an IPv4 address, which is shown
  instead (`Address.address_key_of_mapped`, `Address.address_key_of_not_mapped`).

So two addresses have the same key if and only if they name the same host (`Address.key_eq_key_iff`).  What it
is to be a mapped form is said in numbers here (`Address.IsMappedFormOf`), and not by the way in which keys are
made.
-/

set_option autoImplicit false

namespace Shaping

/-! ## Keys -/

namespace AddressKey

variable {key : AddressKey}

theorem ofV4_inj {quad quad' : BitVec 32} : ofV4 quad = ofV4 quad' ↔ quad = quad' :=
  BitVec.append_right_inj mappedRange

/-- **The address that is shown for a key is filed under that key.** -/
theorem key_address (key : AddressKey) : (address key).key = key := by
  rw [address]
  split
  · rename_i hbits
    exact ofV4_of_v4? hbits
  · rfl

theorem address_ofV4 (quad : BitVec 32) : address (ofV4 quad) = .v4 quad := by
  rw [address, v4?_ofV4]

theorem address_of_ne_ofV4 (h : ∀ quad, key ≠ ofV4 quad) : address key = .v6 key := by
  have hnone : v4? key = none :=
    Option.eq_none_iff_forall_ne_some.mpr fun quad hquad => h quad (ofV4_of_v4? hquad).symm
  rw [address, hnone]

/-- **A key that is cut into words can be put together again.** -/
theorem ofWords_words (key : AddressKey) : ofWords key.words = key :=
  append_extractLsb' 64 64 key

/-- The first word counts in units of what the second one can hold. -/
theorem toNat_eq_words (key : AddressKey) :
    key.toNat = key.words.1.toNat * UInt64.size + key.words.2.toNat := by
  have hlower := key.words.2.toBitVec.isLt
  calc key.toNat = (ofWords key.words).toNat := by rw [ofWords_words]
    _ = key.words.1.toNat <<< 64 + key.words.2.toNat := by
      rw [ofWords, BitVec.toNat_append, ← Nat.shiftLeft_add_eq_or_of_lt hlower]
      rfl
    _ = key.words.1.toNat * UInt64.size + key.words.2.toNat := by rw [Nat.shiftLeft_eq]

end AddressKey

/-! ## Addresses -/

namespace Address

open AddressKey

/-- The first address is the mapped form of the second one.  This one is an IPv4 address, and the first one is
the IPv6 address that ends in the same 32 bits, with 16 ones before them and nothing else. -/
def IsMappedFormOf : Address → Address → Prop
  | .v6 bits, .v4 quad => bits.toNat = 0xFFFF00000000 + quad.toNat
  | _, _ => False

/-- Two addresses name the same host: they are the same, or one is the mapped form of the other. -/
def SameHost (a b : Address) : Prop := a = b ∨ a.IsMappedFormOf b ∨ b.IsMappedFormOf a

instance (a b : Address) : Decidable (a.IsMappedFormOf b) :=
  match a, b with
  | .v6 bits, .v4 quad => inferInstanceAs (Decidable (bits.toNat = 0xFFFF00000000 + quad.toNat))
  | .v6 _, .v6 _ => .isFalse id
  | .v4 _, .v4 _ => .isFalse id
  | .v4 _, .v6 _ => .isFalse id

instance (a b : Address) : Decidable (a.SameHost b) := inferInstanceAs (Decidable (_ ∨ _ ∨ _))

variable {a b : Address}

theorem isMappedFormOf_v4_iff {bits : BitVec 128} {quad : BitVec 32} :
    (v6 bits).IsMappedFormOf (v4 quad) ↔ bits = ofV4 quad := by
  rw [BitVec.toNat_eq, toNat_ofV4]
  rfl

/-- A mapped form is made of an IPv4 address as keys are. -/
theorem IsMappedFormOf.exists_ofV4 (h : a.IsMappedFormOf b) : ∃ quad, a = .v6 (ofV4 quad) ∧ b = .v4 quad := by
  cases a with
  | v4 quad => exact h.elim
  | v6 bits =>
    cases b with
    | v4 quad => exact ⟨quad, congrArg v6 (isMappedFormOf_v4_iff.mp h), rfl⟩
    | v6 bits' => exact h.elim

/-- **Keys are equal where hosts are the same, and only there.** -/
theorem key_eq_key_iff (a b : Address) : a.key = b.key ↔ a.SameHost b := by
  rw [SameHost]
  cases a with
  | v4 quad =>
    cases b with
    | v4 quad' => simp [key, wide, ofV4_inj, IsMappedFormOf]
    | v6 bits => rw [isMappedFormOf_v4_iff]; simp [key, wide, IsMappedFormOf, eq_comm]
  | v6 bits =>
    cases b with
    | v4 quad => rw [isMappedFormOf_v4_iff]; simp [key, wide, IsMappedFormOf]
    | v6 bits' => simp [key, wide, IsMappedFormOf]

/-- **A mapped address is shown as the IPv4 address.** -/
theorem address_key_of_mapped (h : a.IsMappedFormOf b) : a.key.address = b := by
  obtain ⟨quad, rfl, rfl⟩ := h.exists_ofV4
  exact address_ofV4 quad

/-- **Any other address is shown as it is.** -/
theorem address_key_of_not_mapped (h : ∀ b, ¬ a.IsMappedFormOf b) : a.key.address = a := by
  cases a with
  | v4 quad => exact address_ofV4 quad
  | v6 bits => exact address_of_ne_ofV4 fun quad hbits => h (.v4 quad) (isMappedFormOf_v4_iff.mpr hbits)

end Address

end Shaping
