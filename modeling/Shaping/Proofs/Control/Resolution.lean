import Shaping.Proofs.Address.Keys
import Shaping.Proofs.Control.Configured
import Shaping.Proofs.Shaper.Account

/-!
# Whom packets are resolved to

The directory is asked for the key of an address, so it cannot tell the two forms of an IPv4 address apart
(`Directory.resolve_congr`), and it can tell all other addresses apart.  This is what a pod is entered for:
once it is, packets that have one of its addresses at the local end belong to its entity, in whichever form
the address comes, and what packets with any other address belong to is as it was before
(`Directory.resolve_call_writePod`).

Packets do not change the directory, so all of this stays so until the next call
(`Pipeline.directory_arrivals`).
-/

set_option autoImplicit false

namespace Shaping

/-! ## Pods that were entered

A pod owns a key if one of its addresses is filed under it.  Since keys are equal for addresses of the same
host, and only for those, this can be said of addresses again, and the key is gone from the statement. -/

namespace Pod

variable {pod : Pod} {s s' : Shaper}

/-- Whom the addresses of a pod belong to. -/
def owner (pod : Pod) : Resolved := ⟨pod.entity, Tier.ofClass? pod.classId⟩

/-- A pod owns the keys of the hosts that its addresses name. -/
theorem owns_key_iff {a : Address} :
    pod.owns a.key = true ↔ pod.hostNetwork = false ∧ ∃ b ∈ pod.addresses, b.SameHost a := by
  simp only [owns_iff, Address.key_eq_key_iff]

/-- A pod that was entered has an entity, and all of its writes were done. -/
theorem complete_of_call_writePod (h : s.call (.writePod pod) = (.ok (), s')) :
    pod.Complete ∧ pod.entries.foldlM Shaper.write s = .ok s' := by
  rw [Shaper.call, Call.control] at h
  by_cases hcomplete : pod.Complete
  · rcases Control.run_writePod hcomplete ⟨s, #[]⟩ with
      ⟨s₁, notes, hdone, hrun⟩ | ⟨w, full, s₁, notes, -, hrun⟩
    · rw [hrun] at h
      cases h
      exact ⟨hcomplete, hdone⟩
    · rw [hrun] at h
      cases h
  · rw [Control.run_writePod_of_incomplete hcomplete] at h
    cases h

end Pod

namespace Directory

variable {pod : Pod} {s s' : Shaper}

/-- **The form in which an address comes does not matter.** -/
theorem resolve_congr (directory : Directory) {a b : Address} (h : a.SameHost b) :
    directory.resolve a = directory.resolve b := by
  rw [resolve, resolve, (Address.key_eq_key_iff a b).mpr h]

/-- **A pod that was entered is found under its addresses**, and nothing else is found that was not before. -/
theorem resolve_call_writePod (hs : s.WellFormed) (h : s.call (.writePod pod) = (.ok (), s')) (a : Address) :
    s'.directory.resolve a = if pod.owns a.key then some pod.owner else s.directory.resolve a := by
  obtain ⟨hcomplete, hdone⟩ := Pod.complete_of_call_writePod h
  have hget := (hs.writtenBy_all hdone).address a.key
  rw [Pod.foldl_onAddress] at hget
  rw [resolve, hget]
  by_cases howns : pod.owns a.key = true
  · rw [if_pos howns, if_pos howns]
    exact if_neg (hcomplete (Pod.owns_iff.mp howns).1)
  · rw [if_neg howns, if_neg howns, resolve]

end Directory

/-- Packets leave the directory alone. -/
theorem Pipeline.directory_arrivals (u : Pipeline) (s : Shaper) (xs : List (Packet × UInt64)) :
    (u.after s (arrivals xs)).directory = s.directory := by
  induction xs generalizing s with
  | nil => rfl
  | cons x xs ih => exact (ih _).trans (u.directory_packet s x.1 x.2)

/-! ## The whole -/

/-- **Keys of addresses neither alias nor drift.**  Two addresses have the same key if and only if they are the
same or one is the mapped form of the other.  A key is that of the address which is shown for it, and it is what
its two words are put together to, the first of which is the upper one.  What is shown for the key of an address
is the address, unless that is a mapped form; then it is the IPv4 address.

So once a pod was entered, and whatever packets came by since, a packet belongs to it if its local address is one
of the pod's addresses in either form.  If it is not, then the packet belongs to whom it would have belonged to
before. -/
theorem Shaper.addresses_neither_alias_nor_drift :
    (∀ a b : Address, a.key = b.key ↔ a = b ∨ a.IsMappedFormOf b ∨ b.IsMappedFormOf a) ∧
    (∀ key : AddressKey, key.address.key = key ∧ AddressKey.ofWords key.words = key ∧
      key.toNat = key.words.1.toNat * UInt64.size + key.words.2.toNat) ∧
    (∀ a b : Address, a.IsMappedFormOf b → a.key.address = b) ∧
    (∀ a : Address, (∀ b, ¬ a.IsMappedFormOf b) → a.key.address = a) ∧
    ∀ (s s' : Shaper) (pod : Pod), s.Reachable → s.call (.writePod pod) = (.ok (), s') →
      ∀ (options : ShapingOptions) (xs : List (Packet × UInt64)) (p : Packet) (now : UInt64) (a : Address),
        p.localAddress? = some a →
        let u : Pipeline := ⟨options, .directory⟩
        (⟨u.after s' (Pipeline.arrivals xs), p, now⟩ : Passage).owner u =
          some (if pod.hostNetwork = false ∧ ∃ b ∈ pod.addresses, b.SameHost a
            then some ⟨pod.entity, Tier.ofClass? pod.classId⟩ else s.directory.resolve a) := by
  refine ⟨Address.key_eq_key_iff, fun key => ⟨key.key_address, key.ofWords_words, key.toNat_eq_words⟩,
    fun a b => Address.address_key_of_mapped, fun a => Address.address_key_of_not_mapped, ?_⟩
  intro s s' pod hs h options xs p now a ha u
  have howner : (⟨u.after s' (Pipeline.arrivals xs), p, now⟩ : Passage).owner u
      = some (s'.directory.resolve a) := by
    rw [Passage.owner, ha, u.directory_arrivals]
    rfl
  rw [howner, Directory.resolve_call_writePod hs.wellFormed h]
  simp only [Pod.owns_key_iff, Pod.owner]

/-! ## Cases

A pod with an IPv4 address, and packets that go to this address, to its mapped form, and to the next address. -/

namespace OnePod

def pod : Pod := { Pod.blank with v4 := some 0x0A000001, entity := 7 }

/-- A packet on its way in. -/
def packetTo (a : Address) : Packet := ⟨1500, .ingress, 0, some ⟨.v4 0, a⟩, 0⟩

def pipeline : Pipeline := ⟨.standard, .directory⟩

theorem exists_call : ∃ s', (Shaper.empty 1).call (.writePod pod) = (.ok (), s') := by
  have hresult := ((mirrors_empty 1).call (.writePod pod)).1
  have hperform : (Registry.perform (max 1 1) (.writePod pod) .blank).1 = .ok () := rfl
  exact ⟨_, Prod.ext (hresult.trans hperform) rfl⟩

end OnePod

section

open OnePod

/-- The pod is found in either form of its address, also after a packet, and the next address is nobody's. -/
theorem Shaper.addresses_neither_alias_nor_drift_for_one_pod :
    (Address.v6 0xFFFF0A000001).key.address = .v4 0x0A000001 ∧
      (Address.v6 0xFF0A000001).key.address = .v6 0xFF0A000001 ∧
      ∃ s', (Shaper.empty 1).call (.writePod pod) = (.ok (), s') ∧
        (⟨s', packetTo (.v4 0x0A000001), 0⟩ : Passage).owner pipeline = some (some ⟨7, some .l0⟩) ∧
        (⟨pipeline.after s' (Pipeline.arrivals [(packetTo (.v4 0x0A000001), 0)]),
          packetTo (.v6 0xFFFF0A000001), 1⟩ : Passage).owner pipeline = some (some ⟨7, some .l0⟩) ∧
        (⟨s', packetTo (.v4 0x0A000002), 0⟩ : Passage).owner pipeline = some none := by
  obtain ⟨s', hcall⟩ := exists_call
  obtain ⟨-, -, hmapped, hother, hresolved⟩ := addresses_neither_alias_nor_drift
  have hnot : ∀ b, ¬ (Address.v6 0xFF0A000001).IsMappedFormOf b := by
    rintro (quad | bits) h
    · have hquad := quad.isLt
      have hnumber : 0xFF0A000001 = 0xFFFF00000000 + quad.toNat := h
      omega
    · exact h
  have howner := hresolved _ s' pod (.empty 1) hcall .standard
  refine ⟨hmapped _ _ (by decide), hother _ hnot, s', hcall, ?_, ?_, ?_⟩
  · exact (howner [] (packetTo (.v4 0x0A000001)) 0 _ rfl).trans (by rw [if_pos (by decide)]; rfl)
  · exact (howner [_] (packetTo (.v6 0xFFFF0A000001)) 1 _ rfl).trans (by rw [if_pos (by decide)]; rfl)
  · refine (howner [] (packetTo (.v4 0x0A000002)) 0 _ rfl).trans ?_
    rw [if_neg (by decide), Directory.resolve, Shaper.empty, OpenTable.get?_empty]

end

end Shaping
