import Shaping.Packet

/-!
# Headers and the bytes they are read from

Any bytes at all may come as a packet.  The first one says of which version the header is, and so how much has
to be there before any address is read; of other bytes nothing is made (`Headers.ofBytes?_eq_none_iff`).

An address is some bytes in a row, each of which is read at its place in the buffer.  `Headers.ofBytes?` is given
what there is from one place to another, which is less than was asked for if the buffer is too short.  So it is
followed by its *exact* form, in which every place has to be one of the buffer's; and that both agree says that no
place is ever out of range (`Headers.ofBytesExact_eq`).
-/

set_option autoImplicit false

namespace Shaping

namespace Headers

/-! ## What is made nothing of -/

/-- **What nothing is made of:** no bytes at all, too few of them for their version, and other versions. -/
theorem ofBytes?_eq_none_iff (bytes : Array UInt8) :
    ofBytes? bytes = none ↔
      bytes = #[] ∨ ∃ first : UInt8, bytes[0]? = some first ∧
        (first >>> 4 = 4 ∧ bytes.size < 20 ∨ first >>> 4 = 6 ∧ bytes.size < 40 ∨
          first >>> 4 ≠ 4 ∧ first >>> 4 ≠ 6) := by
  have hempty : bytes = #[] ↔ bytes[0]? = none := by
    rw [Array.getElem?_eq_none_iff, Nat.le_zero, Array.size_eq_zero_iff]
  rw [hempty, ofBytes?]
  cases bytes[0]? with
  | none => simp
  | some first =>
    by_cases hfour : first >>> 4 = 4
    · simp [hfour]
    · by_cases hsix : first >>> 4 = 6 <;> simp [hfour, hsix]

/-! ## Reading in place -/

/-- `number` with every byte read at its place. -/
def numberExact (bytes : Array UInt8) (start length : Nat) : Except Trap Nat :=
  (List.range' start length).foldlM (fun n place => do return n * 256 + (← element bytes place).toNat) 0

/-- `ofBytes?` with every byte read at its place. -/
def ofBytesExact (bytes : Array UInt8) : Except Trap (Option Headers) :=
  match (bytes[0]? : Option UInt8) with
  | none => return none
  | some first =>
    if first >>> 4 = 4 ∧ 20 ≤ bytes.size then do
      let source ← numberExact bytes 12 4
      let destination ← numberExact bytes 16 4
      return some ⟨.v4 (.ofNat 32 source), .v4 (.ofNat 32 destination)⟩
    else if first >>> 4 = 6 ∧ 40 ≤ bytes.size then do
      let source ← numberExact bytes 8 16
      let destination ← numberExact bytes 24 16
      return some ⟨.v6 (.ofNat 128 source), .v6 (.ofNat 128 destination)⟩
    else return none

theorem number_eq_foldl (bytes : Array UInt8) (start length : Nat) :
    number bytes start length
      = ((bytes.toList.drop start).take length).foldl (fun n b => n * 256 + b.toNat) 0 := by
  rw [number, ← Array.foldl_toList, Array.toList_extract, List.extract_eq_take_drop,
    Nat.add_sub_cancel_left]

/-- Bytes that are all there are read one after the other. -/
theorem numberExact_eq {bytes : Array UInt8} {start length : Nat} (h : start + length ≤ bytes.size) :
    numberExact bytes start length = pure (number bytes start length) := by
  rw [numberExact, number_eq_foldl]
  generalize 0 = n
  induction length generalizing start n with
  | zero => rfl
  | succ length ih =>
    have hplace : start < bytes.toList.length := by
      rw [Array.length_toList]
      omega
    have hbyte : element bytes start = pure bytes.toList[start] :=
      element_of_some (by rw [← Array.getElem?_toList, List.getElem?_eq_getElem hplace])
    rw [List.range'_succ, List.foldlM_cons, hbyte, List.drop_eq_getElem_cons hplace, List.take_succ_cons,
      List.foldl_cons, pure_bind, pure_bind]
    exact ih (by omega) _

/-- **No byte is looked for where there is none**, whatever the bytes are. -/
theorem ofBytesExact_eq (bytes : Array UInt8) : ofBytesExact bytes = pure (ofBytes? bytes) := by
  rw [ofBytesExact, ofBytes?]
  cases bytes[0]? with
  | none => rfl
  | some first =>
    dsimp only
    by_cases hfour : first >>> 4 = 4 ∧ 20 ≤ bytes.size
    · rw [if_pos hfour, if_pos hfour, numberExact_eq (by omega), numberExact_eq (by omega)]
      rfl
    · rw [if_neg hfour, if_neg hfour]
      by_cases hsix : first >>> 4 = 6 ∧ 40 ≤ bytes.size
      · rw [if_pos hsix, if_pos hsix, numberExact_eq (by omega), numberExact_eq (by omega)]
        rfl
      · rw [if_neg hsix, if_neg hsix]

end Headers

/-- The address of the other end. -/
def Packet.remoteAddress? (p : Packet) : Option Address :=
  p.headers.map fun h =>
    match p.direction with
    | .ingress => h.source
    | .egress => h.destination

end Shaping
