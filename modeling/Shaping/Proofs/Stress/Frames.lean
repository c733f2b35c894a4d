import Shaping.Proofs.Address.Keys
import Shaping.Proofs.Packet.Headers
import Shaping.Stress
import Mathlib.Algebra.Group.Nat.Defs
import Mathlib.Data.List.Forall2
import Mathlib.Tactic.Ring

/-!
# Frames are read as what they were built from

A frame has its addresses behind some bytes that say little, and zeros behind them.  How many bytes come
before depends on the family, and which address comes first on the direction.  The reader of headers has its
own account of these places, and the two agree.

* A number that was written as bytes is read from them wherever they are (`Frame.number_octets`).
* So a frame is read as the addresses it was built from, and if these are of different families then both
  are read in the longer one (`Frame.ofBytes?_bytes`), which changes the form of an address and not the host
  that it names (`Frame.sameHost_addresses`).  It is as long as it was asked to be, or as long as its header
  (`Frame.size_bytes`).
* A packet made of the frame for an address and a direction therefore has that address at the local end, and
  at the other end the one that was chosen for it (`Stress.sentFor_framesOf`).
* Workers find their frames by counting, and so whatever they send is such a packet
  (`Stress.sentFor_packetAt`).
-/

set_option autoImplicit false

namespace Shaping

/-- The length of a header between addresses of the family of this one. -/
def Address.headerLength : Address → Nat
  | .v4 _ => 20
  | .v6 _ => 40

namespace Frame

/-! ## Numbers as bytes -/

theorem length_octets (n count : Nat) : (octets n count).length = count := by
  induction count with
  | zero => rfl
  | succ count ih => rw [octets, List.length_cons, ih]

/-- Bytes are the digits of a number to base 256, of which the highest may be missing. -/
theorem foldl_octets (n count start : Nat) :
    (octets n count).foldl (fun m b => m * 256 + b.toNat) start = start * 256 ^ count + n % 256 ^ count := by
  induction count generalizing start with
  | zero => simp [octets, Nat.mod_one]
  | succ count ih =>
    have hbase : 2 ^ (8 * count) = 256 ^ count := Nat.pow_mul 2 8 count
    have hdigit : (UInt8.ofNat (n >>> (8 * count))).toNat = n / 256 ^ count % 256 := by
      rw [UInt8.toNat_ofNat', Nat.shiftRight_eq_div_pow, hbase]
    rw [octets, List.foldl_cons, ih, hdigit, Nat.pow_succ, Nat.mod_mul, Nat.add_mul]
    ring

/-- **A number is read from its bytes**, whatever comes before and behind them. -/
theorem number_octets (before behind : List UInt8) (n count : Nat) :
    Headers.number (before ++ (octets n count ++ behind)).toArray before.length count = n % 256 ^ count := by
  have hlength := length_octets n count
  rw [Headers.number_eq_foldl, List.drop_left, List.take_left' hlength, foldl_octets, Nat.zero_mul,
    Nat.zero_add]

/-! ## Frames as bytes

The two layouts have one form: a byte for the version, some zeros, and two numbers of the same width.  What
is read from such bytes is proved once for any numbers of zeros and any width (`read_fields`), and the
families are the values 11 and 4, and 7 and 16. -/

/-- The addresses of a frame as they are read from it. -/
def addresses : Address → Address → Headers
  | .v4 source, .v4 destination => ⟨.v4 source, .v4 destination⟩
  | source, destination => ⟨.v6 source.wide, .v6 destination.wide⟩

theorem bytes_eq (source destination : Address) (length : Nat) :
    bytes source destination length = (header source destination
      ++ List.replicate (length - (header source destination).length) 0).toArray := by
  rw [bytes, List.size_toArray, ← List.toArray_replicate, List.append_toArray]

theorem length_header (source destination : Address) :
    (header source destination).length = max source.headerLength destination.headerLength := by
  cases source <;> cases destination <;> simp [header, Address.headerLength, length_octets]

/-- **A frame is as long as it was asked to be**, or as long as its header. -/
theorem size_bytes (source destination : Address) (length : Nat) :
    (bytes source destination length).size
      = max length (max source.headerLength destination.headerLength) := by
  rw [bytes_eq, List.size_toArray, List.length_append, List.length_replicate, length_header]
  omega

/-- What stands in a frame: the version, and two numbers in a row behind some zeros. -/
theorem read_fields (version : UInt8) (zeros a b count : Nat) (rest : List UInt8) :
    let frame := (version :: (List.replicate zeros 0 ++ octets a count ++ octets b count) ++ rest).toArray
    frame[0]? = some version ∧ zeros + 1 + count + count ≤ frame.size ∧
      Headers.number frame (zeros + 1) count = a % 256 ^ count ∧
      Headers.number frame (zeros + 1 + count) count = b % 256 ^ count := by
  have hfront : (version :: List.replicate zeros 0).length = zeros + 1 := by simp
  have hbetween : (version :: List.replicate zeros 0 ++ octets a count).length = zeros + 1 + count := by
    rw [List.length_append, hfront, length_octets]
  refine ⟨rfl, ?_, ?_, ?_⟩
  · simp only [List.size_toArray, List.length_append, List.length_cons, List.length_replicate, length_octets]
    omega
  · rw [← hfront, ← number_octets (version :: List.replicate zeros 0) (octets b count ++ rest) a count]
    simp
  · rw [← hbetween, ← number_octets (version :: List.replicate zeros 0 ++ octets a count) rest b count]
    simp

/-- A number that is as wide as its bytes is read as it is. -/
theorem ofNat_toNat_mod {w count : Nat} (h : 256 ^ count = 2 ^ w) (x : BitVec w) :
    BitVec.ofNat w (x.toNat % 256 ^ count) = x := by
  rw [h, Nat.mod_eq_of_lt x.isLt, BitVec.ofNat_toNat, BitVec.setWidth_eq]

/-- Two addresses of the shorter family. -/
theorem ofBytes?_v4 (source destination : BitVec 32) (rest : List UInt8) :
    Headers.ofBytes? (header (.v4 source) (.v4 destination) ++ rest).toArray
      = some ⟨.v4 source, .v4 destination⟩ := by
  obtain ⟨hfirst, hsize, hsource, hdestination⟩ := read_fields 0x45 11 source.toNat destination.toNat 4 rest
  rw [header, Headers.ofBytes?, hfirst]
  dsimp only
  rw [if_pos ⟨by decide, hsize⟩, hsource, hdestination, ofNat_toNat_mod rfl, ofNat_toNat_mod rfl]

/-- Two addresses that are written in the longer family. -/
theorem ofBytes?_v6 (source destination : BitVec 128) (rest : List UInt8) :
    Headers.ofBytes? (0x60 :: (List.replicate 7 0 ++ octets source.toNat 16 ++ octets destination.toNat 16)
      ++ rest).toArray = some ⟨.v6 source, .v6 destination⟩ := by
  obtain ⟨hfirst, hsize, hsource, hdestination⟩ := read_fields 0x60 7 source.toNat destination.toNat 16 rest
  rw [Headers.ofBytes?, hfirst]
  dsimp only
  rw [if_neg fun h => absurd h.1 (by decide), if_pos ⟨by decide, hsize⟩, hsource, hdestination,
    ofNat_toNat_mod rfl, ofNat_toNat_mod rfl]

/-- **A frame is read as the addresses it was built from.** -/
theorem ofBytes?_bytes (source destination : Address) (length : Nat) :
    Headers.ofBytes? (bytes source destination length) = some (addresses source destination) := by
  rw [bytes_eq]
  cases source with
  | v4 quad =>
    cases destination with
    | v4 quad' => exact ofBytes?_v4 quad quad' _
    | v6 bits => exact ofBytes?_v6 (AddressKey.ofV4 quad) bits _
  | v6 bits =>
    cases destination with
    | v4 quad => exact ofBytes?_v6 bits (AddressKey.ofV4 quad) _
    | v6 bits' => exact ofBytes?_v6 bits bits' _

/-- **Both families together lose nothing but the form of an address.** -/
theorem sameHost_addresses (source destination : Address) :
    (addresses source destination).source.SameHost source ∧
      (addresses source destination).destination.SameHost destination := by
  rw [← Address.key_eq_key_iff, ← Address.key_eq_key_iff]
  cases source <;> cases destination <;> exact ⟨rfl, rfl⟩

end Frame

/-! ## Frames for addresses

The address at the other end is chosen in the family of the one at this end, hence nothing is widened here,
and a frame for one direction is that for the other one with its ends exchanged. -/

namespace Stress

/-- A packet is one between an address of this end and the address at the other end that was chosen for it, and
is as long as packets are to be, or as long as its header. -/
structure SentFor (a : Address) (packetSize : UInt64) (p : Packet) : Prop where
  localEnd : p.localAddress? = some a
  otherEnd : p.remoteAddress? = some (remoteAddress a)
  length : p.length.toNat = max packetSize.toNat a.headerLength

/-- Both ends are of one family. -/
theorem addresses_remote (a : Address) :
    Frame.addresses a (remoteAddress a) = ⟨a, remoteAddress a⟩ ∧
      Frame.addresses (remoteAddress a) a = ⟨remoteAddress a, a⟩ ∧
      (remoteAddress a).headerLength = a.headerLength := by
  cases a <;> exact ⟨rfl, rfl, rfl⟩

/-- The length of a frame is a word. -/
theorem length_lt (packetSize : UInt64) (a : Address) :
    max packetSize.toNat a.headerLength < UInt64.size := by
  refine max_lt packetSize.toNat_lt_size ?_
  cases a <;> simp [Address.headerLength, UInt64.size]

/-- **A packet made of a frame is what the frame was built for**, in either direction. -/
theorem sentFor_framesOf (a : Address) (packetSize : UInt64) (d : Direction) (classId : UInt32) :
    SentFor a packetSize (Packet.ofBytes d ((framesOf packetSize.toNat a).get d) classId) := by
  obtain ⟨hout, hin, hlength⟩ := addresses_remote a
  have hheaders : (Packet.ofBytes d ((framesOf packetSize.toNat a).get d) classId).headers
      = some (PerDirection.get ⟨⟨remoteAddress a, a⟩, ⟨a, remoteAddress a⟩⟩ d) := by
    cases d with
    | ingress => exact (Frame.ofBytes?_bytes _ _ _).trans (congrArg some hin)
    | egress => exact (Frame.ofBytes?_bytes _ _ _).trans (congrArg some hout)
  have hsize : ((framesOf packetSize.toNat a).get d).size = max packetSize.toNat a.headerLength := by
    cases d with
    | ingress =>
      rw [framesOf, PerDirection.get, Frame.size_bytes, hlength, max_self]
    | egress =>
      rw [framesOf, PerDirection.get, Frame.size_bytes, hlength, max_self]
  refine ⟨?_, ?_, ?_⟩
  · rw [Packet.localAddress?, hheaders]
    cases d <;> rfl
  · rw [Packet.remoteAddress?, hheaders]
    cases d <;> rfl
  · rw [Packet.ofBytes, hsize]
    exact UInt64.toNat_ofNat_of_lt' (length_lt packetSize a)

/-- There is always a place for a count, since there is always an address. -/
theorem place_lt (s : Shaper) (count : UInt64) :
    (count / 2).toNat % (localAddresses s).length < (localAddresses s).length := by
  refine Nat.mod_lt _ ?_
  rw [localAddresses, List.length_append]
  exact Nat.succ_pos _

/-- **Whatever a worker sends was built for an address of this end**, at any count. -/
theorem sentFor_packetAt (s : Shaper) (packetSize count : UInt64) :
    ∃ a ∈ localAddresses s,
      SentFor a packetSize (packetAt ⟨(frames (localAddresses s) packetSize).toArray⟩ count) := by
  have hplace := place_lt s count
  refine ⟨(localAddresses s)[(count / 2).toNat % (localAddresses s).length], List.getElem_mem hplace, ?_⟩
  rw [packetAt]
  simp only [frames, List.size_toArray, List.length_map, List.getElem?_toArray, List.getElem?_map,
    List.getElem?_eq_getElem hplace, Option.map_some, Option.getD_some]
  exact sentFor_framesOf _ packetSize _ _

/-! ## The whole -/

/-- **Frames are read as what they were built from.**  Of any addresses, each has a frame for either direction.
The packet made of it has the address at the local end and the chosen one at the other end, and it is as long as
packets are to be, or as long as the header of the family.  Unless packets are to be longer than anything can be
in memory, workers send nothing but such packets.

Of any bytes, none is looked for where there is none.  No addresses are made of no bytes, of fewer than the header
of their version takes, and of versions other than 4 and 6; and of all other bytes addresses are made. -/
theorem frames_are_read_back :
    (∀ (addresses : List Address) (packetSize : UInt64),
      List.Forall₂ (fun a built => ∀ (d : Direction) (classId : UInt32),
          SentFor a packetSize (Packet.ofBytes d (built.get d) classId))
        addresses (frames addresses packetSize)) ∧
    (∀ (s : Shaper) (packetSize : UInt64),
      UInt64.size / 2 ≤ packetSize.toNat ∧ workload s packetSize = .error .allocation ∨
        ∃ w, workload s packetSize = .ok w ∧
          ∀ count, ∃ a ∈ localAddresses s, SentFor a packetSize (packetAt w count)) ∧
    ∀ bytes : Array UInt8,
      Headers.ofBytesExact bytes = .ok (Headers.ofBytes? bytes) ∧
        (Headers.ofBytes? bytes = none ↔
          bytes = #[] ∨ ∃ first : UInt8, bytes[0]? = some first ∧
            (first >>> 4 = 4 ∧ bytes.size < 20 ∨ first >>> 4 = 6 ∧ bytes.size < 40 ∨
              first >>> 4 ≠ 4 ∧ first >>> 4 ≠ 6)) := by
  refine ⟨fun addresses packetSize => ?_, fun s packetSize => ?_,
    fun bytes => ⟨Headers.ofBytesExact_eq bytes, Headers.ofBytes?_eq_none_iff bytes⟩⟩
  · rw [frames, List.forall₂_map_right_iff, List.forall₂_same]
    exact fun a _ => sentFor_framesOf a packetSize
  · rw [workload]
    split
    · rename_i hsize
      exact .inl ⟨hsize, rfl⟩
    · exact .inr ⟨_, rfl, sentFor_packetAt s packetSize⟩

end Stress

end Shaping
