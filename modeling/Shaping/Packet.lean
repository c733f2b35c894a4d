import Shaping.Address

/-!
# Packets

A `Packet` is what the shaper is told about a packet: how long it is, which way it goes, when it wants
to leave, and which addresses its header names.  `Headers.ofBytes?` takes the addresses out of a raw
header of either family; of a packet that is too short for its header, or of some other version, it
makes nothing, and such a packet is `malformed` for the shaper.

The packet belongs to its *local* end (`Packet.localAddress?`): where it comes from on the way out,
and where it goes to on the way in.
-/

set_option autoImplicit false

namespace Shaping

/-- The addresses that a packet names. -/
structure Headers where
  source : Address
  destination : Address
  deriving DecidableEq

namespace Headers

/-- The number whose bytes, the highest first, are `length` bytes of a buffer from `start` on. -/
def number (bytes : Array UInt8) (start length : Nat) : Nat :=
  (bytes.extract start (start + length)).foldl (fun n b => n * 256 + b.toNat) 0

/-- The addresses in a raw header of either family. -/
def ofBytes? (bytes : Array UInt8) : Option Headers :=
  match (bytes[0]? : Option UInt8) with
  | none => none
  | some first =>
    if first >>> 4 = 4 ∧ 20 ≤ bytes.size then
      some ⟨.v4 (.ofNat 32 (number bytes 12 4)), .v4 (.ofNat 32 (number bytes 16 4))⟩
    else if first >>> 4 = 6 ∧ 40 ≤ bytes.size then
      some ⟨.v6 (.ofNat 128 (number bytes 8 16)), .v6 (.ofNat 128 (number bytes 24 16))⟩
    else none

end Headers

/-- A packet as the shaper sees it. -/
structure Packet where
  /-- Bytes on the wire. -/
  length : UInt64
  direction : Direction
  /-- When the packet wants to leave; zero is as soon as possible. -/
  departure : UInt64
  /-- The addresses, or nothing if the header could not be read. -/
  headers : Option Headers
  /-- The traffic class that the packet carries. -/
  classId : UInt32
  deriving DecidableEq

namespace Packet

/-- The packet with the given bytes, which wants to leave as soon as possible. -/
def ofBytes (direction : Direction) (bytes : Array UInt8) (classId : UInt32) : Packet :=
  ⟨bytes.size.toUInt64, direction, 0, Headers.ofBytes? bytes, classId⟩

/-- The address of the local end. -/
def localAddress? (p : Packet) : Option Address :=
  p.headers.map fun h =>
    match p.direction with
    | .ingress => h.destination
    | .egress => h.source

end Packet

end Shaping
