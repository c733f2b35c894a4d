import Shaping.Basic

/-!
# Counters

A `Counters` value is the account of one direction or of one entity: packets and bytes seen and
dropped, packets paced, packets let through because a stage could not run, and the faults met.
Counters only grow, and they wrap.  Differences between two readings (`Counters.since`) and between
two counters (`Counters.packetsAdmitted`) saturate at zero, so that a reading that raced with a
packet never shows up as an enormous number.
-/

set_option autoImplicit false

namespace Shaping

/-- How often each fault was met. -/
structure FaultCounts where
  configurationMissing : UInt64 := 0
  rateUnconfigured : UInt64 := 0
  clockSkew : UInt64 := 0
  capacityExceeded : UInt64 := 0
  malformedPacket : UInt64 := 0
  deriving DecidableEq

namespace FaultCounts

/-- The count of one fault. -/
def get (c : FaultCounts) : Fault → UInt64
  | .configurationMissing => c.configurationMissing
  | .rateUnconfigured => c.rateUnconfigured
  | .clockSkew => c.clockSkew
  | .capacityExceeded => c.capacityExceeded
  | .malformedPacket => c.malformedPacket

/-- Count one more fault. -/
def bump (c : FaultCounts) : Fault → FaultCounts
  | .configurationMissing => { c with configurationMissing := c.configurationMissing + 1 }
  | .rateUnconfigured => { c with rateUnconfigured := c.rateUnconfigured + 1 }
  | .clockSkew => { c with clockSkew := c.clockSkew + 1 }
  | .capacityExceeded => { c with capacityExceeded := c.capacityExceeded + 1 }
  | .malformedPacket => { c with malformedPacket := c.malformedPacket + 1 }

/-- The counts in the order of `Fault.all`. -/
def toList (c : FaultCounts) : List UInt64 := Fault.all.map c.get

/-- The faults met since an earlier reading. -/
def since (now earlier : FaultCounts) : FaultCounts where
  configurationMissing := Word.subSat now.configurationMissing earlier.configurationMissing
  rateUnconfigured := Word.subSat now.rateUnconfigured earlier.rateUnconfigured
  clockSkew := Word.subSat now.clockSkew earlier.clockSkew
  capacityExceeded := Word.subSat now.capacityExceeded earlier.capacityExceeded
  malformedPacket := Word.subSat now.malformedPacket earlier.malformedPacket

end FaultCounts

/-- The account of one direction or of one entity. -/
structure Counters where
  packetsTotal : UInt64 := 0
  bytesTotal : UInt64 := 0
  packetsDropped : UInt64 := 0
  bytesDropped : UInt64 := 0
  /-- Packets admitted with their departure moved into the future. -/
  packetsPaced : UInt64 := 0
  /-- Packets admitted because a stage could not run. -/
  packetsFailOpen : UInt64 := 0
  faults : FaultCounts := {}
  deriving DecidableEq

namespace Counters

/-- The account of nothing. -/
def zero : Counters := {}

/-- A packet of `bytes` bytes came by. -/
def seen (c : Counters) (bytes : UInt64) : Counters :=
  { c with packetsTotal := c.packetsTotal + 1, bytesTotal := c.bytesTotal + bytes }

/-- A packet of `bytes` bytes was dropped. -/
def dropped (c : Counters) (bytes : UInt64) : Counters :=
  { c with packetsDropped := c.packetsDropped + 1, bytesDropped := c.bytesDropped + bytes }

/-- A packet was paced. -/
def paced (c : Counters) : Counters :=
  { c with packetsPaced := c.packetsPaced + 1 }

/-- A packet was let through because a stage could not run. -/
def failedOpen (c : Counters) : Counters :=
  { c with packetsFailOpen := c.packetsFailOpen + 1 }

/-- A fault was met. -/
def fault (c : Counters) (f : Fault) : Counters :=
  { c with faults := c.faults.bump f }

/-- A limiter refused a packet of `bytes` bytes. -/
def refused (c : Counters) (bytes : UInt64) : Counters :=
  (c.dropped bytes).fault .capacityExceeded

/-- The packets that were not dropped. -/
def packetsAdmitted (c : Counters) : UInt64 := Word.subSat c.packetsTotal c.packetsDropped

/-- The bytes that were not dropped. -/
def bytesAdmitted (c : Counters) : UInt64 := Word.subSat c.bytesTotal c.bytesDropped

/-- What happened since an earlier reading. -/
def since (now earlier : Counters) : Counters where
  packetsTotal := Word.subSat now.packetsTotal earlier.packetsTotal
  bytesTotal := Word.subSat now.bytesTotal earlier.bytesTotal
  packetsDropped := Word.subSat now.packetsDropped earlier.packetsDropped
  bytesDropped := Word.subSat now.bytesDropped earlier.bytesDropped
  packetsPaced := Word.subSat now.packetsPaced earlier.packetsPaced
  packetsFailOpen := Word.subSat now.packetsFailOpen earlier.packetsFailOpen
  faults := now.faults.since earlier.faults

end Counters

end Shaping
