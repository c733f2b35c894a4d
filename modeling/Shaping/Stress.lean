import Shaping.Control
import Shaping.Report

/-!
# Load

A shaper is put under load by workers that send packets as fast as they can.  The packets come from and
go to every address in the directory and one that is not in it (`Stress.localAddresses`).  There is one
frame per address and direction (`Workload.frames`), built once, and a worker goes through directions,
addresses and classes by counting: worker number `n` starts at `n`, so that workers do not all send the
same packet at the same time.

What takes time is left to whoever drives the load.  `Stress.round` lets every worker send one packet at
a given time, and `Summary` says what came of it.
-/

set_option autoImplicit false

namespace Shaping

/-! ## Frames -/

namespace Frame

/-- A number as so many bytes, the highest first. -/
def octets (n : Nat) : Nat → List UInt8
  | 0 => []
  | count + 1 => UInt8.ofNat (n >>> (8 * count)) :: octets n count

/-- The header of a packet between two addresses, in the shorter family if both have it. -/
def header : Address → Address → List UInt8
  | .v4 source, .v4 destination =>
    0x45 :: (List.replicate 11 0 ++ octets source.toNat 4 ++ octets destination.toNat 4)
  | source, destination =>
    0x60 :: (List.replicate 7 0 ++ octets source.wide.toNat 16 ++ octets destination.wide.toNat 16)

/-- A packet between two addresses that is `length` bytes long, or as long as its header. -/
def bytes (source destination : Address) (length : Nat) : Array UInt8 :=
  let h := (header source destination).toArray
  h ++ Array.replicate (length - h.size) 0

end Frame

/-! ## What the workers send -/

/-- The frames that workers go through: for each address one per direction. -/
structure Workload where
  frames : Array (PerDirection (Array UInt8))

namespace Stress

/-- An address that belongs to no pod. -/
def strangerAddress : Address := .v4 0xCB007101#32

/-- The addresses at this end: those of all pods, and one that belongs to none. -/
def localAddresses (s : Shaper) : List Address := s.pods.map (·.address) ++ [strangerAddress]

/-- The address at the other end, of the same family. -/
def remoteAddress : Address → Address
  | .v4 _ => .v4 0xC0000201#32
  | .v6 _ => .v6 0x20010db8000000000000000000000001#128

/-- The frames of one address. -/
def framesOf (length : Nat) (a : Address) : PerDirection (Array UInt8) :=
  ⟨Frame.bytes (remoteAddress a) a length, Frame.bytes a (remoteAddress a) length⟩

/-- The frames of some addresses, in the order of the addresses. -/
def frames (addresses : List Address) (packetSize : UInt64) : List (PerDirection (Array UInt8)) :=
  addresses.map (framesOf packetSize.toNat)

/-- The frames for all addresses, if they can be that long. -/
def workload (s : Shaper) (packetSize : UInt64) : Except Trap Workload :=
  if UInt64.size / 2 ≤ packetSize.toNat then .error .allocation
  else .ok ⟨(frames (localAddresses s) packetSize).toArray⟩

/-- The packet that a worker sends when its count stands at `count`. -/
def packetAt (w : Workload) (count : UInt64) : Packet :=
  let direction : Direction := if count % 2 = 0 then .ingress else .egress
  let place := (count / 2).toNat % w.frames.size
  let frame := (w.frames[place]?.map (·.get direction)).getD #[]
  Packet.ofBytes direction frame (count % 3).toUInt32

/-! ## Sending -/

/-- A shaper under load, with the counts of the workers. -/
structure State where
  shaper : Shaper
  counts : List UInt64

/-- The start of a load by so many workers. -/
def start (shaper : Shaper) (workers : Nat) : State :=
  ⟨shaper, (List.range workers).map UInt64.ofNat⟩

/-- Let workers whose counts are given send one packet each. -/
def sendEach (options : ShapingOptions) (w : Workload) (now : UInt64) (shaper : Shaper) :
    List UInt64 → Shaper
  | [] => shaper
  | count :: counts =>
    match shaper.process options .directory (packetAt w count) now with
    | (_, _, shaper) => sendEach options w now shaper counts

/-- Let every worker send one packet at time `now`. -/
def round (options : ShapingOptions) (w : Workload) (s : State) (now : UInt64) : State :=
  match s with
  | ⟨shaper, counts⟩ => ⟨sendEach options w now shaper counts, counts.map (· + 1)⟩

/-- The note at the beginning of a load. -/
def startNote (workers : Nat) (w : Workload) : Note :=
  .info s!"Starting {workers} stress worker(s) over {w.frames.size} local address(es)"

/-- The note at the end of a load. -/
def stopNote : Note := .info "Duration elapsed, stopping workers"

/-! ## What came of it -/

/-- How long a load lasted, and the counters of both directions after it. -/
structure Summary where
  /-- In nanoseconds. -/
  elapsed : Nat
  counters : PerDirection Counters

namespace Summary

/-- The time of a load in seconds: the whole ones and the rest of them, each rounded. -/
def seconds (s : Summary) : Binary64 :=
  (Binary64.ofNat (s.elapsed / 1000000000)).add
    ((Binary64.ofNat (s.elapsed % 1000000000)).div (Binary64.ofNat 1000000000))

/-- The packets sent per second, or none if no time has passed. -/
def packetsPerSecond (s : Summary) : Except Trap UInt64 :=
  if s.seconds.mantissa = 0 then .ok 0
  else do
    let packets ← Word.add s.counters.ingress.packetsTotal s.counters.egress.packetsTotal
    return Word.clamp ((Binary64.ofNat packets.toNat).div s.seconds).floor

end Summary

/-- The lines about the counters of every entity that is limited in some direction. -/
def entityLines (s : Shaper) : List String :=
  s.limitedEntities.flatMap fun e =>
    Direction.all.filterMap fun d =>
      (s.entity? d e).map fun state => Report.counters s!"{e} {d.name}" state.counters

/-- The report about a load. -/
def report (s : Shaper) (summary : Summary) : Except Trap String := do
  let rate ← summary.packetsPerSecond
  let totals := Direction.all.map fun d => Report.counters d.name (summary.counters.get d)
  let speed := s!"{rate} packets/s over {summary.seconds.oneDecimal}s"
  let lanes := Direction.all.map fun d =>
    Report.caps d (s.lane d).caps ++ Report.ring d (s.lane d).ring
  return Report.unlines ("" :: totals ++ [speed] ++ entityLines s) ++ String.join lanes

end Stress

end Shaping
