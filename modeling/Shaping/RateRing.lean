import Shaping.Basic

/-!
# The rate ring

A `RateRing` estimates the throughput of one direction.  Time is cut into epochs of a tenth of a
second: the ring accumulates bytes into the open epoch (`RateRing.current`), and the first record
that comes at least an epoch's length after its start closes it, publishes its rate into one of ten
slots, and opens the next epoch with its own bytes.  There are no timers, so an epoch lasts until
traffic ends it.  One that lasted much longer than planned was an idle gap, and its rate is published
as zero.

`RateRing.average` is the mean over all ten slots, counting those that are empty or too old as zero.
The estimate is thus pulled down by silence and never runs ahead of what was recorded.

Epochs are numbered from 1 on; the epoch of generation `g` is published at position
`(g - 1) % 10`, and generation 0 marks a slot that was never written.
-/

set_option autoImplicit false

namespace Shaping

/-- An epoch.  While it is open, `amount` is the bytes seen so far; once it is published, its rate in
bytes per second. -/
structure Epoch where
  /-- The number of the epoch, or zero for none. -/
  generation : UInt64
  /-- When the epoch began. -/
  start : UInt64
  amount : UInt64
  deriving DecidableEq, Inhabited

namespace Epoch

/-- The slot that was never written. -/
def blank : Epoch := ⟨0, 0, 0⟩

end Epoch

/-- The open epoch and the ten published last. -/
structure RateRing where
  current : Epoch
  slots : Vector Epoch 10

namespace RateRing

/-- The least length of an epoch. -/
def epochLength : UInt64 := 100 * millisecond

/-- An epoch that lasted longer than this was an idle gap. -/
def staleLength : UInt64 := 300 * millisecond

/-- Published epochs that began this long ago or earlier are left out of the average. -/
def freshness : UInt64 := 1200 * millisecond

/-- The ring that has seen nothing. -/
def blank : RateRing := ⟨.blank, Vector.replicate 10 .blank⟩

/-- The rate of `bytes` over an epoch that lasted `elapsed` nanoseconds. -/
def epochRate (bytes elapsed : UInt64) : UInt64 :=
  if staleLength < elapsed then 0
  else Word.clamp (bytes.toNat * second.toNat / elapsed.toNat)

/-- The position at which the epoch of a generation is published. -/
def position (generation : UInt64) : Fin 10 :=
  Fin.ofNat 10 (generation - 1).toNat

/-- The number of the epoch after this one.  Zero is passed over, since it marks a blank slot. -/
def nextGeneration (generation : UInt64) : UInt64 := max (generation + 1) 1

/-- Account for `bytes` transferred at time `now`. -/
def record (ring : RateRing) (bytes now : UInt64) : RateRing :=
  match ring with
  | ⟨⟨generation, start, amount⟩, slots⟩ =>
    if generation = 0 then ⟨⟨1, now, bytes⟩, slots⟩
    else
      let elapsed := Word.subSat now start
      if elapsed < epochLength then ⟨⟨generation, start, Word.addSat amount bytes⟩, slots⟩
      else
        let closed := ⟨generation, start, epochRate amount elapsed⟩
        ⟨⟨nextGeneration generation, now, bytes⟩, slots.set (position generation) closed⟩

/-- What a published epoch adds to the sum that is averaged at time `now`. -/
def contribution (now : UInt64) (slot : Epoch) : UInt64 :=
  if slot.generation ≠ 0 ∧ Word.subSat now slot.start < freshness then slot.amount else 0

/-- The estimated rate in bytes per second at time `now`. -/
def average (ring : RateRing) (now : UInt64) : UInt64 :=
  ring.slots.foldl (fun total slot => Word.addSat total (contribution now slot)) 0 / 10

end RateRing

end Shaping
