import Shaping.Limiter
import Shaping.RateRing

/-!
# Dividing a direction's bandwidth among its tiers

A `RatePlan` is the bandwidth plan of one direction as the packet path reads it: a ceiling for all
tiers together, and a floor and an upper bound for each.  `TierCaps` are the caps in force, one
limiter per tier, which the allocator moves within those bounds.

`TierCaps.adjust` runs from the packet path, at most once per second.  It first brings every cap into
its bounds, which may have changed since, and then compares the observed rate with the ceiling:

* above it, the excess is taken from the tiers in `Tier.suppressOrder`, each down to its floor before
  the next one is touched (`suppress`);
* otherwise, the headroom is given to the tiers in `Tier.recoverOrder`, each up to its upper bound
  before the next one is touched (`recover`).

All of this counts in whole megabytes per second.  A cap is only written when its number of megabytes
changes, so a cap that is not a whole number of megabytes keeps its odd bytes until it is first moved.

The upper bound of online traffic is the ceiling itself and not the maximum that the plan gives for
it: online traffic may use everything that is there.
-/

set_option autoImplicit false

namespace Shaping

/-- The least and the most that a tier may be given, in bytes per second. -/
structure Bounds where
  least : UInt64
  most : UInt64
  deriving DecidableEq

/-- The bandwidth plan of one direction, in bytes per second. -/
structure RatePlan where
  /-- Is there a plan at all? -/
  configured : Bool
  /-- The bandwidth that all tiers share. -/
  ceiling : UInt64
  /-- The bandwidth that the hardware can reach for a while. -/
  burst : UInt64
  tiers : PerTier Bounds
  deriving DecidableEq

namespace RatePlan

/-- No plan. -/
def blank : RatePlan := ⟨false, 0, 0, .const ⟨0, 0⟩⟩

/-- The most that the allocator gives a tier: the whole ceiling to online traffic, and to the other
tiers their maximum. -/
def upperBound (plan : RatePlan) : Tier → UInt64
  | .l0 => plan.ceiling
  | t => (plan.tiers.get t).most

end RatePlan

/-- The caps in force in one direction. -/
structure TierCaps where
  /-- When the allocator ran last, or `never` before the first packet. -/
  adjustedAt : UInt64
  limiters : PerTier Limiter
  deriving DecidableEq

namespace TierCaps

/-- The least time between two runs of the allocator. -/
def adjustInterval : UInt64 := second

/-- The caps before the first packet. -/
def blank : TierCaps := ⟨never, .const (.idle 0)⟩

/-- Has a packet set the caps up? -/
def isSetUp (caps : TierCaps) : Bool := caps.adjustedAt != never

/-- Set the caps up at the first packet of the direction, each tier at its upper bound; later packets
find them set up. -/
def setUp (caps : TierCaps) (plan : RatePlan) (now : UInt64) : TierCaps :=
  if caps.isSetUp then caps
  else ⟨now, .ofFn fun t => .idle (plan.upperBound t)⟩

/-- Change the cap of one tier and keep its bookkeeping. -/
def setRate (caps : TierCaps) (t : Tier) (rate : UInt64) : TierCaps :=
  { caps with limiters := caps.limiters.modify t (·.withRate rate) }

end TierCaps

/-! ## Moving bandwidth -/

namespace Allocator

/-- The limiters of the tiers, and how many megabytes per second are still to be moved. -/
structure Transfer where
  remaining : UInt64
  limiters : PerTier Limiter

namespace Transfer

/-- Set the cap of a tier to a whole number of megabytes per second. -/
def setMegabytes (limiters : PerTier Limiter) (t : Tier) (megabytes : UInt64) : PerTier Limiter :=
  limiters.modify t (·.withRate (Word.mulSat megabytes megabyte))

/-- Take as much as is still to be taken from a tier that stands at `cap`, but leave it its `floor`. -/
def take (floor cap : PerTier UInt64) (x : Transfer) (t : Tier) : Transfer :=
  if x.remaining = 0 ∨ cap.get t ≤ floor.get t then x
  else
    let room := cap.get t - floor.get t
    if room ≤ x.remaining then
      ⟨x.remaining - room, setMegabytes x.limiters t (floor.get t)⟩
    else ⟨0, setMegabytes x.limiters t (cap.get t - x.remaining)⟩

/-- Give as much as is still to be given to a tier that stands at `cap`, but no more than takes it to
`upper`. -/
def give (upper cap : PerTier UInt64) (x : Transfer) (t : Tier) : Transfer :=
  if x.remaining = 0 ∨ upper.get t ≤ cap.get t then x
  else
    let room := upper.get t - cap.get t
    if room ≤ x.remaining then
      ⟨x.remaining - room, setMegabytes x.limiters t (upper.get t)⟩
    else ⟨0, setMegabytes x.limiters t (cap.get t + x.remaining)⟩

end Transfer

/-- Take `overflow` megabytes per second away, from the least important tier first. -/
def suppress (overflow : UInt64) (floor cap : PerTier UInt64) (limiters : PerTier Limiter) :
    PerTier Limiter :=
  (Tier.suppressOrder.foldl (Transfer.take floor cap) ⟨overflow, limiters⟩).limiters

/-- Give `headroom` megabytes per second back, to the most important tier first. -/
def recover (headroom : UInt64) (upper cap : PerTier UInt64) (limiters : PerTier Limiter) :
    PerTier Limiter :=
  (Tier.recoverOrder.foldl (Transfer.give upper cap) ⟨headroom, limiters⟩).limiters

/-- The floor of each tier in megabytes per second. -/
def floors (plan : RatePlan) : PerTier UInt64 :=
  .ofFn fun t => (plan.tiers.get t).least / megabyte

/-- The upper bound of each tier in megabytes per second. -/
def uppers (plan : RatePlan) : PerTier UInt64 :=
  .ofFn fun t => plan.upperBound t / megabyte

/-- The cap of each tier in megabytes per second, brought into its bounds.  Where the bounds
contradict each other, the floor wins. -/
def clamped (plan : RatePlan) (limiters : PerTier Limiter) : PerTier UInt64 :=
  .ofFn fun t =>
    max (min ((limiters.get t).rate / megabyte) ((uppers plan).get t)) ((floors plan).get t)

/-- Write the caps that had to be brought into their bounds, and no others. -/
def clampAll (plan : RatePlan) (limiters : PerTier Limiter) : PerTier Limiter :=
  let cap := clamped plan limiters
  Tier.all.foldl (fun written t =>
    if cap.get t = (limiters.get t).rate / megabyte then written
    else Transfer.setMegabytes written t (cap.get t)) limiters

/-- Divide the bandwidth anew, given the observed rate in bytes per second. -/
def redistribute (plan : RatePlan) (observed : UInt64) (limiters : PerTier Limiter) :
    PerTier Limiter :=
  let ceiling := plan.ceiling / megabyte
  let average := observed / megabyte
  let cap := clamped plan limiters
  let limiters := clampAll plan limiters
  if ceiling < average then suppress (average - ceiling) (floors plan) cap limiters
  else recover (ceiling - average) (uppers plan) cap limiters

end Allocator

/-- Is it too early for the allocator to run again? -/
def TierCaps.isSettled (caps : TierCaps) (now : UInt64) : Bool :=
  caps.adjustedAt != never && Word.subSat now caps.adjustedAt < TierCaps.adjustInterval

/-- Run the allocator, unless it is too early for that. -/
def TierCaps.adjust (caps : TierCaps) (plan : RatePlan) (ring : RateRing) (now : UInt64) : TierCaps :=
  if caps.isSettled now then caps
  else ⟨now, Allocator.redistribute plan (ring.average now) caps.limiters⟩

end Shaping
