import Shaping.Allocator
import Shaping.Journal

/-!
# Bandwidth plans

A `BandwidthPlan` is what an administrator says about one direction: how much bandwidth the hardware
guarantees, how much it can reach for a while, and for each tier the least and the most it should get.
Most of it may be left out by writing zero:

* without a burst rate there is no more than the guaranteed one;
* without a maximum, online traffic may use all that is guaranteed;
* without a minimum, online traffic gets what the minima of the other tiers leave.

`BandwidthPlan.withDefaults` fills these in.  A plan of zeros only means that there is no plan.

`BandwidthPlan.check` refuses a plan that cannot be kept.  It reports the first thing wrong in a fixed
order, so of two mistakes always the same one is named.

## Floors that do not hold

The allocator counts in whole megabytes per second, so a tier whose minimum is less than that can be
pushed down to a cap of zero, which is no cap at all.  Such plans are accepted, but
`BandwidthPlan.warnings` points them out.
-/

set_option autoImplicit false

namespace Shaping

/-- The plan of one direction, in bytes per second. -/
structure BandwidthPlan where
  guaranteed : UInt64
  burstable : UInt64
  tiers : PerTier Bounds
  deriving DecidableEq

/-- Why a plan cannot be kept. -/
inductive PlanRefusal where
  | guaranteedAboveBurstable (guaranteed burstable : UInt64)
  | mostAboveGuaranteed (tier : Tier) (most guaranteed : UInt64)
  | leastAboveMost (tier : Tier) (least most : UInt64)
  | sumAboveGuaranteed (sum guaranteed : UInt64)
  deriving DecidableEq

/-- The words for a refused plan. -/
def PlanRefusal.message : PlanRefusal → String
  | .guaranteedAboveBurstable guaranteed burstable =>
    s!"guaranteed bandwidth {guaranteed} exceeds burstable bandwidth {burstable}"
  | .mostAboveGuaranteed tier most guaranteed =>
    s!"{tier.name} max {most} exceeds guaranteed bandwidth {guaranteed}"
  | .leastAboveMost tier least most => s!"{tier.name} min {least} exceeds {tier.name} max {most}"
  | .sumAboveGuaranteed sum guaranteed =>
    s!"L1 max + L2 max ({sum}) exceeds guaranteed bandwidth {guaranteed}"

namespace BandwidthPlan

/-- No plan. -/
def unset : BandwidthPlan := ⟨0, 0, .const ⟨0, 0⟩⟩

/-- Is there no plan? -/
def isUnset (plan : BandwidthPlan) : Bool := plan = unset

/-- What a given rate stands for, zero being the default. -/
def orDefault (given default : UInt64) : UInt64 := if given = 0 then default else given

/-- The plan with everything filled in that was left out. -/
def withDefaults (plan : BandwidthPlan) : BandwidthPlan :=
  let rest := Word.subSat (Word.subSat plan.guaranteed plan.tiers.l1.least) plan.tiers.l2.least
  { guaranteed := plan.guaranteed
    burstable := orDefault plan.burstable plan.guaranteed
    tiers :=
      { plan.tiers with
        l0 := ⟨orDefault plan.tiers.l0.least rest, orDefault plan.tiers.l0.most plan.guaranteed⟩ } }

/-- Can the plan be kept?  Plans that are unset can. -/
def check (plan : BandwidthPlan) : Except PlanRefusal Unit :=
  let l1 := plan.tiers.l1
  let l2 := plan.tiers.l2
  let sum := Word.addSat l1.most l2.most
  if plan.isUnset then .ok ()
  else if plan.burstable < plan.guaranteed then
    .error (.guaranteedAboveBurstable plan.guaranteed plan.burstable)
  else if plan.guaranteed < l1.most then .error (.mostAboveGuaranteed .l1 l1.most plan.guaranteed)
  else if plan.guaranteed < l2.most then .error (.mostAboveGuaranteed .l2 l2.most plan.guaranteed)
  else if l1.most < l1.least then .error (.leastAboveMost .l1 l1.least l1.most)
  else if l2.most < l2.least then .error (.leastAboveMost .l2 l2.least l2.most)
  else if plan.guaranteed < sum then .error (.sumAboveGuaranteed sum plan.guaranteed)
  else .ok ()

/-- The tiers that the allocator can push down to a cap of zero. -/
def unshapedFloors (plan : BandwidthPlan) : List Tier :=
  Tier.all.filter fun t => (plan.tiers.get t).least < megabyte

/-- What looks odd about a plan that was checked.  Plans that are unset or refused are not looked at
that closely. -/
def warnings (plan : BandwidthPlan) : List Note :=
  match plan.isUnset, plan.check with
  | false, .ok _ =>
    plan.unshapedFloors.map fun t =>
      .warning s!"{t.name} minimum is below 1 MB/s; it goes unshaped once suppressed to its floor"
  | _, _ => []

/-- The plan in one line. -/
def text (plan : BandwidthPlan) : String :=
  let tier (name : String) (b : Bounds) : String := s!"{name}-min {b.least} {name}-max {b.most}"
  s!"hw {plan.guaranteed} " ++ tier "online" plan.tiers.l0 ++ " " ++
    tier "offline-l1" plan.tiers.l1 ++ " " ++ tier "offline-l2" plan.tiers.l2

/-- The plan as the packet path reads it. -/
def toRatePlan (plan : BandwidthPlan) : RatePlan :=
  ⟨!plan.isUnset, plan.guaranteed, plan.burstable, plan.tiers⟩

/-- The plan that the packet path reads. -/
def ofRatePlan (plan : RatePlan) : BandwidthPlan := ⟨plan.ceiling, plan.burst, plan.tiers⟩

theorem ofRatePlan_toRatePlan (plan : BandwidthPlan) : ofRatePlan plan.toRatePlan = plan := rfl

end BandwidthPlan

end Shaping
