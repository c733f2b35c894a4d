import Shaping.Allocator
import Shaping.Proofs.RateRing.Exact

/-!
# The allocator in exact arithmetic

The exact forms of setting caps up and of running the allocator, which agree with them for every plan, all
caps and every ring (`TierCaps.setUpExact_eq`, `TierCaps.adjustExact_eq`).  No bounds have to go together, and
no cap has to be within its bounds.

What the allocator subtracts it has always compared before: the excess with the ceiling, a cap with its
floor, what a tier has to spare with what is still to be taken.  It adds to a cap only what is less than the
way to the upper bound, and the upper bound is a word.

Values of tiers are kept in arrays of three, so reading or writing one is an access by its place, too
(`PerTier.getExact`, `PerTier.modifyExact`).

Each exact form is the definition with a check in front of every operation that may trap, and each equation
between the two follows the branches of the definition.  The branch that is taken says what has to be known:
that a difference was not taken the other way around.  So no invariant is needed, and no lemma about the
allocator except for its definition.
-/

set_option autoImplicit false

namespace Shaping

/-! ## One value for each tier

To fill all three values in turn is to make them anew, since none of them is left (`fillExact_eq`). -/

namespace PerTier

variable {α : Type}

/-- `get` by the place of the tier. -/
def getExact (p : PerTier α) (t : Tier) : Except Trap α := element p.toList.toArray t.index

/-- `modify` by the place of the tier. -/
def modifyExact (p : PerTier α) (t : Tier) (f : α → α) : Except Trap (PerTier α) := do
  let _ ← p.getExact t
  return p.modify t f

/-- Replace the values of all tiers, one after the other. -/
def fillExact (p : PerTier α) (f : Tier → Except Trap α) : Except Trap (PerTier α) :=
  Tier.all.foldlM (fun filled t => do
    let a ← f t
    filled.modifyExact t fun _ => a) p

theorem getExact_eq (p : PerTier α) (t : Tier) : p.getExact t = pure (p.get t) := by
  cases t <;> rfl

theorem modifyExact_eq (p : PerTier α) (t : Tier) (f : α → α) :
    p.modifyExact t f = pure (p.modify t f) := by
  rw [modifyExact, getExact_eq, pure_bind]

theorem fillExact_eq (p : PerTier α) {f : Tier → Except Trap α} {g : Tier → α}
    (h : ∀ t, f t = pure (g t)) : p.fillExact f = pure (.ofFn g) := by
  simp only [fillExact, h, pure_bind, modifyExact_eq, List.foldlM_pure]
  rfl

end PerTier

/-! ## Moving bandwidth

Only what moves bandwidth subtracts.  In each case the test in front has the two numbers in the order that
the subtraction needs, as it would be pointless to move anything otherwise. -/

namespace Allocator

namespace Transfer

/-- `setMegabytes` by the place of the tier. -/
def setMegabytesExact (limiters : PerTier Limiter) (t : Tier) (megabytes : UInt64) :
    Except Trap (PerTier Limiter) :=
  limiters.modifyExact t (·.withRate (Word.mulSat megabytes megabyte))

/-- `take` in exact arithmetic. -/
def takeExact (floor cap : PerTier UInt64) (x : Transfer) (t : Tier) : Except Trap Transfer := do
  let least ← floor.getExact t
  let stands ← cap.getExact t
  if x.remaining = 0 ∨ stands ≤ least then return x
  else
    let room ← Word.sub stands least
    if room ≤ x.remaining then
      let remaining ← Word.sub x.remaining room
      return ⟨remaining, ← setMegabytesExact x.limiters t least⟩
    else
      let left ← Word.sub stands x.remaining
      return ⟨0, ← setMegabytesExact x.limiters t left⟩

/-- `give` in exact arithmetic. -/
def giveExact (upper cap : PerTier UInt64) (x : Transfer) (t : Tier) : Except Trap Transfer := do
  let most ← upper.getExact t
  let stands ← cap.getExact t
  if x.remaining = 0 ∨ most ≤ stands then return x
  else
    let room ← Word.sub most stands
    if room ≤ x.remaining then
      let remaining ← Word.sub x.remaining room
      return ⟨remaining, ← setMegabytesExact x.limiters t most⟩
    else
      let raised ← Word.add stands x.remaining
      return ⟨0, ← setMegabytesExact x.limiters t raised⟩

theorem setMegabytesExact_eq (limiters : PerTier Limiter) (t : Tier) (megabytes : UInt64) :
    setMegabytesExact limiters t megabytes = pure (setMegabytes limiters t megabytes) :=
  limiters.modifyExact_eq t _

theorem takeExact_eq (floor cap : PerTier UInt64) (x : Transfer) (t : Tier) :
    x.takeExact floor cap t = pure (x.take floor cap t) := by
  rw [takeExact, take, PerTier.getExact_eq, pure_bind, PerTier.getExact_eq, pure_bind]
  split
  · rfl
  · rename_i hmove
    have hle : floor.get t ≤ cap.get t := UInt64.le_of_lt (UInt64.not_le.mp fun h => hmove (.inr h))
    have hroom := UInt64.toNat_sub_of_le _ _ hle
    rw [Word.sub_of_le hle, pure_bind]
    dsimp only
    split
    · rename_i hsmall
      rw [Word.sub_of_le hsmall, pure_bind, setMegabytesExact_eq, pure_bind]
    · -- what is still to be taken is less than the tier has to spare
      rename_i hlarge
      have hrest : x.remaining ≤ cap.get t := by
        rw [UInt64.le_iff_toNat_le, hroom] at hlarge
        rw [UInt64.le_iff_toNat_le]
        omega
      rw [Word.sub_of_le hrest, pure_bind, setMegabytesExact_eq, pure_bind]

theorem giveExact_eq (upper cap : PerTier UInt64) (x : Transfer) (t : Tier) :
    x.giveExact upper cap t = pure (x.give upper cap t) := by
  rw [giveExact, give, PerTier.getExact_eq, pure_bind, PerTier.getExact_eq, pure_bind]
  split
  · rfl
  · rename_i hmove
    have hle : cap.get t ≤ upper.get t := UInt64.le_of_lt (UInt64.not_le.mp fun h => hmove (.inr h))
    have hroom := UInt64.toNat_sub_of_le _ _ hle
    rw [Word.sub_of_le hle, pure_bind]
    dsimp only
    split
    · rename_i hsmall
      rw [Word.sub_of_le hsmall, pure_bind, setMegabytesExact_eq, pure_bind]
    · -- the sum is below the upper bound
      rename_i hlarge
      have hsum : (cap.get t).toNat + x.remaining.toNat < UInt64.size := by
        have htop := (upper.get t).toNat_lt_size
        rw [UInt64.le_iff_toNat_le, hroom] at hlarge
        rw [UInt64.le_iff_toNat_le] at hle
        omega
      rw [Word.add_of_lt hsum, pure_bind, setMegabytesExact_eq, pure_bind]

end Transfer

/-- `suppress` in exact arithmetic. -/
def suppressExact (overflow : UInt64) (floor cap : PerTier UInt64) (limiters : PerTier Limiter) :
    Except Trap (PerTier Limiter) := do
  return (← Tier.suppressOrder.foldlM (Transfer.takeExact floor cap) ⟨overflow, limiters⟩).limiters

/-- `recover` in exact arithmetic. -/
def recoverExact (headroom : UInt64) (upper cap : PerTier UInt64) (limiters : PerTier Limiter) :
    Except Trap (PerTier Limiter) := do
  return (← Tier.recoverOrder.foldlM (Transfer.giveExact upper cap) ⟨headroom, limiters⟩).limiters

theorem suppressExact_eq (overflow : UInt64) (floor cap : PerTier UInt64)
    (limiters : PerTier Limiter) :
    suppressExact overflow floor cap limiters = pure (suppress overflow floor cap limiters) := by
  have htake : Transfer.takeExact floor cap = fun x t => pure (x.take floor cap t) :=
    funext fun x => funext (Transfer.takeExact_eq floor cap x)
  rw [suppressExact, htake, List.foldlM_pure, pure_bind]
  rfl

theorem recoverExact_eq (headroom : UInt64) (upper cap : PerTier UInt64)
    (limiters : PerTier Limiter) :
    recoverExact headroom upper cap limiters = pure (recover headroom upper cap limiters) := by
  have hgive : Transfer.giveExact upper cap = fun x t => pure (x.give upper cap t) :=
    funext fun x => funext (Transfer.giveExact_eq upper cap x)
  rw [recoverExact, hgive, List.foldlM_pure, pure_bind]
  rfl

/-! ## The bounds

Bounds are quotients by a megabyte, which is not zero, and what is taken of them are minima and maxima. -/

end Allocator

/-- `upperBound` by the place of the tier. -/
def RatePlan.upperBoundExact (plan : RatePlan) : Tier → Except Trap UInt64
  | .l0 => return plan.ceiling
  | t => return (← plan.tiers.getExact t).most

theorem RatePlan.upperBoundExact_eq (plan : RatePlan) (t : Tier) :
    plan.upperBoundExact t = pure (plan.upperBound t) := by
  cases t <;> rfl

namespace Allocator

/-- `floors` in exact arithmetic. -/
def floorsExact (plan : RatePlan) : Except Trap (PerTier UInt64) :=
  (PerTier.const 0).fillExact fun t => do Word.div (← plan.tiers.getExact t).least megabyte

/-- `uppers` in exact arithmetic. -/
def uppersExact (plan : RatePlan) : Except Trap (PerTier UInt64) :=
  (PerTier.const 0).fillExact fun t => do Word.div (← plan.upperBoundExact t) megabyte

/-- `clamped` in exact arithmetic. -/
def clampedExact (plan : RatePlan) (limiters : PerTier Limiter) : Except Trap (PerTier UInt64) := do
  let floor ← floorsExact plan
  let upper ← uppersExact plan
  (PerTier.const 0).fillExact fun t => do
    let stands ← Word.div (← limiters.getExact t).rate megabyte
    return max (min stands (← upper.getExact t)) (← floor.getExact t)

/-- `clampAll` in exact arithmetic. -/
def clampAllExact (plan : RatePlan) (limiters : PerTier Limiter) : Except Trap (PerTier Limiter) := do
  let cap ← clampedExact plan limiters
  Tier.all.foldlM (fun written t => do
    let stands ← Word.div (← limiters.getExact t).rate megabyte
    let megabytes ← cap.getExact t
    if megabytes = stands then return written
    else Transfer.setMegabytesExact written t megabytes) limiters

/-- `redistribute` in exact arithmetic. -/
def redistributeExact (plan : RatePlan) (observed : UInt64) (limiters : PerTier Limiter) :
    Except Trap (PerTier Limiter) := do
  let ceiling ← Word.div plan.ceiling megabyte
  let average ← Word.div observed megabyte
  let cap ← clampedExact plan limiters
  let written ← clampAllExact plan limiters
  if ceiling < average then
    suppressExact (← Word.sub average ceiling) (← floorsExact plan) cap written
  else recoverExact (← Word.sub ceiling average) (← uppersExact plan) cap written

/-- A rate in megabytes. -/
theorem div_megabyte (rate : UInt64) : Word.div rate megabyte = pure (rate / megabyte) :=
  Word.div_of_ne_zero _ (by decide)

variable (plan : RatePlan) (limiters : PerTier Limiter)

theorem floorsExact_eq : floorsExact plan = pure (floors plan) :=
  PerTier.fillExact_eq _ fun t => by rw [PerTier.getExact_eq, pure_bind, div_megabyte]

theorem uppersExact_eq : uppersExact plan = pure (uppers plan) :=
  PerTier.fillExact_eq _ fun t => by rw [plan.upperBoundExact_eq, pure_bind, div_megabyte]

theorem clampedExact_eq : clampedExact plan limiters = pure (clamped plan limiters) := by
  rw [clampedExact, floorsExact_eq, pure_bind, uppersExact_eq, pure_bind]
  refine PerTier.fillExact_eq _ fun t => ?_
  simp only [PerTier.getExact_eq, pure_bind, div_megabyte]

theorem clampAllExact_eq : clampAllExact plan limiters = pure (clampAll plan limiters) := by
  rw [clampAllExact, clampedExact_eq, pure_bind, clampAll]
  simp only [PerTier.getExact_eq, pure_bind, div_megabyte, Transfer.setMegabytesExact_eq,
    ← apply_ite, List.foldlM_pure]

theorem redistributeExact_eq (observed : UInt64) :
    redistributeExact plan observed limiters = pure (redistribute plan observed limiters) := by
  rw [redistributeExact, redistribute]
  simp only [div_megabyte, clampedExact_eq, clampAllExact_eq, floorsExact_eq, uppersExact_eq, pure_bind]
  split
  · rename_i hover
    rw [Word.sub_of_le (UInt64.le_of_lt hover), pure_bind, suppressExact_eq]
  · rename_i hunder
    rw [Word.sub_of_le (UInt64.not_lt.mp hunder), pure_bind, recoverExact_eq]

end Allocator

/-! ## The caps of a direction -/

namespace TierCaps

/-- `setUp` by the places of the tiers. -/
def setUpExact (caps : TierCaps) (plan : RatePlan) (now : UInt64) : Except Trap TierCaps := do
  if caps.isSetUp then return caps
  else return ⟨now, ← caps.limiters.fillExact fun t => do return .idle (← plan.upperBoundExact t)⟩

/-- `adjust` in exact arithmetic. -/
def adjustExact (caps : TierCaps) (plan : RatePlan) (ring : RateRing) (now : UInt64) :
    Except Trap TierCaps := do
  if caps.isSettled now then return caps
  else return ⟨now, ← Allocator.redistributeExact plan (← ring.averageExact now) caps.limiters⟩

theorem setUpExact_eq (caps : TierCaps) (plan : RatePlan) (now : UInt64) :
    caps.setUpExact plan now = pure (caps.setUp plan now) := by
  rw [setUpExact, setUp]
  split
  · rfl
  · rw [PerTier.fillExact_eq _ fun t => by rw [plan.upperBoundExact_eq, pure_bind], pure_bind]

/-- **The allocator never traps**, however its bounds may contradict each other. -/
theorem adjustExact_eq (caps : TierCaps) (plan : RatePlan) (ring : RateRing) (now : UInt64) :
    caps.adjustExact plan ring now = pure (caps.adjust plan ring now) := by
  rw [adjustExact, adjust]
  split
  · rfl
  · rw [RateRing.averageExact_eq, pure_bind, Allocator.redistributeExact_eq, pure_bind]

end TierCaps

end Shaping
