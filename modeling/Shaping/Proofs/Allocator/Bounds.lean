import Shaping.Allocator

/-!
# The bounds of the caps

After a run of the allocator every cap is in its bounds, counted in whole megabytes per second, whatever
it was before and whatever the plan says (`megabytes_adjust`).  Where the
bounds contradict each other the floor wins.

Three things write caps: bringing them into their bounds, taking and giving.  Each of them sets a cap to a
whole number of megabytes between the bounds or does not touch it, so `Settled` is what they all keep.
A cap that is not touched was in its bounds already; this is why `clampAll` runs first, and it is also
why odd bytes may survive.

The statement to prove would be that the caps are in their bounds after a run.  It does not go through the
moves, because a move starts from the number in `clamped` and not from the cap in force, and the two need
not be connected by anything in the statement.  `Settled` compares with the limiter before the run, not
before the move, and says what may have become of it; then a move either leaves a limiter alone or sets it
to a number that fits, and of the second it does not matter what was there (`Settled.withRate`).
-/

set_option autoImplicit false

namespace Shaping

theorem toNat_megabyte : megabyte.toNat = 1000000 := rfl

namespace RatePlan

/-- The floor of a tier in whole megabytes. -/
def floorMegabytes (plan : RatePlan) (t : Tier) : Nat := (plan.tiers.get t).least.toNat / 1000000

/-- The most that the allocator gives a tier, in whole megabytes; but never less than the floor. -/
def topMegabytes (plan : RatePlan) (t : Tier) : Nat :=
  max (plan.floorMegabytes t) ((plan.upperBound t).toNat / 1000000)

theorem floor_le_top (plan : RatePlan) (t : Tier) : plan.floorMegabytes t ≤ plan.topMegabytes t :=
  Nat.le_max_left _ _

/-- Bounds can be written in bytes. -/
theorem topMegabytes_mul_lt (plan : RatePlan) (t : Tier) :
    plan.topMegabytes t * 1000000 < UInt64.size := by
  have hleast := (plan.tiers.get t).least.toNat_lt_size
  have hupper := (plan.upperBound t).toNat_lt_size
  have := Nat.div_mul_le_self (plan.tiers.get t).least.toNat (1000000)
  have := Nat.div_mul_le_self (plan.upperBound t).toNat (1000000)
  rw [topMegabytes, floorMegabytes]
  omega

end RatePlan

namespace Allocator

variable (plan : RatePlan) (t : Tier)

theorem toNat_floors : ((floors plan).get t).toNat = plan.floorMegabytes t := by
  rw [floors, PerTier.get_ofFn, UInt64.toNat_div, toNat_megabyte, RatePlan.floorMegabytes]

theorem toNat_uppers : ((uppers plan).get t).toNat = (plan.upperBound t).toNat / 1000000 := by
  rw [uppers, PerTier.get_ofFn, UInt64.toNat_div, toNat_megabyte]

/-- Is this a number of megabytes that a tier may have? -/
def Fits (m : UInt64) : Prop := plan.floorMegabytes t ≤ m.toNat ∧ m.toNat ≤ plan.topMegabytes t

variable {plan : RatePlan} {t : Tier}

theorem fits_clamped (limiters : PerTier Limiter) : Fits plan t ((clamped plan limiters).get t) := by
  have hfloor := toNat_floors plan t
  have hupper := toNat_uppers plan t
  rw [clamped, PerTier.get_ofFn, Fits, Word.toNat_max, Word.toNat_min, hfloor, hupper,
    RatePlan.topMegabytes]
  omega

/-- A number of megabytes that fits is a number of bytes. -/
theorem Fits.toNat_bytes {m : UInt64} (h : Fits plan t m) :
    (Word.mulSat m megabyte).toNat = m.toNat * 1000000 := by
  have htop := plan.topMegabytes_mul_lt t
  have hle : m.toNat * 1000000 ≤ plan.topMegabytes t * 1000000 := Nat.mul_le_mul_right _ h.2
  rw [Word.toNat_mulSat, toNat_megabyte]
  exact Nat.min_eq_left (Nat.le_sub_one_of_lt (Nat.lt_of_le_of_lt hle htop))

/-! ## What is kept

There are two cases because a cap that is in its bounds keeps its odd bytes, which no number of megabytes
says.  That nothing but the rate was written is part of both, so it need not be stated besides
(`exists_withRate`). -/

theorem withRate_withRate (l : Limiter) (rate rate' : UInt64) :
    (l.withRate rate).withRate rate' = l.withRate rate' := rfl

/-- A cap that was in its bounds is as before, or else it was set to a number of megabytes that fits. -/
inductive Settled (plan : RatePlan) (t : Tier) (before : Limiter) : Limiter → Prop
  | kept : Fits plan t (before.rate / megabyte) → Settled plan t before before
  | set {m : UInt64} : Fits plan t m → Settled plan t before (before.withRate (Word.mulSat m megabyte))

namespace Settled

variable {before after : Limiter}

/-- A cap that is settled may be set again. -/
theorem withRate (h : Settled plan t before after) {m : UInt64} (hm : Fits plan t m) :
    Settled plan t before (after.withRate (Word.mulSat m megabyte)) := by
  cases h with
  | kept _ => exact .set hm
  | set _ =>
    rw [withRate_withRate]
    exact .set hm

/-- Only the rate is ever changed. -/
theorem exists_withRate (h : Settled plan t before after) : ∃ rate, after = before.withRate rate := by
  cases h with
  | kept _ => exact ⟨before.rate, rfl⟩
  | @set m _ => exact ⟨_, rfl⟩

/-- **A settled cap fits.** -/
theorem fits (h : Settled plan t before after) :
    plan.floorMegabytes t ≤ after.rate.toNat / 1000000 ∧
      after.rate.toNat / 1000000 ≤ plan.topMegabytes t := by
  cases h with
  | kept hfits => rwa [Fits, UInt64.toNat_div, toNat_megabyte] at hfits
  | @set m hfits =>
    have hrate : (before.withRate (Word.mulSat m megabyte)).rate.toNat = m.toNat * 1000000 :=
      hfits.toNat_bytes
    rw [hrate, Nat.mul_div_cancel _ (by decide)]
    exact hfits

end Settled

/-! ## Moving bandwidth

Both cascades go through a list of tiers, and so does bringing caps into their bounds.  What each of them
keeps is shown for one tier, with the tier arbitrary, and carried along the list by `limiters_foldl`.  In
which order the tiers come makes no difference to the bounds.

Only in `take` and `give` is there anything to calculate.  The part taken is less than what the tier has
above its floor, so the difference is a difference of numbers and stays above the floor; the part given is
less than the way up, so the sum is a sum of numbers and stays below the upper bound. -/

theorem setMegabytes_get (limiters : PerTier Limiter) (t t' : Tier) (m : UInt64) :
    (Transfer.setMegabytes limiters t m).get t'
      = if t' = t then (limiters.get t).withRate (Word.mulSat m megabyte) else limiters.get t' := by
  split
  · rename_i h
    rw [h, Transfer.setMegabytes, PerTier.get_modify_self]
  · rename_i h
    rw [Transfer.setMegabytes, PerTier.get_modify_of_ne _ h]

/-- Setting a cap to something that fits leaves caps settled. -/
theorem settled_setMegabytes {before limiters : PerTier Limiter}
    (h : ∀ t, Settled plan t (before.get t) (limiters.get t)) {t : Tier} {m : UInt64}
    (hm : Fits plan t m) (t' : Tier) :
    Settled plan t' (before.get t') ((Transfer.setMegabytes limiters t m).get t') := by
  rw [setMegabytes_get]
  split
  · rename_i ht
    subst ht
    exact (h t').withRate hm
  · exact h t'

/-- Taking stops at the floor. -/
theorem settled_take {before : PerTier Limiter} {cap : PerTier UInt64}
    (hcap : ∀ t, Fits plan t (cap.get t)) {x : Transfer}
    (h : ∀ t, Settled plan t (before.get t) (x.limiters.get t)) (t : Tier) :
    ∀ t', Settled plan t' (before.get t') ((x.take (floors plan) cap t).limiters.get t') := by
  rw [Transfer.take]
  split
  · exact h
  · rename_i hmove
    have hfloor := toNat_floors plan t
    have hlt : (floors plan).get t < cap.get t := UInt64.not_le.mp fun hle => hmove (Or.inr hle)
    have hle := UInt64.le_of_lt hlt
    have hroom := UInt64.toNat_sub_of_le _ _ hle
    rw [UInt64.le_iff_toNat_le] at hle
    dsimp only
    split
    · exact settled_setMegabytes h ⟨Nat.le_of_eq hfloor.symm, hfloor ▸ plan.floor_le_top t⟩
    · rename_i hlarge
      have hrest : x.remaining < cap.get t - (floors plan).get t := UInt64.not_le.mp hlarge
      rw [UInt64.lt_iff_toNat_lt, hroom] at hrest
      have hleft : (cap.get t - x.remaining).toNat = (cap.get t).toNat - x.remaining.toNat :=
        UInt64.toNat_sub_of_le _ _ (by rw [UInt64.le_iff_toNat_le]; omega)
      have htop := (hcap t).2
      exact settled_setMegabytes h ⟨by omega, by omega⟩

/-- Giving changes nothing, or raises one cap within its bound. -/
theorem give_cases (upper cap : PerTier UInt64) (x : Transfer) (t : Tier) :
    (x.give upper cap t).limiters = x.limiters ∨
      ∃ m, (cap.get t).toNat < m.toNat ∧ m.toNat ≤ (upper.get t).toNat ∧
        (x.give upper cap t).limiters = Transfer.setMegabytes x.limiters t m := by
  rw [Transfer.give]
  split
  · exact Or.inl rfl
  · rename_i hmove
    rw [not_or, ← UInt64.toNat_inj, UInt64.toNat_zero, UInt64.not_le] at hmove
    obtain ⟨hpos, hlt⟩ := hmove
    have hroom := UInt64.toNat_sub_of_le _ _ (UInt64.le_of_lt hlt)
    rw [UInt64.lt_iff_toNat_lt] at hlt
    dsimp only
    split
    · exact Or.inr ⟨upper.get t, hlt, Nat.le_refl _, rfl⟩
    · rename_i hlarge
      have hrest : x.remaining < upper.get t - cap.get t := UInt64.not_le.mp hlarge
      rw [UInt64.lt_iff_toNat_lt, hroom] at hrest
      have hmore : (cap.get t + x.remaining).toNat = (cap.get t).toNat + x.remaining.toNat := by
        have := (upper.get t).toNat_lt
        rw [UInt64.toNat_add]
        exact Nat.mod_eq_of_lt (by omega)
      exact Or.inr ⟨cap.get t + x.remaining, by omega, by omega, rfl⟩

/-- Giving stops at the upper bound. -/
theorem settled_give {before : PerTier Limiter} {cap : PerTier UInt64}
    (hcap : ∀ t, Fits plan t (cap.get t)) {x : Transfer}
    (h : ∀ t, Settled plan t (before.get t) (x.limiters.get t)) (t : Tier) :
    ∀ t', Settled plan t' (before.get t') ((x.give (uppers plan) cap t).limiters.get t') := by
  rcases give_cases (uppers plan) cap x t with hsame | ⟨m, hlow, hhigh, hset⟩
  · rw [hsame]
    exact h
  · have htop : ((uppers plan).get t).toNat ≤ plan.topMegabytes t :=
      toNat_uppers plan t ▸ Nat.le_max_right _ _
    have hbottom := (hcap t).1
    rw [hset]
    exact settled_setMegabytes h ⟨by omega, by omega⟩

/-- What one move keeps of every limiter all of them keep. -/
theorem limiters_foldl {P : Tier → Limiter → Prop} {move : Transfer → Tier → Transfer}
    (hmove : ∀ x t, (∀ t', P t' (x.limiters.get t')) → ∀ t', P t' ((move x t).limiters.get t'))
    (order : List Tier) {x : Transfer} (h : ∀ t, P t (x.limiters.get t)) :
    ∀ t, P t ((order.foldl move x).limiters.get t) := by
  induction order generalizing x with
  | nil => exact h
  | cons t order ih => exact ih (hmove x t h)

/-- Bringing one cap into its bounds. -/
def clampOne (plan : RatePlan) (limiters written : PerTier Limiter) (t : Tier) : PerTier Limiter :=
  if (clamped plan limiters).get t = (limiters.get t).rate / megabyte then written
  else Transfer.setMegabytes written t ((clamped plan limiters).get t)

theorem clampOne_get_self (plan : RatePlan) (limiters written : PerTier Limiter) (t : Tier) :
    (clampOne plan limiters written t).get t =
      if (clamped plan limiters).get t = (limiters.get t).rate / megabyte then written.get t
      else (written.get t).withRate (Word.mulSat ((clamped plan limiters).get t) megabyte) := by
  rw [clampOne]
  split
  · rfl
  · rw [setMegabytes_get, if_pos rfl]

theorem clampOne_get_of_ne (plan : RatePlan) (limiters written : PerTier Limiter) {t t' : Tier}
    (h : t' ≠ t) : (clampOne plan limiters written t).get t' = written.get t' := by
  rw [clampOne]
  split
  · rfl
  · rw [setMegabytes_get, if_neg h]

/-- Bringing caps into their bounds writes those that are not, and no others. -/
theorem clampAll_get (plan : RatePlan) (limiters : PerTier Limiter) (t : Tier) :
    (clampAll plan limiters).get t =
      if (clamped plan limiters).get t = (limiters.get t).rate / megabyte then limiters.get t
      else (limiters.get t).withRate (Word.mulSat ((clamped plan limiters).get t) megabyte) := by
  have hfold : clampAll plan limiters = clampOne plan limiters (clampOne plan limiters
      (clampOne plan limiters limiters .l0) .l1) .l2 := rfl
  rw [hfold]
  cases t with
  | l0 =>
    rw [clampOne_get_of_ne _ _ _ (by decide), clampOne_get_of_ne _ _ _ (by decide),
      clampOne_get_self]
  | l1 =>
    rw [clampOne_get_of_ne _ _ _ (by decide), clampOne_get_self,
      clampOne_get_of_ne _ _ _ (by decide)]
  | l2 =>
    rw [clampOne_get_self, clampOne_get_of_ne _ _ _ (by decide),
      clampOne_get_of_ne _ _ _ (by decide)]

theorem settled_clampAll (limiters : PerTier Limiter) (t : Tier) :
    Settled plan t (limiters.get t) ((clampAll plan limiters).get t) := by
  have hfits : Fits plan t _ := fits_clamped limiters
  rw [clampAll_get]
  split
  · rename_i hsame
    rw [hsame] at hfits
    exact .kept hfits
  · exact .set hfits

/-- **A run of the allocator settles every cap.** -/
theorem settled_redistribute (plan : RatePlan) (observed : UInt64) (limiters : PerTier Limiter)
    (t : Tier) :
    Settled plan t (limiters.get t) ((redistribute plan observed limiters).get t) := by
  have hcap : ∀ t, Fits plan t ((clamped plan limiters).get t) := fun t => fits_clamped limiters
  have hclamp : ∀ t, Settled plan t (limiters.get t) ((clampAll plan limiters).get t) :=
    settled_clampAll limiters
  let P (t : Tier) (l : Limiter) : Prop := Settled plan t (limiters.get t) l
  simp only [redistribute]
  split
  · exact limiters_foldl (P := P) (fun x t h => settled_take hcap h t) _ hclamp t
  · exact limiters_foldl (P := P) (fun x t h => settled_give hcap h t) _ hclamp t

end Allocator

/-! ## The caps in force

Bounds in megabytes are all that can be had in general.  If a plan is consistent, more can be said, namely
bounds in bytes.  These are kept from one run to the next and hold from the moment on at which the caps are
set up, and this is the form in which a run of packets needs them. -/

namespace TierCaps

/-- **A run of the allocator corrects every cap**, whatever the caps and the plan were before. -/
theorem megabytes_adjust (plan : RatePlan) (caps : TierCaps) (ring : RateRing) (now : UInt64)
    (h : caps.isSettled now = false) (t : Tier) :
    plan.floorMegabytes t ≤ ((caps.adjust plan ring now).limiters.get t).rate.toNat / 1000000 ∧
      ((caps.adjust plan ring now).limiters.get t).rate.toNat / 1000000 ≤ plan.topMegabytes t := by
  rw [adjust, h]
  exact (Allocator.settled_redistribute plan _ caps.limiters t).fits

end TierCaps

namespace RatePlan

/-- No floor is above the upper bound of its tier. -/
def Consistent (plan : RatePlan) : Prop :=
  ∀ t, (plan.tiers.get t).least.toNat ≤ (plan.upperBound t).toNat

/-- The bounds of a cap in bytes.  The floor is counted in whole megabytes. -/
def Admits (plan : RatePlan) (t : Tier) (rate : UInt64) : Prop :=
  plan.floorMegabytes t * 1000000 ≤ rate.toNat ∧ rate.toNat ≤ (plan.upperBound t).toNat

variable {plan : RatePlan} {t : Tier}

theorem Consistent.admits_upperBound (h : plan.Consistent) (t : Tier) :
    plan.Admits t (plan.upperBound t) := by
  have := h t
  refine ⟨?_, Nat.le_refl _⟩
  rw [floorMegabytes]
  omega

/-- A number of megabytes that fits a consistent plan is within its bounds in bytes, too. -/
theorem Consistent.admits_of_fits (h : plan.Consistent) {m : UInt64} (hm : Allocator.Fits plan t m) :
    plan.Admits t (Word.mulSat m megabyte) := by
  have hleast := h t
  have hbottom := hm.1
  have htop := hm.2
  rw [Admits, Allocator.Fits.toNat_bytes hm]
  rw [topMegabytes, floorMegabytes] at htop
  rw [floorMegabytes] at hbottom ⊢
  omega

theorem Consistent.admits_of_settled (h : plan.Consistent) {before after : Limiter}
    (hs : Allocator.Settled plan t before after) (hb : plan.Admits t before.rate) :
    plan.Admits t after.rate := by
  cases hs with
  | kept _ => exact hb
  | set hm => exact h.admits_of_fits hm

end RatePlan

namespace TierCaps

variable {plan : RatePlan} {caps : TierCaps}

/-- Every cap is within its bounds. -/
def Within (plan : RatePlan) (caps : TierCaps) : Prop :=
  ∀ t, plan.Admits t (caps.limiters.get t).rate

theorem isSetUp_setUp (caps : TierCaps) (plan : RatePlan) {now : UInt64} (h : now ≠ never) :
    (caps.setUp plan now).isSetUp = true := by
  rw [setUp]
  split
  · assumption
  · rw [isSetUp]
    exact bne_iff_ne.mpr h

theorem within_setUp (hplan : plan.Consistent) (h : caps.isSetUp = true → caps.Within plan)
    (now : UInt64) : (caps.setUp plan now).Within plan := by
  rw [setUp]
  split
  · rename_i hset
    exact h hset
  · intro t
    rw [PerTier.get_ofFn]
    exact hplan.admits_upperBound t

theorem within_adjust (hplan : plan.Consistent) (h : caps.Within plan) (ring : RateRing)
    (now : UInt64) : (caps.adjust plan ring now).Within plan := by
  rw [adjust]
  split
  · exact h
  · intro t
    exact hplan.admits_of_settled (Allocator.settled_redistribute plan _ caps.limiters t) (h t)

end TierCaps

end Shaping
