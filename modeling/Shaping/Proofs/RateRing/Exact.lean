import Shaping.RateRing

/-!
# The rate ring in exact arithmetic

The exact forms of recording and of averaging, which agree with them on every ring (`RateRing.recordExact_eq`,
`RateRing.averageExact_eq`), however its epochs may have come there.  An epoch that is closed has a generation
other than zero, so that there is one before it, and it was open for longer than no time at all.

A ring that is not known to come from a history may have anything in it, and still nothing has to be assumed
of it.  The two things that could go wrong are excluded by the branch itself: a generation that is zero
takes the first one, and an epoch of no length the second.
-/

set_option autoImplicit false

namespace Shaping

namespace RateRing

/-- `epochRate` in exact arithmetic. -/
def epochRateExact (bytes elapsed : UInt64) : Except Trap UInt64 := do
  if staleLength < elapsed then return 0
  else return Word.clamp (← Word.divWide (← Word.mulWide bytes second) elapsed)

/-- `position` in exact arithmetic. -/
def positionExact (generation : UInt64) : Except Trap UInt64 := do
  Word.rem (← Word.sub generation 1) 10

/-- Put an epoch into a slot that has to be there. -/
def publishExact (slots : Vector Epoch 10) (place : Nat) (e : Epoch) : Except Trap (Vector Epoch 10) :=
  if h : place < 10 then .ok (slots.set place e h) else .error (.index 10 place)

/-- `record` in exact arithmetic. -/
def recordExact (ring : RateRing) (bytes now : UInt64) : Except Trap RateRing := do
  let ⟨⟨generation, start, amount⟩, slots⟩ := ring
  if generation = 0 then return ⟨⟨1, now, bytes⟩, slots⟩
  else
    let elapsed := Word.subSat now start
    if elapsed < epochLength then return ⟨⟨generation, start, Word.addSat amount bytes⟩, slots⟩
    else
      let rate ← epochRateExact amount elapsed
      let place ← positionExact generation
      let slots ← publishExact slots place.toNat ⟨generation, start, rate⟩
      return ⟨⟨nextGeneration generation, now, bytes⟩, slots⟩

/-- `average` in exact arithmetic. -/
def averageExact (ring : RateRing) (now : UInt64) : Except Trap UInt64 :=
  Word.div (ring.slots.foldl (fun total slot => Word.addSat total (contribution now slot)) 0) 10

theorem epochRateExact_eq (bytes : UInt64) {elapsed : UInt64} (h : elapsed ≠ 0) :
    epochRateExact bytes elapsed = pure (epochRate bytes elapsed) := by
  rw [epochRateExact, epochRate]
  split
  · rfl
  · rw [Word.mulWide_eq, pure_bind, Word.divWide_of_ne_zero _ h, pure_bind]

theorem positionExact_eq {generation : UInt64} (h : generation ≠ 0) :
    positionExact generation = pure ((generation - 1) % 10) := by
  have hone : 1 ≤ generation := by
    rw [UInt64.le_iff_toNat_le]
    exact Nat.one_le_iff_ne_zero.mpr fun hzero => h (UInt64.toNat_inj.mp hzero)
  rw [positionExact, Word.sub_of_le hone, pure_bind, Word.rem_of_ne_zero _ (by decide)]

/-- A ring that was never written has no epoch to be published. -/
example : positionExact 0 = .error .subtraction := rfl

theorem publishExact_eq (slots : Vector Epoch 10) (place : Fin 10) (e : Epoch) :
    publishExact slots place e = pure (slots.set place e place.isLt) := dif_pos place.isLt

/-- **Recording never traps.** -/
theorem recordExact_eq (ring : RateRing) (bytes now : UInt64) :
    ring.recordExact bytes now = pure (ring.record bytes now) := by
  obtain ⟨⟨generation, start, amount⟩, slots⟩ := ring
  rw [recordExact, record]
  dsimp only
  split
  · rfl
  · rename_i hgeneration
    split
    · rfl
    · rename_i hlong
      have helapsed : Word.subSat now start ≠ 0 := fun hzero => hlong (by rw [hzero]; decide)
      have hplace : ((generation - 1) % 10).toNat = (position generation).val :=
        UInt64.toNat_mod _ _
      rw [epochRateExact_eq amount helapsed, pure_bind, positionExact_eq hgeneration, pure_bind, hplace,
        publishExact_eq, pure_bind]

/-- **Averaging never traps.** -/
theorem averageExact_eq (ring : RateRing) (now : UInt64) :
    ring.averageExact now = pure (ring.average now) :=
  Word.div_of_ne_zero _ (by decide)

end RateRing

end Shaping
