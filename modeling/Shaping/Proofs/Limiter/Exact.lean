import Shaping.Limiter

/-!
# Limiters in exact arithmetic

The sums, differences and quotients in the definitions of a limiter are those of `UInt64`, which come out
somehow whatever they are given.  Where the wrong thing comes out, exact arithmetic would have trapped.  So
each function here is followed by its *exact* form, which has an exact operation in every place where there
is not a saturating one; and that both agree says that no exact operation ever traps
(`Discipline.offerExact_eq`).

Nothing is asked of the limiter for this.  A bucket takes out no more than it has; a pacer divides by a rate
only where there is one, and it subtracts the time that it is from a turn only where the turn is still to come.
-/

set_option autoImplicit false

namespace Shaping

/-! ## The token bucket -/

namespace TokenBucket

/-- `refill` in exact arithmetic. -/
def refillExact (rate elapsed : UInt64) : Except Trap UInt64 := do
  let micros ← Word.div elapsed 1000
  if micros < 1000000 then Word.div (Word.mulSat micros rate) 1000000
  else return Word.mulSat (← Word.div micros 1000000) rate

/-- `balance` in exact arithmetic. -/
def balanceExact (l : Limiter) (now : UInt64) : Except Trap UInt64 := do
  if l.refilledAt = never then return l.rate
  else
    let earned ← refillExact l.rate (Word.subSat now l.refilledAt)
    return min (Word.addSat l.tokens earned) l.rate

/-- `offer` in exact arithmetic. -/
def offerExact (l : Limiter) (size now : UInt64) : Except Trap (Verdict × Limiter) := do
  if l.rate < minimumRate then return (.pass, l)
  else
    let tokens ← balanceExact l now
    let refilledAt := refillTime l now
    if size ≤ tokens then
      let tokens ← Word.sub tokens size
      return (.pass, { l with refilledAt, tokens })
    else return (.drop, { l with refilledAt, tokens })

theorem refillExact_eq (rate elapsed : UInt64) :
    refillExact rate elapsed = pure (refill rate elapsed) := by
  rw [refillExact, refill, Word.div_of_ne_zero _ (by decide), pure_bind]
  split
  · exact Word.div_of_ne_zero _ (by decide)
  · rw [Word.div_of_ne_zero _ (by decide), pure_bind]

theorem balanceExact_eq (l : Limiter) (now : UInt64) : balanceExact l now = pure (balance l now) := by
  rw [balanceExact, balance]
  split
  · rfl
  · rw [refillExact_eq, pure_bind]

theorem offerExact_eq (l : Limiter) (size now : UInt64) :
    offerExact l size now = pure (offer l size now) := by
  rw [offerExact, offer]
  split
  · rfl
  · rw [balanceExact_eq, pure_bind]
    dsimp only
    split
    · rename_i hsize
      rw [Word.sub_of_le hsize, pure_bind]
    · rfl

end TokenBucket

/-! ## The pacer

The one subtraction of a pacer is guarded by a comparison of other words, so it has to be seen that the turn
is not before now.  It is not, as what is requested is not before now and the turn comes after it. -/

namespace Pacer

/-- `transmissionTime` in exact arithmetic. -/
def transmissionTimeExact (size rate : UInt64) : Except Trap UInt64 := do
  return Word.clamp (← Word.divWide (← Word.mulWide size second) rate)

/-- `offer` in exact arithmetic. -/
def offerExact (l : Limiter) (size departure now : UInt64) : Except Trap Admission := do
  if l.rate = 0 then return ⟨.pass, departure, l⟩
  else
    let requested := max departure now
    if l.lastDeparture = never then
      return ⟨.pass, departure, { l with lastDeparture := requested }⟩
    else
      let turn := Word.addSat l.lastDeparture (← transmissionTimeExact size l.rate)
      if turn ≤ requested then return ⟨.pass, departure, { l with lastDeparture := requested }⟩
      else
        let wait ← Word.sub turn now
        if horizon ≤ wait then return ⟨.drop, departure, l⟩
        else return ⟨.pass, turn, { l with lastDeparture := turn }⟩

theorem transmissionTimeExact_eq (size : UInt64) {rate : UInt64} (h : rate ≠ 0) :
    transmissionTimeExact size rate = pure (transmissionTime size rate) := by
  rw [transmissionTimeExact, Word.mulWide_eq, pure_bind, Word.divWide_of_ne_zero _ h, pure_bind]
  rfl

/-- Without a rate there would be nothing to divide by. -/
example : transmissionTimeExact 1 0 = .error .division := rfl

theorem offerExact_eq (l : Limiter) (size departure now : UInt64) :
    offerExact l size departure now = pure (offer l size departure now) := by
  rw [offerExact, offer]
  split
  · rfl
  · rename_i hrate
    dsimp only
    split
    · rfl
    · rw [transmissionTimeExact_eq size hrate, pure_bind]
      split
      · rfl
      · rename_i hturn
        -- a turn that is later than requested is later than now
        have hnow : now ≤ Word.addSat l.lastDeparture (transmissionTime size l.rate) := by
          rw [UInt64.le_iff_toNat_le, Word.toNat_max] at hturn
          rw [UInt64.le_iff_toNat_le]
          omega
        rw [Word.sub_of_le hnow, pure_bind]
        split <;> rfl

end Pacer

/-! ## Either of them -/

namespace Discipline

/-- `offer` in exact arithmetic. -/
def offerExact (discipline : Discipline) (l : Limiter) (size departure now : UInt64) :
    Except Trap Admission :=
  match discipline with
  | .tokenBucket => do
    let (verdict, limiter) ← TokenBucket.offerExact l size now
    return ⟨verdict, departure, limiter⟩
  | .pacer => Pacer.offerExact l size departure now

/-- **A limiter never traps**, whatever its bookkeeping says. -/
theorem offerExact_eq (discipline : Discipline) (l : Limiter) (size departure now : UInt64) :
    discipline.offerExact l size departure now = pure (discipline.offer l size departure now) := by
  cases discipline with
  | tokenBucket =>
    rw [offerExact, offer, TokenBucket.offerExact_eq, pure_bind]
  | pacer => exact Pacer.offerExact_eq l size departure now

end Discipline

end Shaping
