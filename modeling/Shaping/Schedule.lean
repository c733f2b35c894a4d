import Shaping.Scenario

/-!
# Whose turn it is

The packets of several flows in the order in which they are sent: by time, and at the same time by the
place of their flow in the scenario.

A `Schedule` holds the next `Turn` of every flow that has not stopped, in that order.
`Schedule.foldUntil` takes the first turn, hands it to whoever wants to know, puts the flow's next turn
in its place, and goes on until all turns left are at the end of time or later.  It comes to an end
because every turn is later than the one before of the same flow, so the time that is left, added up
over all flows (`Schedule.remaining`), gets less.

Times are in nanoseconds from `Schedule.origin` on, which is not zero because zero is no time for a
packet to leave.
-/

set_option autoImplicit false

namespace Shaping

/-- A packet that a flow is going to send. -/
structure Turn where
  time : UInt64
  /-- The place of the flow in the scenario. -/
  index : Nat
  flow : Flow

namespace Turn

/-- Does one turn come before another? -/
def before (a b : Turn) : Bool := a.time < b.time || (a.time == b.time && a.index < b.index)

/-- The next turn of the same flow. -/
def following (t : Turn) : Turn := { t with time := Word.addSat t.time t.flow.gap }

end Turn

/-- Turns in the order in which they come. -/
abbrev Schedule := List Turn

namespace Schedule

/-- When experiments begin. -/
def origin : UInt64 := second

/-- The time that is so many milliseconds after the beginning. -/
def timeOf (milliseconds : UInt64) : Except Trap UInt64 := do
  Word.add origin (← Word.mul milliseconds millisecond)

/-- Put a turn in its place. -/
def insert (t : Turn) : Schedule → Schedule
  | [] => [t]
  | u :: rest => if t.before u then t :: u :: rest else u :: insert t rest

/-- The first turns of flows, given how many flows came before them in the scenario. -/
def ofFlows (index : Nat) : List Flow → Except Trap Schedule
  | [] => .ok []
  | f :: fs => do
    let time ← timeOf f.start
    return insert ⟨time, index, f⟩ (← ofFlows (index + 1) fs)

/-- Has the flow stopped when a turn of it comes? -/
def isOver (t : Turn) : Except Trap Bool :=
  match t.flow.stop with
  | none => .ok false
  | some stop => (timeOf stop).map fun time => time ≤ t.time

/-- The time left to all flows before the end. -/
def remaining (stop : UInt64) (s : Schedule) : Nat :=
  s.foldr (fun t left => (stop.toNat - t.time.toNat) + left) 0

theorem remaining_cons (stop : UInt64) (t : Turn) (s : Schedule) :
    remaining stop (t :: s) = (stop.toNat - t.time.toNat) + remaining stop s := rfl

theorem remaining_insert (stop : UInt64) (t : Turn) (s : Schedule) :
    remaining stop (insert t s) = (stop.toNat - t.time.toNat) + remaining stop s := by
  induction s with
  | nil => rfl
  | cons u rest ih =>
    rw [insert]
    split
    · rfl
    · rw [remaining_cons, ih, remaining_cons]; omega

theorem one_le_gap (f : Flow) : 1 ≤ f.gap.toNat := by
  rw [Flow.gap]
  generalize Word.clamp _ = w
  rw [show max w 1 = if w ≤ 1 then 1 else w from rfl]
  split
  · exact Nat.le_refl 1
  · rename_i h
    rw [UInt64.le_iff_toNat_le, UInt64.toNat_one] at h
    omega

/-- The turn after one that is before the end leaves less time to its flow. -/
theorem remaining_following {stop : UInt64} {t : Turn} (h : ¬ stop ≤ t.time) :
    stop.toNat - t.following.time.toNat < stop.toNat - t.time.toNat := by
  have hg := one_le_gap t.flow
  have size : UInt64.size = 18446744073709551616 := rfl
  have hs := stop.toNat_lt
  rw [UInt64.le_iff_toNat_le] at h
  rw [Turn.following, Word.toNat_addSat]
  omega

/-- Go through all turns before `stop` in their order.  The turns of flows that are over when they come
are left out, and `f` is told about the others. -/
def foldUntil {σ : Type} (stop : UInt64) (f : σ → Turn → Except Trap σ) (s : Schedule) (init : σ) :
    Except Trap σ :=
  match s with
  | [] => .ok init
  | t :: rest =>
    if _h : stop ≤ t.time then .ok init
    else
      match isOver t with
      | .error e => .error e
      | .ok true => foldUntil stop f rest init
      | .ok false =>
        match f init t with
        | .error e => .error e
        | .ok next => foldUntil stop f (insert t.following rest) next
termination_by remaining stop s
decreasing_by
  · have hs := stop.toNat_lt
    rw [remaining_cons]
    rw [UInt64.le_iff_toNat_le] at _h
    omega
  · rw [remaining_cons, remaining_insert]
    have := remaining_following _h
    omega

end Schedule

end Shaping
