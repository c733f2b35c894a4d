import Shaping.Proofs.Allocator.Division
import Mathlib.Logic.Function.Iterate

/-!
# Runs that follow one another

To hand out an amount and then another one is to hand out both at once, provided that the second time each tier
has only the room that the first one has left (`share_add`).  So lowering by two amounts in turn is lowering by
their sum, and the same holds of raising; and of limiters as well, because a limiter that only ever goes one way
is not brought back to where it stood (`Limiter.standAt_standAt`).

While the average stays the same and the caps are in their bounds, one run after the other takes, or gives, the
same amount.  What `n` runs come to is therefore one cascade with `n` times as much (`Runs.brought`).

More load never means more for anyone: of a larger amount every tier gives up at least as much, of a smaller one
it gets at most as much, and at the ceiling, where runs change over from taking to giving, they do nothing
(`goal_anti`).

For limiters this takes more than it does for numbers.  A limiter that is not written keeps its odd bytes,
so whether two cascades come to the same as one depends on whether a limiter was written in between and then
brought back to its first number.  Therefore each limiter is compared with the one before all runs,
`Brought` says what became of it, and `Brought.trans` has the condition under which two of these statements
follow one another: whoever ends where he stood has never been elsewhere.  Taking only lowers and giving
only raises, so the condition is met as long as all runs go the same way.
-/

set_option autoImplicit false

namespace Shaping

theorem PerTier.ext_get {α : Type} {p q : PerTier α} (h : ∀ t, p.get t = q.get t) : p = q := by
  obtain ⟨a, b, c⟩ := p
  obtain ⟨a', b', c'⟩ := q
  have h0 : a = a' := h .l0
  have h1 : b = b' := h .l1
  have h2 : c = c' := h .l2
  rw [h0, h1, h2]

namespace Allocator

/-! ## Two amounts

`share_add` is by induction on the list of tiers, and its step is one equation between natural numbers,
about what is left of two amounts when the first tier has had its part of either.  Everything else about
shares here is needed for amounts that do not fit in a word, which the cascades cannot be given: what is
more than all the room is as good as all the room. -/

section Share

variable {room room' : Tier → Nat}

/-- Only the room of the tiers in the order matters. -/
theorem share_congr {order : List Tier} (h : ∀ t ∈ order, room t = room' t) (amount : Nat) (t : Tier) :
    share room amount order t = share room' amount order t := by
  induction order generalizing amount with
  | nil => rfl
  | cons t₀ order ih =>
    rw [List.forall_mem_cons] at h
    by_cases ht : t = t₀
    · rw [ht, share_cons_self, share_cons_self, h.1]
    · rw [share_cons_of_ne _ _ ht, share_cons_of_ne _ _ ht, h.1, ih h.2]

/-- **Two amounts in turn are both at once**, if the second finds only the room that the first one left. -/
theorem share_add {order : List Tier} (h : order.Nodup) (a b : Nat) (t : Tier) :
    share room (a + b) order t
      = share room a order t + share (fun t => room t - share room a order t) b order t := by
  induction order generalizing a b with
  | nil => rfl
  | cons t₀ order ih =>
    obtain ⟨ht₀, horder⟩ := List.nodup_cons.mp h
    by_cases ht : t = t₀
    · rw [ht, share_cons_self, share_cons_self, share_cons_self, share_cons_self]
      omega
    · have hroom : ∀ t' ∈ order, room t' - share room a (t₀ :: order) t'
          = room t' - share room (a - room t₀) order t' := fun t' ht' => by
        rw [share_cons_of_ne _ _ fun heq : t' = t₀ => ht₀ (heq ▸ ht')]
      -- what is left of both amounts is what is left of each
      have hleft : a + b - room t₀ = (a - room t₀) + (b - (room t₀ - min a (room t₀))) := by omega
      rw [share_cons_of_ne _ _ ht, share_cons_of_ne _ _ ht, share_cons_of_ne _ _ ht, share_cons_self, hleft,
        ih horder, share_congr hroom]

/-- Of a larger amount every tier gets at least as much. -/
theorem share_mono {a b : Nat} (h : a ≤ b) (order : List Tier) (t : Tier) :
    share room a order t ≤ share room b order t := by
  induction order generalizing a b with
  | nil => exact Nat.le_refl _
  | cons t₀ order ih =>
    by_cases ht : t = t₀
    · rw [ht, share_cons_self, share_cons_self]
      omega
    · rw [share_cons_of_ne _ _ ht, share_cons_of_ne _ _ ht]
      exact ih (Nat.sub_le_sub_right h _)

/-- Of an amount that is large enough every tier gets all that it has room for. -/
theorem share_of_sum_le {order : List Tier} {amount : Nat} (h : (order.map room).sum ≤ amount) {t : Tier}
    (ht : t ∈ order) : share room amount order t = room t := by
  induction order generalizing amount with
  | nil => cases ht
  | cons t₀ order ih =>
    rw [List.map_cons, List.sum_cons] at h
    by_cases heq : t = t₀
    · rw [heq, share_cons_self]
      exact Nat.min_eq_right (by omega)
    · rw [share_cons_of_ne _ _ heq]
      exact ih (by omega) ((List.mem_cons.mp ht).resolve_left heq)

/-- An amount may be cut off where there is no more room. -/
theorem share_min {order : List Tier} (h : order.Perm Tier.all) {most : Nat} (hmost : Tier.total room ≤ most)
    (amount : Nat) (t : Tier) : share room (min amount most) order t = share room amount order t := by
  rw [Tier.total_eq_sum h] at hmost
  rcases Nat.le_total amount most with hle | hle
  · rw [Nat.min_eq_left hle]
  · have ht := Tier.mem_of_perm h t
    rw [Nat.min_eq_right hle, share_of_sum_le hmost ht, share_of_sum_le (Nat.le_trans hmost hle) ht]

end Share

section Levels

variable {floor upper stood : Tier → Nat}

theorem lower_lower (a b : Nat) : lower floor b (lower floor a stood) = lower floor (a + b) stood := by
  funext t
  have hroom : (fun t => lower floor a stood t - floor t)
      = fun t => stood t - floor t - share (fun t => stood t - floor t) a Tier.suppressOrder t :=
    funext fun t => by rw [lower, Nat.sub_right_comm]
  rw [lower, hroom, lower, lower, share_add (by decide), Nat.sub_sub]

theorem raise_raise (a b : Nat) : raise upper b (raise upper a stood) = raise upper (a + b) stood := by
  funext t
  have hroom : (fun t => upper t - raise upper a stood t)
      = fun t => upper t - stood t - share (fun t => upper t - stood t) a Tier.recoverOrder t :=
    funext fun t => by rw [raise, Nat.sub_add_eq]
  rw [raise, hroom, raise, raise, share_add (by decide), Nat.add_assoc]

theorem lower_zero : lower floor 0 stood = stood := by
  funext t
  have hshare := share_le_amount (fun t => stood t - floor t) 0 Tier.suppressOrder t
  rw [lower]
  omega

theorem raise_zero : raise upper 0 stood = stood := by
  funext t
  have hshare := share_le_amount (fun t => upper t - stood t) 0 Tier.recoverOrder t
  rw [raise]
  omega

theorem lower_anti {a b : Nat} (h : a ≤ b) (t : Tier) : lower floor b stood t ≤ lower floor a stood t :=
  Nat.sub_le_sub_left (share_mono h _ t) _

theorem raise_mono {a b : Nat} (h : a ≤ b) (t : Tier) : raise upper a stood t ≤ raise upper b stood t :=
  Nat.add_le_add_left (share_mono h _ t) _

/-- The room of all tiers is counted in a word. -/
theorem total_le {room : Tier → Nat} (h : ∀ t, room t ≤ Word.top.toNat / 1000000) :
    Tier.total room ≤ UInt64.size - 1 := by
  have h0 := h .l0
  have h1 := h .l1
  have h2 := h .l2
  rw [Word.toNat_top] at h0 h1 h2
  rw [Tier.total]
  omega

/-- More than there is cannot be taken, so it does no harm that an amount is held to a word. -/
theorem lower_clamp (h : ∀ t, stood t ≤ Word.top.toNat / 1000000) (amount : Nat) :
    lower floor (Word.clamp amount).toNat stood = lower floor amount stood := by
  have hmost : Tier.total (fun t => stood t - floor t) ≤ UInt64.size - 1 :=
    total_le fun t => Nat.le_trans (Nat.sub_le _ _) (h t)
  funext t
  rw [lower, lower, Word.toNat_clamp, share_min perm_suppressOrder hmost]

/-- More than there is room for cannot be given, so it does no harm that an amount is held to a word. -/
theorem raise_clamp (h : ∀ t, upper t ≤ Word.top.toNat / 1000000) (amount : Nat) :
    raise upper (Word.clamp amount).toNat stood = raise upper amount stood := by
  have hmost : Tier.total (fun t => upper t - stood t) ≤ UInt64.size - 1 :=
    total_le fun t => Nat.le_trans (Nat.sub_le _ _) (h t)
  funext t
  rw [raise, raise, Word.toNat_clamp, share_min perm_recoverOrder hmost]

end Levels

end Allocator

/-! ## Two cascades

A cascade starts from the caps as they are, so they are counted anew for the second one.  That they are
counted right is `Counted`, and so `suppress_get` and `recover_get` apply each time. -/

namespace Limiter

/-- A limiter that is brought somewhere on the way is brought to its end, unless the end is where it stood. -/
theorem standAt_standAt (l : Limiter) {m m' : Nat} (hm : m ≤ Word.top.toNat / 1000000)
    (hback : m' = l.megabytes → m = l.megabytes) : (l.standAt m).standAt m' = l.standAt m' := by
  have hstands := l.megabytes_standAt hm
  by_cases hsame : l.megabytes = m
  · rw [← hsame, standAt_megabytes]
  · have hmoved : l.standAt m = l.withRate (Word.clamp (m * 1000000)) := if_neg hsame
    have hend : l.megabytes ≠ m' := fun heq => hsame (hback heq.symm).symm
    by_cases hstay : m = m'
    · rw [← hstay, standAt, if_pos hstands]
    · rw [standAt, hstands, if_neg hstay, hmoved, standAt, if_neg hend, Allocator.withRate_withRate]

end Limiter

namespace Allocator

/-- Every limiter was brought to its number of megabytes. -/
def Brought (limiters : PerTier Limiter) (level : Tier → Nat) (limiters' : PerTier Limiter) : Prop :=
  ∀ t, limiters'.get t = (limiters.get t).standAt (level t)

namespace Brought

variable {limiters once twice : PerTier Limiter} {level level' : Tier → Nat}

theorem unique (h : Brought limiters level once) (h' : Brought limiters level twice) : once = twice :=
  PerTier.ext_get fun t => (h t).trans (h' t).symm

theorem refl (limiters : PerTier Limiter) : Brought limiters (fun t => (limiters.get t).megabytes) limiters :=
  fun t => ((limiters.get t).standAt_megabytes).symm

theorem megabytes_eq (h : Brought limiters level once) (hfits : ∀ t, level t ≤ Word.top.toNat / 1000000) :
    (fun t => (once.get t).megabytes) = level :=
  funext fun t => by rw [h t, Limiter.megabytes_standAt _ (hfits t)]

/-- Limiters that are brought somewhere on the way are brought to their ends. -/
theorem trans (h : Brought limiters level once) (h' : Brought once level' twice)
    (hfits : ∀ t, level t ≤ Word.top.toNat / 1000000)
    (hback : ∀ t, level' t = (limiters.get t).megabytes → level t = (limiters.get t).megabytes) :
    Brought limiters level' twice := fun t => by
  rw [h' t, h t, Limiter.standAt_standAt _ (hfits t) (hback t)]

end Brought

/-- The caps in whole megabytes. -/
def wholeMegabytes (limiters : PerTier Limiter) : PerTier UInt64 := limiters.map (·.rate / megabyte)

section Cascades

variable (limiters : PerTier Limiter)

theorem counted_wholeMegabytes : Counted (wholeMegabytes limiters) limiters := by
  intro t
  have hget : (wholeMegabytes limiters).get t = (limiters.get t).rate / megabyte := by cases t <;> rfl
  rw [hget, UInt64.toNat_div, toNat_megabyte]
  rfl

theorem numbers_wholeMegabytes :
    numbers (wholeMegabytes limiters) = fun t => (limiters.get t).megabytes :=
  funext fun t => (counted_wholeMegabytes limiters t).symm

theorem brought_suppress (amount : UInt64) (floor : PerTier UInt64) :
    Brought limiters (lower (numbers floor) amount.toNat fun t => (limiters.get t).megabytes)
      (suppress amount floor (wholeMegabytes limiters) limiters) := fun t => by
  rw [suppress_get amount floor (counted_wholeMegabytes limiters) t, numbers_wholeMegabytes]

theorem brought_recover (amount : UInt64) (upper : PerTier UInt64) :
    Brought limiters (raise (numbers upper) amount.toNat fun t => (limiters.get t).megabytes)
      (recover amount upper (wholeMegabytes limiters) limiters) := fun t => by
  rw [recover_get amount upper (counted_wholeMegabytes limiters) t, numbers_wholeMegabytes]

/-- **Two suppressions in turn are one.** -/
theorem suppress_suppress (floor : PerTier UInt64) {a b : UInt64} (h : a.toNat + b.toNat < UInt64.size) :
    let once := suppress a floor (wholeMegabytes limiters) limiters
    suppress b floor (wholeMegabytes once) once = suppress (a + b) floor (wholeMegabytes limiters) limiters := by
  intro once
  let stood (t : Tier) := (limiters.get t).megabytes
  let level (amount : Nat) := lower (numbers floor) amount stood
  have honce : Brought limiters (level a.toNat) once := brought_suppress limiters a floor
  have hfits : ∀ t, level a.toNat t ≤ Word.top.toNat / 1000000 := fun t =>
    Nat.le_trans (lower_le _ t) (limiters.get t).megabytes_le
  have htwice := brought_suppress once b floor
  rw [honce.megabytes_eq hfits, lower_lower] at htwice
  have hsum := brought_suppress limiters (a + b) floor
  rw [UInt64.toNat_add, Nat.mod_eq_of_lt h] at hsum
  refine (honce.trans htwice hfits fun t hback => ?_).unique hsum
  have hfirst : level a.toNat t ≤ stood t := lower_le a.toNat t
  have hsecond : level (a.toNat + b.toNat) t ≤ level a.toNat t := lower_anti (Nat.le_add_right _ _) t
  exact Nat.le_antisymm hfirst (hback ▸ hsecond)

/-- **Two recoveries in turn are one.** -/
theorem recover_recover {upper : PerTier UInt64} (hupper : ∀ t, numbers upper t ≤ Word.top.toNat / 1000000)
    {a b : UInt64} (h : a.toNat + b.toNat < UInt64.size) :
    let once := recover a upper (wholeMegabytes limiters) limiters
    recover b upper (wholeMegabytes once) once = recover (a + b) upper (wholeMegabytes limiters) limiters := by
  intro once
  let stood (t : Tier) := (limiters.get t).megabytes
  let level (amount : Nat) := raise (numbers upper) amount stood
  have honce : Brought limiters (level a.toNat) once := brought_recover limiters a upper
  have hfits : ∀ t, level a.toNat t ≤ Word.top.toNat / 1000000 := fun t =>
    Nat.le_trans (raise_le _ t) (Nat.max_le.mpr ⟨(limiters.get t).megabytes_le, hupper t⟩)
  have htwice := brought_recover once b upper
  rw [honce.megabytes_eq hfits, raise_raise] at htwice
  have hsum := brought_recover limiters (a + b) upper
  rw [UInt64.toNat_add, Nat.mod_eq_of_lt h] at hsum
  refine (honce.trans htwice hfits fun t hback => ?_).unique hsum
  have hfirst : stood t ≤ level a.toNat t := le_raise a.toNat t
  have hsecond : level a.toNat t ≤ level (a.toNat + b.toNat) t := raise_mono (Nat.le_add_right _ _) t
  exact Nat.le_antisymm (hback ▸ hsecond) hfirst

end Cascades

/-! ## Runs

How often runs take or give is a multiplication, and for this to be right they must all see the same average
and go the same way.  The average is the same by assumption; the way is decided by the average and the
ceiling, which no run changes.  That a run changes over from one to the other plays a part only where two
averages are compared. -/

section Goals

variable {plan : RatePlan} {average : Nat} {stood : Tier → Nat}

/-- Runs above the ceiling take the excess as often as there are runs. -/
theorem iterate_goal_of_excess (h : plan.ceiling.toNat / 1000000 < average) (n : Nat) :
    (goal plan average)^[n] stood
      = lower plan.floorMegabytes (n * (average - plan.ceiling.toNat / 1000000)) stood := by
  induction n with
  | zero => rw [Nat.zero_mul, lower_zero]; rfl
  | succ n ih => rw [Function.iterate_succ_apply', ih, goal_of_excess h, lower_lower, Nat.succ_mul]

/-- Runs up to the ceiling give the headroom as often as there are runs. -/
theorem iterate_goal_of_headroom (h : average ≤ plan.ceiling.toNat / 1000000) (n : Nat) :
    (goal plan average)^[n] stood
      = raise plan.upperMegabytes (n * (plan.ceiling.toNat / 1000000 - average)) stood := by
  induction n with
  | zero => rw [Nat.zero_mul, raise_zero]; rfl
  | succ n ih => rw [Function.iterate_succ_apply', ih, goal_of_headroom h, raise_raise, Nat.succ_mul]

/-- Runs all go the same way, so a tier that ends where it stood has never been elsewhere. -/
theorem iterate_goal_eq {n : Nat} {t : Tier} (h : (goal plan average)^[n + 1] stood t = stood t) :
    (goal plan average)^[n] stood t = stood t := by
  rcases Nat.lt_or_ge (plan.ceiling.toNat / 1000000) average with hexcess | hheadroom
  · rw [iterate_goal_of_excess hexcess] at h ⊢
    refine Nat.le_antisymm (lower_le _ t) ?_
    calc stood t
        = lower plan.floorMegabytes ((n + 1) * (average - plan.ceiling.toNat / 1000000)) stood t := h.symm
      _ ≤ lower plan.floorMegabytes (n * (average - plan.ceiling.toNat / 1000000)) stood t :=
        lower_anti (Nat.mul_le_mul_right _ (Nat.le_succ n)) t
  · rw [iterate_goal_of_headroom hheadroom] at h ⊢
    refine Nat.le_antisymm ?_ (le_raise _ t)
    calc raise plan.upperMegabytes (n * (plan.ceiling.toNat / 1000000 - average)) stood t
        ≤ raise plan.upperMegabytes ((n + 1) * (plan.ceiling.toNat / 1000000 - average)) stood t :=
        raise_mono (Nat.mul_le_mul_right _ (Nat.le_succ n)) t
      _ = stood t := h

/-- No tier is ever brought above its upper bound, unless it stood there. -/
theorem iterate_goal_le (n : Nat) (t : Tier) :
    (goal plan average)^[n] stood t ≤ max (stood t) (plan.upperMegabytes t) := by
  induction n with
  | zero => exact Nat.le_max_left _ _
  | succ n ih =>
    rw [Function.iterate_succ_apply']
    exact Nat.le_trans (goal_le plan average _ t) (Nat.max_le.mpr ⟨ih, Nat.le_max_right _ _⟩)

/-- **More load never means more for anyone.** -/
theorem goal_anti {average' : Nat} (h : average ≤ average') (t : Tier) :
    goal plan average' stood t ≤ goal plan average stood t := by
  rcases Nat.lt_or_ge (plan.ceiling.toNat / 1000000) average with hexcess | hheadroom
  · rw [goal_of_excess hexcess, goal_of_excess (Nat.lt_of_lt_of_le hexcess h)]
    exact lower_anti (Nat.sub_le_sub_right h _) t
  · rw [goal_of_headroom hheadroom]
    rcases Nat.lt_or_ge (plan.ceiling.toNat / 1000000) average' with hexcess' | hheadroom'
    · rw [goal_of_excess hexcess']
      exact Nat.le_trans (lower_le _ t) (le_raise _ t)
    · rw [goal_of_headroom hheadroom']
      exact raise_mono (Nat.sub_le_sub_left h _) t

end Goals

end Allocator

namespace TierCaps

/-- Every cap is within its bounds, in whole megabytes. -/
def InBounds (plan : RatePlan) (caps : TierCaps) : Prop :=
  ∀ t, plan.floorMegabytes t ≤ (caps.limiters.get t).megabytes ∧
    (caps.limiters.get t).megabytes ≤ plan.upperMegabytes t

/-- A number of runs of the allocator that all see the same average, in whole megabytes. -/
inductive Runs (plan : RatePlan) (average : Nat) (caps : TierCaps) : Nat → TierCaps → Prop
  | none : Runs plan average caps 0 caps
  | more {n : Nat} {caps' : TierCaps} {ring : RateRing} {now : UInt64} : Runs plan average caps n caps' →
      caps'.isSettled now = false → (ring.average now).toNat / 1000000 = average →
      Runs plan average caps (n + 1) (caps'.adjust plan ring now)

section Runs

variable {plan : RatePlan} {caps : TierCaps}

/-- In their bounds, caps need not be brought there. -/
theorem InBounds.stands_eq (h : caps.InBounds plan) :
    Allocator.stands plan caps.limiters = fun t => (caps.limiters.get t).megabytes := by
  funext t
  obtain ⟨hfloor, hupper⟩ := h t
  rw [Allocator.stands, RatePlan.clampMegabytes]
  omega

/-- A run brings caps that are in their bounds to their goals. -/
theorem InBounds.brought_adjust (h : caps.InBounds plan) {now : UInt64} (hruns : caps.isSettled now = false)
    (ring : RateRing) : Allocator.Brought caps.limiters
      (Allocator.goal plan ((ring.average now).toNat / 1000000) fun t => (caps.limiters.get t).megabytes)
      (caps.adjust plan ring now).limiters := fun t => by
  rw [adjust_limiters hruns, Allocator.redistribute_get, h.stands_eq, Limiter.standAt_megabytes]

/-- A run keeps caps in their bounds. -/
theorem InBounds.adjust (h : caps.InBounds plan) {now : UInt64} (hruns : caps.isSettled now = false)
    (ring : RateRing) : (caps.adjust plan ring now).InBounds plan := by
  intro t
  obtain ⟨hfloor, hupper⟩ := h t
  rw [adjust_limiters hruns, Allocator.megabytes_redistribute, h.stands_eq]
  exact ⟨Allocator.floor_le_goal _ hfloor,
    Nat.le_trans (Allocator.goal_le plan _ _ t) (Nat.max_le.mpr ⟨hupper, Nat.le_refl _⟩)⟩

variable {average n : Nat} {caps' : TierCaps}

theorem Runs.inBounds (hruns : Runs plan average caps n caps') (h : caps.InBounds plan) :
    caps'.InBounds plan := by
  induction hruns with
  | none => exact h
  | more _ hlate _ ih => exact ih.adjust hlate _

/-- **What runs do to the caps.**  Each ends where they bring it one after the other, and is not written if that
is where it stood. -/
theorem Runs.brought (hruns : Runs plan average caps n caps') (h : caps.InBounds plan) :
    Allocator.Brought caps.limiters
      ((Allocator.goal plan average)^[n] fun t => (caps.limiters.get t).megabytes) caps'.limiters := by
  induction hruns with
  | none => exact .refl caps.limiters
  | @more n caps' ring now hbefore hlate haverage ih =>
    have hfits : ∀ t, (Allocator.goal plan average)^[n] (fun t => (caps.limiters.get t).megabytes) t
        ≤ Word.top.toNat / 1000000 := fun t =>
      Nat.le_trans (Allocator.iterate_goal_le n t)
        (Nat.max_le.mpr ⟨(caps.limiters.get t).megabytes_le, plan.upperMegabytes_le t⟩)
    have hrun := (hbefore.inBounds h).brought_adjust hlate ring
    rw [haverage, ih.megabytes_eq hfits, ← Function.iterate_succ_apply' (Allocator.goal plan average)] at hrun
    exact ih.trans hrun hfits fun t => Allocator.iterate_goal_eq

end Runs

/-- **Runs compose, and are monotone in the load.**  Two suppressions in turn are one of the sum, and so are two
recoveries.  A number of runs that all see the same average leave caps that are in their bounds as one cascade
does that moves that many times the excess, or the headroom; what does not fit in a word is more than there is to
move.  And of two averages the larger one leaves no tier more megabytes. -/
theorem runs_compose (plan : RatePlan) (caps : TierCaps) (h : caps.InBounds plan) :
    let floors := Allocator.floors plan
    let uppers := Allocator.uppers plan
    let suppressed (amount : UInt64) (limiters : PerTier Limiter) :=
      Allocator.suppress amount floors (Allocator.wholeMegabytes limiters) limiters
    let recovered (amount : UInt64) (limiters : PerTier Limiter) :=
      Allocator.recover amount uppers (Allocator.wholeMegabytes limiters) limiters
    let ceiling := plan.ceiling.toNat / 1000000
    (∀ a b : UInt64, a.toNat + b.toNat < UInt64.size →
      suppressed b (suppressed a caps.limiters) = suppressed (a + b) caps.limiters ∧
        recovered b (recovered a caps.limiters) = recovered (a + b) caps.limiters) ∧
      (∀ (average n : Nat) (caps' : TierCaps), Runs plan average caps n caps' →
        (ceiling < average →
          caps'.limiters = suppressed (Word.clamp (n * (average - ceiling))) caps.limiters) ∧
        (average ≤ ceiling →
          caps'.limiters = recovered (Word.clamp (n * (ceiling - average))) caps.limiters)) ∧
      ∀ (ring ring' : RateRing) (now now' : UInt64),
        caps.isSettled now = caps.isSettled now' → ring.average now ≤ ring'.average now' → ∀ t,
        ((caps.adjust plan ring' now').limiters.get t).megabytes
          ≤ ((caps.adjust plan ring now).limiters.get t).megabytes := by
  intro floors uppers suppressed recovered ceiling
  have hfloors : Allocator.numbers floors = plan.floorMegabytes := funext (Allocator.toNat_floors plan)
  have huppers : Allocator.numbers uppers = plan.upperMegabytes := funext (Allocator.toNat_uppers plan)
  refine ⟨fun a b hsum => ⟨?_, ?_⟩, fun average n caps' hruns => ⟨fun hexcess => ?_, fun hheadroom => ?_⟩,
    fun ring ring' now now' hboth haverage t => ?_⟩
  · exact Allocator.suppress_suppress caps.limiters floors hsum
  · exact Allocator.recover_recover caps.limiters (fun t => huppers ▸ plan.upperMegabytes_le t) hsum
  · have hend := hruns.brought h
    have honce := Allocator.brought_suppress caps.limiters (Word.clamp (n * (average - ceiling))) floors
    rw [Allocator.iterate_goal_of_excess hexcess] at hend
    rw [Allocator.lower_clamp fun t => (caps.limiters.get t).megabytes_le, hfloors] at honce
    exact hend.unique honce
  · have hend := hruns.brought h
    have honce := Allocator.brought_recover caps.limiters (Word.clamp (n * (ceiling - average))) uppers
    rw [Allocator.iterate_goal_of_headroom hheadroom] at hend
    rw [Allocator.raise_clamp fun t => huppers ▸ plan.upperMegabytes_le t, huppers] at honce
    exact hend.unique honce
  · cases hearly : caps.isSettled now with
    | true => simp only [adjust, hearly, ← hboth, if_true, Nat.le_refl]
    | false =>
      rw [adjust_limiters hearly, adjust_limiters (hboth ▸ hearly), Allocator.megabytes_redistribute,
        Allocator.megabytes_redistribute]
      exact Allocator.goal_anti (Nat.div_le_div_right (UInt64.le_iff_toNat_le.mp haverage)) t

end TierCaps

/-! ## Cases

Five megabytes too much are observed, and again a second later.  The first run takes two of them from the least
important tier and three from the next one; the second run takes all five from there. -/

namespace SomeExcess

/-- The caps after both runs.  The epoch is not too old for the second one. -/
def twice : TierCaps := (caps.adjust plan (ring second) second).adjust plan (ring second) (second + second)

end SomeExcess

section

open SomeExcess

/-- Two runs leave what one suppression of ten megabytes leaves. -/
theorem TierCaps.runs_compose_twice_above_ceiling :
    caps.InBounds plan ∧ Runs plan 105 caps 2 twice ∧
      twice.limiters = Allocator.suppress 10 (Allocator.floors plan) (Allocator.wholeMegabytes caps.limiters)
        caps.limiters ∧
      (twice.limiters.get .l1).megabytes = 22 := by
  have hbounds : caps.InBounds plan := fun t => by cases t <;> decide
  have hruns : Runs plan 105 caps 2 twice := (Runs.none.more (by decide) (by decide)).more (by decide) (by decide)
  have hamount : Word.clamp (2 * (105 - plan.ceiling.toNat / 1000000)) = 10 := by decide
  obtain ⟨-, hcascade, -⟩ := runs_compose plan caps hbounds
  have hlimiters := (hcascade 105 2 twice hruns).1 (by decide)
  rw [hamount] at hlimiters
  exact ⟨hbounds, hruns, hlimiters, by decide⟩

end

end Shaping
