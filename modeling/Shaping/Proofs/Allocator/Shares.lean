import Shaping.Proofs.Allocator.Bounds
import Mathlib.Algebra.BigOperators.Group.List.Basic
import Mathlib.Algebra.GroupWithZero.Nat

/-!
# What each tier gives up or gets

A run of the allocator has an amount of bandwidth to take or to give, and goes through the tiers in an
order.  Each of them has its `share`: as much as it has room for, or what is left if that is less.  No share
is larger than the room, together they are the whole amount or all the room (`total_share`), and who gets
something comes after others who got all that they had room for (`share_eq_room`).

The two cascades only differ in their orders and in what room is.  To `lower` the tiers is to take from each
its share of what it has above its floor, to `raise` them is to give to each its share of what is missing to
its upper bound; and these are functions of numbers.  What the cascades do to limiters is no more than that
(`suppress_get`, `recover_get`): each limiter is brought to its number of megabytes, and is not written if
it stands there already (`Limiter.standAt`).  This is how a cap keeps its odd bytes.

That a cascade hands out shares is not plain from what it does, which is to carry along what remains and to
write limiters on the way.  A statement about the limiters in the middle of a cascade would have to say how
far it has come.  `share` does not speak of the middle: it is recursive in the list of tiers, like the fold,
and the induction on the list gives it what remains as its new amount (`foldl_get`).
-/

set_option autoImplicit false

namespace Shaping

/-! ## Shares

Every fact about shares is an induction on the list, in which the tier asked about is the first one or is
not.  The tiers of the list are different, which has to be assumed: of a list that named a tier twice,
`share` would give what the tier gets the first time. -/

namespace Tier

/-- What all tiers have together. -/
def total (f : Tier → Nat) : Nat := f .l0 + f .l1 + f .l2

theorem total_eq_sum {order : List Tier} (h : order.Perm all) (f : Tier → Nat) :
    total f = (order.map f).sum := by
  rw [(h.map f).sum_nat, all]
  simp [total, Nat.add_assoc]

theorem mem_of_perm {order : List Tier} (h : order.Perm all) (t : Tier) : t ∈ order := by
  rw [h.mem_iff]
  cases t <;> decide

end Tier

namespace Allocator

/-- What a tier gets of an amount that is handed out in some order.  Each tier takes as much as it has room
for. -/
def share (room : Tier → Nat) : Nat → List Tier → Tier → Nat
  | _, [], _ => 0
  | amount, t' :: order, t =>
    if t = t' then min amount (room t') else share room (amount - room t') order t

section Share

variable {room : Tier → Nat}

theorem share_cons_self (amount : Nat) (order : List Tier) (t : Tier) :
    share room amount (t :: order) t = min amount (room t) := if_pos rfl

theorem share_cons_of_ne (amount : Nat) (order : List Tier) {t t' : Tier} (h : t ≠ t') :
    share room amount (t' :: order) t = share room (amount - room t') order t := if_neg h

theorem share_le_room (room : Tier → Nat) (amount : Nat) (order : List Tier) (t : Tier) :
    share room amount order t ≤ room t := by
  induction order generalizing amount with
  | nil => exact Nat.zero_le _
  | cons t' order ih =>
    rw [share]
    split
    · rename_i h
      rw [h]
      exact Nat.min_le_right _ _
    · exact ih _

theorem share_le_amount (room : Tier → Nat) (amount : Nat) (order : List Tier) (t : Tier) :
    share room amount order t ≤ amount := by
  induction order generalizing amount with
  | nil => exact Nat.zero_le _
  | cons t' order ih =>
    rw [share]
    split
    · exact Nat.min_le_left _ _
    · exact Nat.le_trans (ih _) (Nat.sub_le _ _)

/-- **Nothing gets lost.**  The shares are all of the amount, or all the room there is. -/
theorem sum_share {order : List Tier} (h : order.Nodup) (amount : Nat) :
    (order.map (share room amount order)).sum = min amount (order.map room).sum := by
  induction order generalizing amount with
  | nil => simp
  | cons t order ih =>
    obtain ⟨ht, horder⟩ := List.nodup_cons.mp h
    have htail : order.map (share room amount (t :: order))
        = order.map (share room (amount - room t) order) :=
      List.map_congr_left fun t' ht' => share_cons_of_ne _ _ fun heq => ht (heq ▸ ht')
    rw [List.map_cons, List.sum_cons, share_cons_self, htail, ih horder, List.map_cons, List.sum_cons]
    omega

theorem total_share {order : List Tier} (h : order.Perm Tier.all) (amount : Nat) :
    Tier.total (share room amount order) = min amount (Tier.total room) := by
  rw [Tier.total_eq_sum h, Tier.total_eq_sum h, sum_share (h.nodup_iff.mpr (by decide))]

/-- **First come, first served.**  A tier gets something only if every tier before it got all that it had room
for. -/
theorem share_eq_room {order : List Tier} (h : order.Nodup) {amount : Nat} {t t' : Tier}
    (hbefore : [t', t].Sublist order) (hpos : 0 < share room amount order t) :
    share room amount order t' = room t' := by
  induction order generalizing amount with
  | nil => cases hbefore
  | cons t₀ order ih =>
    obtain ⟨ht₀, horder⟩ := List.nodup_cons.mp h
    cases hbefore with
    | cons _ hlater =>
      have ht : t ≠ t₀ := fun heq => ht₀ (heq ▸ hlater.subset (by simp))
      have ht' : t' ≠ t₀ := fun heq => ht₀ (heq ▸ hlater.subset (by simp))
      rw [share_cons_of_ne _ _ ht] at hpos
      rw [share_cons_of_ne _ _ ht', ih horder hlater hpos]
    | cons_cons _ hlater =>
      -- something is left after the first tier, so that one took all that it had room for
      have ht : t ≠ t' := fun heq => ht₀ (heq ▸ hlater.subset (by simp))
      rw [share_cons_of_ne _ _ ht] at hpos
      have hleft := share_le_amount room (amount - room t') order t
      rw [share_cons_self]
      omega

end Share

/-! ## Lowering and raising

These are the shares once more, in terms of where tiers stand.  The three facts about shares become facts of
each cascade: a bound, the total, and who comes first. -/

/-- Where tiers end that an amount is taken from, the least important one first. -/
def lower (floor : Tier → Nat) (amount : Nat) (stood : Tier → Nat) (t : Tier) : Nat :=
  stood t - share (fun t => stood t - floor t) amount Tier.suppressOrder t

/-- Where tiers end that an amount is given to, the most important one first. -/
def raise (upper : Tier → Nat) (amount : Nat) (stood : Tier → Nat) (t : Tier) : Nat :=
  stood t + share (fun t => upper t - stood t) amount Tier.recoverOrder t

theorem perm_suppressOrder : Tier.suppressOrder.Perm Tier.all := by decide

theorem perm_recoverOrder : Tier.recoverOrder.Perm Tier.all := by decide

section Levels

variable {floor upper stood : Tier → Nat} (amount : Nat)

theorem lower_le (t : Tier) : lower floor amount stood t ≤ stood t := Nat.sub_le _ _

theorem le_raise (t : Tier) : stood t ≤ raise upper amount stood t := Nat.le_add_right _ _

/-- Nothing is taken below the floor. -/
theorem floor_le_lower {t : Tier} (h : floor t ≤ stood t) : floor t ≤ lower floor amount stood t := by
  have hshare := share_le_room (fun t => stood t - floor t) amount Tier.suppressOrder t
  rw [lower]
  omega

/-- Nothing is given above the upper bound. -/
theorem raise_le (t : Tier) : raise upper amount stood t ≤ max (stood t) (upper t) := by
  have hshare := share_le_room (fun t => upper t - stood t) amount Tier.recoverOrder t
  rw [raise]
  omega

/-- What is taken altogether. -/
theorem total_lower : Tier.total (fun t => stood t - lower floor amount stood t)
    = min amount (Tier.total fun t => stood t - floor t) := by
  rw [← total_share perm_suppressOrder]
  refine congrArg Tier.total (funext fun t => ?_)
  have hshare := share_le_room (fun t => stood t - floor t) amount Tier.suppressOrder t
  rw [lower]
  omega

/-- What is given altogether. -/
theorem total_raise : Tier.total (fun t => raise upper amount stood t - stood t)
    = min amount (Tier.total fun t => upper t - stood t) := by
  rw [← total_share perm_recoverOrder]
  exact congrArg Tier.total (funext fun t => Nat.add_sub_cancel_left ..)

variable {amount} {t t' : Tier}

/-- Those before a tier that loses something have nothing left to lose. -/
theorem lower_eq_floor (h : floor t' ≤ stood t') (hbefore : [t', t].Sublist Tier.suppressOrder)
    (hloses : lower floor amount stood t < stood t) : lower floor amount stood t' = floor t' := by
  rw [lower] at hloses ⊢
  have hpos : 0 < share (fun t => stood t - floor t) amount Tier.suppressOrder t := by omega
  have hall := share_eq_room (by decide) hbefore hpos
  omega

/-- Those before a tier that gains something have nothing left to gain. -/
theorem upper_le_raise (hbefore : [t', t].Sublist Tier.recoverOrder)
    (hgains : stood t < raise upper amount stood t) : upper t' ≤ raise upper amount stood t' := by
  rw [raise] at hgains ⊢
  have hpos : 0 < share (fun t => upper t - stood t) amount Tier.recoverOrder t := by omega
  have hall := share_eq_room (by decide) hbefore hpos
  omega

end Levels

end Allocator

/-! ## Limiters and megabytes

A cap that is given the number of megabytes that it has already is not written, although writing it would
cut off its odd bytes.  `standAt` says just that, and `megabytes_standAt` is all that is needed of it where
only numbers count. -/

namespace Limiter

/-- The rate of a limiter in whole megabytes. -/
def megabytes (l : Limiter) : Nat := l.rate.toNat / 1000000

/-- The limiter brought to a number of megabytes.  It is not written if it stands there. -/
def standAt (l : Limiter) (m : Nat) : Limiter :=
  if l.megabytes = m then l else l.withRate (Word.clamp (m * 1000000))

theorem standAt_megabytes (l : Limiter) : l.standAt l.megabytes = l := if_pos rfl

theorem megabytes_le (l : Limiter) : l.megabytes ≤ Word.top.toNat / 1000000 :=
  Nat.div_le_div_right (Nat.le_sub_one_of_lt l.rate.toNat_lt_size)

/-- A limiter stands where it was brought, if that can be written in bytes. -/
theorem megabytes_standAt (l : Limiter) {m : Nat} (hm : m ≤ Word.top.toNat / 1000000) :
    (l.standAt m).megabytes = m := by
  rw [standAt]
  split
  · assumption
  · have hbytes : (Word.clamp (m * 1000000)).toNat = m * 1000000 := by
      rw [Word.toNat_clamp]
      exact Nat.min_eq_left ((Nat.le_div_iff_mul_le (by decide)).mp hm)
    rw [megabytes, withRate, hbytes, Nat.mul_div_cancel _ (by decide)]

end Limiter

/-! ## The two cascades

Taking and giving are one move between two bounds, with different ends.  What a tier ends at is given to
`moveBetween_spec` as a function of its share, so that the three branches of a move are gone through once.
Its hypotheses are about numbers: that the words of either branch are what the function says, and that a
share that is not nothing moves the tier.  The last one matters because a move writes the limiter without
looking, whereas `standAt` looks. -/

namespace Allocator

variable {limiters : PerTier Limiter} {cap : PerTier UInt64}

/-- The numbers that the allocator counts with are those of the caps. -/
def Counted (cap : PerTier UInt64) (limiters : PerTier Limiter) : Prop :=
  ∀ t, (limiters.get t).megabytes = (cap.get t).toNat

theorem setMegabytes_get_self {t : Tier} {m : UInt64} (h : (limiters.get t).megabytes ≠ m.toNat) :
    (Transfer.setMegabytes limiters t m).get t = (limiters.get t).standAt m.toNat := by
  rw [setMegabytes_get, if_pos rfl, Limiter.standAt, if_neg h]
  rfl

/-- A move in either direction.  If there is room between two bounds, a tier ends at `full` when what remains
covers the room, and otherwise at `part`. -/
def moveBetween (low high full part : UInt64) (x : Transfer) (t : Tier) : Transfer :=
  if x.remaining = 0 ∨ high ≤ low then x
  else if high - low ≤ x.remaining then
    ⟨x.remaining - (high - low), Transfer.setMegabytes x.limiters t full⟩
  else ⟨0, Transfer.setMegabytes x.limiters t part⟩

/-- **A move takes as much of what remains as there is room for.**  Say that a tier is to end at `goal n` if it
has a share of `n`, and that it does not end where it stood unless its share is nothing. -/
theorem moveBetween_spec (goal : Nat → Nat) {low high full part : UInt64} {x : Transfer} {t : Tier}
    (hstood : (x.limiters.get t).megabytes = goal 0)
    (hmoves : ∀ n, 0 < n → n ≤ high.toNat - low.toNat → goal n ≠ goal 0)
    (hfull : low < high → full.toNat = goal (high.toNat - low.toNat))
    (hpart : x.remaining.toNat < high.toNat - low.toNat → part.toNat = goal x.remaining.toNat) :
    let room := high.toNat - low.toNat
    let after := moveBetween low high full part x t
    after.remaining.toNat = x.remaining.toNat - room ∧
      after.limiters.get t = (x.limiters.get t).standAt (goal (min x.remaining.toNat room)) ∧
      ∀ t', t' ≠ t → after.limiters.get t' = x.limiters.get t' := by
  intro room after
  have hset : ∀ {m : UInt64} {n : Nat}, m.toNat = goal n → 0 < n → n ≤ room →
      (Transfer.setMegabytes x.limiters t m).get t = (x.limiters.get t).standAt (goal n) := by
    intro m n hm hn hroom
    have hne : (x.limiters.get t).megabytes ≠ m.toNat := by
      rw [hstood, hm]
      exact (hmoves n hn hroom).symm
    rw [setMegabytes_get_self hne, hm]
  simp only [after, moveBetween]
  split
  · rename_i hidle
    rw [← UInt64.toNat_inj, UInt64.toNat_zero, UInt64.le_iff_toNat_le] at hidle
    have hnone : min x.remaining.toNat room = 0 := by omega
    refine ⟨by omega, ?_, fun _ _ => rfl⟩
    rw [hnone, ← hstood, Limiter.standAt_megabytes]
  · rename_i hmove
    rw [not_or, ← UInt64.toNat_inj, UInt64.toNat_zero, UInt64.not_le] at hmove
    obtain ⟨hpos, hlt⟩ := hmove
    have hroom : (high - low).toNat = room := UInt64.toNat_sub_of_le _ _ (UInt64.le_of_lt hlt)
    have hsome : 0 < room := Nat.sub_pos_of_lt (UInt64.lt_iff_toNat_lt.mp hlt)
    split
    · rename_i hcovered
      have hrest := UInt64.toNat_sub_of_le _ _ hcovered
      rw [UInt64.le_iff_toNat_le, hroom] at hcovered
      refine ⟨by rw [hrest, hroom], ?_, fun t' ht' => by rw [setMegabytes_get, if_neg ht']⟩
      rw [Nat.min_eq_right hcovered]
      exact hset (hfull hlt) hsome (Nat.le_refl _)
    · rename_i hshort
      rw [UInt64.le_iff_toNat_le, hroom, Nat.not_le] at hshort
      refine ⟨?_, ?_, fun t' ht' => by rw [setMegabytes_get, if_neg ht']⟩
      · rw [UInt64.toNat_zero, Nat.sub_eq_zero_of_le (Nat.le_of_lt hshort)]
      · rw [Nat.min_eq_left (Nat.le_of_lt hshort)]
        exact hset (hpart hshort) (Nat.pos_of_ne_zero hpos) (Nat.le_of_lt hshort)

/-- Taking from one tier takes its share, which is no more than it has above its floor. -/
theorem take_spec (floor : PerTier UInt64) {x : Transfer} {t : Tier}
    (h : (x.limiters.get t).megabytes = (cap.get t).toNat) :
    let room := (cap.get t).toNat - (floor.get t).toNat
    (x.take floor cap t).remaining.toNat = x.remaining.toNat - room ∧
      (x.take floor cap t).limiters.get t
        = (x.limiters.get t).standAt ((cap.get t).toNat - min x.remaining.toNat room) ∧
      ∀ t', t' ≠ t → (x.take floor cap t).limiters.get t' = x.limiters.get t' := by
  have htake : x.take floor cap t
      = moveBetween (floor.get t) (cap.get t) (floor.get t) (cap.get t - x.remaining) x t := rfl
  rw [htake]
  refine moveBetween_spec (fun n => (cap.get t).toNat - n) h (fun n hn hroom => ?_) (fun hlt => ?_)
    fun hshort => ?_
  · omega
  · rw [UInt64.lt_iff_toNat_lt] at hlt
    omega
  · exact UInt64.toNat_sub_of_le _ _ (by rw [UInt64.le_iff_toNat_le]; omega)

/-- Giving to one tier gives its share, which is no more than takes it to its upper bound. -/
theorem give_spec (upper : PerTier UInt64) {x : Transfer} {t : Tier}
    (h : (x.limiters.get t).megabytes = (cap.get t).toNat) :
    let room := (upper.get t).toNat - (cap.get t).toNat
    (x.give upper cap t).remaining.toNat = x.remaining.toNat - room ∧
      (x.give upper cap t).limiters.get t
        = (x.limiters.get t).standAt ((cap.get t).toNat + min x.remaining.toNat room) ∧
      ∀ t', t' ≠ t → (x.give upper cap t).limiters.get t' = x.limiters.get t' := by
  have hgive : x.give upper cap t
      = moveBetween (cap.get t) (upper.get t) (upper.get t) (cap.get t + x.remaining) x t := rfl
  rw [hgive]
  refine moveBetween_spec (fun n => (cap.get t).toNat + n) h (fun n hn hroom => ?_) (fun hlt => ?_)
    fun hshort => ?_
  · omega
  · rw [UInt64.lt_iff_toNat_lt] at hlt
    omega
  · have hword := (upper.get t).toNat_lt
    rw [UInt64.toNat_add]
    exact Nat.mod_eq_of_lt (by omega)

/-- **A cascade hands out shares.**  If every move brings its tier to where its share takes it, and touches no
other tier, then each tier is in the end where its share takes it. -/
theorem foldl_get (move : Transfer → Tier → Transfer) (room : Tier → Nat) (goal : Tier → Nat → Nat)
    (hmove : ∀ (x : Transfer) t, x.limiters.get t = limiters.get t →
      (move x t).remaining.toNat = x.remaining.toNat - room t ∧
      (move x t).limiters.get t
        = (limiters.get t).standAt (goal t (min x.remaining.toNat (room t))) ∧
      ∀ t', t' ≠ t → (move x t).limiters.get t' = x.limiters.get t')
    {order : List Tier} (horder : order.Nodup) {x : Transfer}
    (hx : ∀ t ∈ order, x.limiters.get t = limiters.get t) (t : Tier) :
    (order.foldl move x).limiters.get t =
      if t ∈ order then (limiters.get t).standAt (goal t (share room x.remaining.toNat order t))
      else x.limiters.get t := by
  induction order generalizing x with
  | nil => rfl
  | cons t₀ order ih =>
    obtain ⟨ht₀, hnodup⟩ := List.nodup_cons.mp horder
    obtain ⟨hremaining, hself, hother⟩ := hmove x t₀ (hx t₀ List.mem_cons_self)
    have hnext : ∀ t ∈ order, (move x t₀).limiters.get t = limiters.get t := fun t ht => by
      rw [hother t fun heq => ht₀ (heq ▸ ht), hx t (List.mem_cons_of_mem _ ht)]
    rw [List.foldl_cons, ih hnodup hnext, hremaining]
    by_cases ht : t = t₀
    · rw [ht, if_neg ht₀, if_pos List.mem_cons_self, share_cons_self, hself]
    · rw [share_cons_of_ne _ _ ht, hother t ht]
      simp only [List.mem_cons, ht, false_or]

/-- The numbers of all tiers. -/
def numbers (cap : PerTier UInt64) (t : Tier) : Nat := (cap.get t).toNat

/-- **What a suppression leaves of each tier.** -/
theorem suppress_get (overflow : UInt64) (floor : PerTier UInt64) (h : Counted cap limiters) (t : Tier) :
    (suppress overflow floor cap limiters).get t
      = (limiters.get t).standAt (lower (numbers floor) overflow.toNat (numbers cap) t) := by
  have hfold := foldl_get (Transfer.take floor cap) (fun t => (cap.get t).toNat - (floor.get t).toNat)
    (fun t n => (cap.get t).toNat - n) (fun x t hx => hx ▸ take_spec floor (hx ▸ h t))
    (show Tier.suppressOrder.Nodup by decide) (x := ⟨overflow, limiters⟩) (fun _ _ => rfl) t
  rw [suppress, hfold, if_pos (Tier.mem_of_perm perm_suppressOrder t)]
  rfl

/-- **What a recovery makes of each tier.** -/
theorem recover_get (headroom : UInt64) (upper : PerTier UInt64) (h : Counted cap limiters) (t : Tier) :
    (recover headroom upper cap limiters).get t
      = (limiters.get t).standAt (raise (numbers upper) headroom.toNat (numbers cap) t) := by
  have hfold := foldl_get (Transfer.give upper cap) (fun t => (upper.get t).toNat - (cap.get t).toNat)
    (fun t n => (cap.get t).toNat + n) (fun x t hx => hx ▸ give_spec upper (hx ▸ h t))
    (show Tier.recoverOrder.Nodup by decide) (x := ⟨headroom, limiters⟩) (fun _ _ => rfl) t
  rw [recover, hfold, if_pos (Tier.mem_of_perm perm_recoverOrder t)]
  rfl

end Allocator

end Shaping
