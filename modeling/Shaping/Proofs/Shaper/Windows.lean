import Shaping.Proofs.Limiter.Pacer
import Shaping.Proofs.Limiter.TokenBucket
import Shaping.Proofs.Shaper.Run

/-!
# Windows of a run

What a limit promises is about the packets that some choice of packets has in a window of time: how many
bytes come in it (`Pipeline.bytesBetween`), or how long the packets that leave in it take to be sent
(`Pipeline.sendingTime`).

A limiter is only asked about the packets that get to it, so the packets that are let go are fewer than
those it let pass.  `bytesBetween_le` and `sendingTime_lt` turn the laws of limiters, which are about
offers, into laws about packets: whoever names for each packet that was let go the offer that let it pass
has them.

For bytes that is a comparison of two sums, since a packet that is let go comes when it is offered.  For
sending times it is not, because a packet may leave later than the limiter said, if another one delays it
afterwards.  What is kept is the distance at the limiter; so the times are compared there, and the delay
(`slack`) counts once, for the first packet in the window, and not for every packet.
-/

set_option autoImplicit false

namespace Shaping

namespace Pipeline

variable (u : Pipeline)

/-- The packets among those chosen that are let go, in the order in which they are. -/
def admitted (chosen : Passage → Bool) (xs : List Passage) : List Passage :=
  xs.filter fun x => chosen x && x.passes u

/-- The bytes of the packets among those chosen that are let go and come at times from `t1` to `t2`. -/
def bytesBetween (chosen : Passage → Bool) (t1 t2 : Nat) (xs : List Passage) : Nat :=
  (((u.admitted chosen xs).filter fun x => t1 ≤ x.now.toNat ∧ x.now.toNat ≤ t2).map
    fun x => x.packet.length.toNat).sum

/-- The time that the packets among those chosen take at a rate that are let go and leave at times from
`a` to `b`, leaving the first of them out. -/
def sendingTime (chosen : Passage → Bool) (rate : UInt64) (a b : Nat) (xs : List Passage) : Nat :=
  (((u.admitted chosen xs).filter fun x => a ≤ (x.leaves u).toNat ∧ (x.leaves u).toNat ≤ b).tail.map
    fun x => (Pacer.transmissionTime x.packet.length rate).toNat).sum

variable {u} {chosen : Passage → Bool} {ask : Passage → Option Offer}

/-- A packet comes last in front of a window or counts. -/
theorem bytesBetween_cons_le (t1 t2 : Nat) (x : Passage) (xs : List Passage) :
    u.bytesBetween chosen t1 t2 (x :: xs) ≤
      (if (chosen x = true ∧ x.passes u = true) ∧ t1 ≤ x.now.toNat ∧ x.now.toNat ≤ t2 then
        x.packet.length.toNat else 0) + u.bytesBetween chosen t1 t2 xs := by
  by_cases hx : chosen x = true ∧ x.passes u = true
  · by_cases hin : t1 ≤ x.now.toNat ∧ x.now.toNat ≤ t2
    · rw [if_pos ⟨hx, hin⟩]
      simp [bytesBetween, admitted, hx, hin]
    · rw [if_neg fun h => hin h.2]
      simp [bytesBetween, admitted, hx, hin]
  · rw [if_neg fun h => hx h.1]
    have hnot : (chosen x && x.passes u) = false := by
      rw [Bool.eq_false_iff, Ne, Bool.and_eq_true]
      exact hx
    simp [bytesBetween, admitted, hnot]

/-- The bytes of packets are among the bytes of the offers that let them pass. -/
theorem bytesBetween_le (t1 t2 : Nat) {xs : List Passage}
    (h : ∀ x ∈ xs, chosen x = true → x.passes u = true → ∃ y, ask x = some y ∧
      y.passes .tokenBucket = true ∧ y.size = x.packet.length ∧ y.now = x.now) :
    u.bytesBetween chosen t1 t2 xs ≤ TokenBucket.windowBytes t1 t2 (xs.filterMap ask) := by
  induction xs with
  | nil => exact Nat.le_refl _
  | cons x xs ih =>
    rw [List.forall_mem_cons] at h
    have ih := ih h.2
    refine Nat.le_trans (bytesBetween_cons_le t1 t2 x xs) ?_
    by_cases hx : (chosen x = true ∧ x.passes u = true) ∧ t1 ≤ x.now.toNat ∧ x.now.toNat ≤ t2
    · obtain ⟨y, hask, hpass, hsize, hnow⟩ := h.1 hx.1.1 hx.1.2
      rw [if_pos hx, List.filterMap_cons, hask, TokenBucket.windowBytes_cons, hnow, if_pos hx.2,
        Offer.passedBytes, if_pos hpass, hsize]
      omega
    · rw [if_neg hx, List.filterMap_cons]
      split
      · omega
      · rw [TokenBucket.windowBytes_cons]
        omega

/-- Packets leave at the distance at which a pacer let them pass, even if each of them leaves somewhat
later than that. -/
theorem sendingTime_lt {rate : UInt64} {slack : Nat} (a b : Nat) {xs : List Passage}
    (hslack : 0 < slack)
    (hspaced : (xs.filterMap ask).Pairwise fun y z => y.passes .pacer = true →
      z.passes .pacer = true →
      (y.leaves .pacer).toNat + (Pacer.transmissionTime z.size rate).toNat ≤ (z.leaves .pacer).toNat)
    (h : ∀ x ∈ xs, chosen x = true → x.passes u = true → ∃ y, ask x = some y ∧
      y.passes .pacer = true ∧ y.size = x.packet.length ∧
      (y.leaves .pacer).toNat ≤ (x.leaves u).toNat ∧
      (x.leaves u).toNat < (y.leaves .pacer).toNat + slack) :
    u.sendingTime chosen rate a b xs < b - a + slack := by
  let turn (x : Passage) : Nat := ((ask x).map fun y => (y.leaves .pacer).toNat).getD 0
  have hpairs : (u.admitted chosen xs).Pairwise fun x x' =>
      turn x + (Pacer.transmissionTime x'.packet.length rate).toNat ≤ turn x' := by
    rw [admitted, List.pairwise_filter]
    refine (List.pairwise_filterMap.mp hspaced).imp_of_mem fun {x x'} hx hx' hxx' hgo hgo' => ?_
    rw [Bool.and_eq_true] at hgo hgo'
    obtain ⟨y, hask, hpass, -, -⟩ := h x hx hgo.1 hgo.2
    obtain ⟨z, hask', hpass', hsize, -⟩ := h x' hx' hgo'.1 hgo'.2
    simp only [turn, hask, hask', Option.map_some, Option.getD_some, ← hsize]
    exact hxx' y hask z hask' hpass hpass'
  have hturn : ∀ x ∈ u.admitted chosen xs,
      turn x ≤ (x.leaves u).toNat ∧ (x.leaves u).toNat < turn x + slack := by
    intro x hx
    obtain ⟨hx, hgo⟩ := List.mem_filter.mp hx
    rw [Bool.and_eq_true] at hgo
    obtain ⟨y, hask, -, -, hle, hlt⟩ := h x hx hgo.1 hgo.2
    simp only [turn, hask, Option.map_some, Option.getD_some]
    exact ⟨hle, hlt⟩
  have hwindow := hpairs.filter fun x => a ≤ (x.leaves u).toNat ∧ (x.leaves u).toNat ≤ b
  rw [sendingTime]
  generalize hys : ((u.admitted chosen xs).filter
    fun x => a ≤ (x.leaves u).toNat ∧ (x.leaves u).toNat ≤ b) = ys at hwindow
  have hin : ∀ x ∈ ys, x ∈ u.admitted chosen xs ∧ a ≤ (x.leaves u).toNat ∧ (x.leaves u).toNat ≤ b := by
    intro x hx
    rw [← hys, List.mem_filter, decide_eq_true_iff] at hx
    exact hx
  cases ys with
  | nil => exact Nat.add_pos_right _ hslack
  | cons x ys =>
    have hlast : ∀ y ∈ x :: ys, turn y ≤ b := fun y hy =>
      Nat.le_trans (hturn y (hin y hy).1).1 (hin y hy).2.2
    have hsum := Pacer.sum_tail_le hwindow hlast
    have hx := hin x List.mem_cons_self
    have hlate := hturn x hx.1
    rw [List.tail_cons]
    omega

end Pipeline

end Shaping
