import Shaping.Limiter
import Mathlib.Algebra.BigOperators.Group.List.Basic
import Mathlib.Algebra.GroupWithZero.Nat

/-!
# What a limiter is asked in the course of time

A limiter of the shaper is asked about one packet after the other.  In between nothing happens to it,
except that its rate may be changed.  An `Offer` is one such question with the limiter as it was then,
and a `Course` is a sequence of them in which each limiter is what the answer before left, up to the
rate.

The laws of the two disciplines are statements about courses.  Whoever shows that the packets he is
interested in form a course has them: it does not matter what else went on meanwhile.

The plainest way to come by a course is to write down what happens to a limiter: its rate is set, or it is
offered a packet.  Such a list of `Incident`s is a history, and its packets are a course (`course_offers`).
-/

set_option autoImplicit false

namespace Shaping

/-- A packet is offered to a limiter. -/
structure Offer where
  limiter : Limiter
  size : UInt64
  departure : UInt64
  now : UInt64

namespace Offer

/-- What the limiter answers. -/
def answer (d : Discipline) (x : Offer) : Admission :=
  d.offer x.limiter x.size x.departure x.now

/-- Does the packet pass? -/
def passes (d : Discipline) (x : Offer) : Bool := (x.answer d).verdict = .pass

/-- When the packet leaves, if it passes: what is in the past stands for now. -/
def leaves (d : Discipline) (x : Offer) : UInt64 := max (x.answer d).departure x.now

/-- The bytes that pass. -/
def passedBytes (d : Discipline) (x : Offer) : Nat := if x.passes d then x.size.toNat else 0

end Offer

/-- Packets offered to one limiter, the first one when it was as given, but for the rate. -/
def Course (d : Discipline) : Limiter → List Offer → Prop
  | _, [] => True
  | l, x :: xs => (∃ rate, x.limiter = l.withRate rate) ∧ Course d (x.answer d).limiter xs

theorem Course.mono {d : Discipline} {l : Limiter} {xs : List Offer} (h : Course d l xs)
    (rate : UInt64) : Course d (l.withRate rate) xs := by
  cases xs with
  | nil => trivial
  | cons x xs =>
    obtain ⟨⟨r, hr⟩, htail⟩ := h
    exact ⟨⟨r, hr⟩, htail⟩

theorem Course.start {d : Discipline} {l : Limiter} {xs ys : List Offer} (h : Course d l xs)
    (hys : ys <+: xs) : Course d l ys := by
  induction ys generalizing l xs with
  | nil => trivial
  | cons y ys ih =>
    obtain ⟨rest, rfl⟩ := hys
    exact ⟨h.1, ih h.2 ⟨rest, rfl⟩⟩

/-- A stretch of a course is a course of a limiter that came about. -/
theorem Course.stretch {d : Discipline} {l : Limiter} {xs ys : List Offer} (h : Course d l xs)
    (hys : ys <:+: xs) : ∃ l', Course d l' ys := by
  induction xs generalizing l with
  | nil => exact ⟨l, by rw [List.infix_nil.mp hys]; trivial⟩
  | cons x xs ih =>
    rcases List.infix_cons_iff.mp hys with hfirst | hlater
    · exact ⟨l, h.start hfirst⟩
    · exact ih h.2 hlater

/-! ## Histories -/

/-- Something that happens to a limiter. -/
inductive Incident where
  | setRate (rate : UInt64)
  | offer (size departure now : UInt64)

namespace Limiter

/-- The packets that are offered to a limiter in the course of a history. -/
def offers (d : Discipline) : Limiter → List Incident → List Offer
  | _, [] => []
  | l, .setRate rate :: history => offers d (l.withRate rate) history
  | l, .offer size departure now :: history =>
    ⟨l, size, departure, now⟩ :: offers d (d.offer l size departure now).limiter history

/-- **The packets of a history are a course.** -/
theorem course_offers (d : Discipline) (l : Limiter) (history : List Incident) :
    Course d l (l.offers d history) := by
  induction history generalizing l with
  | nil => trivial
  | cons incident history ih =>
    cases incident with
    | setRate rate => exact (ih (l.withRate rate)).mono l.rate
    | offer size departure now => exact ⟨⟨l.rate, rfl⟩, ih _⟩

end Limiter

end Shaping
