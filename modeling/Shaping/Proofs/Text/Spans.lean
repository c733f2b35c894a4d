import Shaping.Text.Blank
import Mathlib.Data.List.TakeWhile

/-!
# Spans

A text falls into a front of characters with a property and a rest that starts with another character in
one way only (`Text.span_iff`), so a reader that takes as many characters as it can is known by what it
leaves.  Trimming is two such spans, one of them read from the back, and what stands between the blanks is
the trimmed text (`Text.trim_eq`).

Readers are written with `takeWhile` and `dropWhile`, and proofs about them start from a text that was put
together from parts.  `Text.span_iff` turns the one into the other, and it does so in both directions: to
read a text is to find the parts, and to know the parts is to know what is read.  That the rest starts with
another character is what makes the parts unique; without it a front could be cut off earlier.

Trimming needs a case more.  If nothing stands between the blanks, then those of the back belong to the
front, and the condition on the first character of the rest says nothing about them.
-/

set_option autoImplicit false

namespace Shaping.Text

/-- A text falls into a front with a property and a rest without it in one way only. -/
theorem span_iff {p : Char → Bool} {cs front rest : List Char} :
    cs.takeWhile p = front ∧ cs.dropWhile p = rest ↔
      cs = front ++ rest ∧ (∀ c ∈ front, p c) ∧ ∀ c ∈ rest.head?, p c = false := by
  constructor
  · rintro ⟨rfl, rfl⟩
    refine ⟨List.takeWhile_append_dropWhile.symm, fun c hc => List.mem_takeWhile_imp hc, fun c hc => ?_⟩
    have h := List.head?_dropWhile_not p cs
    rwa [Option.mem_def.mp hc] at h
  · rintro ⟨rfl, hfront, hrest⟩
    rw [List.takeWhile_append_of_pos hfront, List.dropWhile_append_of_pos hfront]
    cases rest with
    | nil => simp
    | cons c rest =>
      have hc : p c = false := hrest c rfl
      simp [hc]

theorem span_spec (p : Char → Bool) (cs : List Char) :
    cs = cs.takeWhile p ++ cs.dropWhile p ∧ (∀ c ∈ cs.takeWhile p, p c) ∧
      ∀ c ∈ (cs.dropWhile p).head?, p c = false :=
  span_iff.mp ⟨rfl, rfl⟩

theorem trimFront_eq {front t : List Char} (hfront : ∀ c ∈ front, isBlank c)
    (ht : ∀ c ∈ t.head?, isBlank c = false) : trimFront (front ++ t) = t :=
  (span_iff.mpr ⟨rfl, hfront, ht⟩).2

theorem trimBack_eq {t back : List Char} (hback : ∀ c ∈ back, isBlank c)
    (ht : ∀ c ∈ t.getLast?, isBlank c = false) : trimBack (t ++ back) = t := by
  have h : trimFront (back.reverse ++ t.reverse) = t.reverse :=
    trimFront_eq (by simpa using hback) (by rwa [List.head?_reverse])
  rw [trimBack, List.reverse_append, ← trimFront, h, List.reverse_reverse]

/-- Every text is followed by blanks, and does not end with one without them. -/
theorem exists_trimBack (s : List Char) : ∃ t back, s = t ++ back ∧ (∀ c ∈ back, isBlank c) ∧
    ∀ c ∈ t.getLast?, isBlank c = false := by
  obtain ⟨hs, hblank, hrest⟩ := span_spec isBlank s.reverse
  refine ⟨trimBack s, (s.reverse.takeWhile isBlank).reverse, ?_, by simpa using hblank, ?_⟩
  · rw [trimBack, ← List.reverse_append, ← hs, List.reverse_reverse]
  · rwa [trimBack, List.getLast?_reverse]

/-- **What stands between the blanks** is what trimming leaves. -/
theorem trim_eq {front t back : List Char} (hfront : ∀ c ∈ front, isBlank c)
    (hback : ∀ c ∈ back, isBlank c) (hhead : ∀ c ∈ t.head?, isBlank c = false)
    (hlast : ∀ c ∈ t.getLast?, isBlank c = false) : trim (front ++ t ++ back) = t := by
  cases t with
  | nil =>
    have hblank : ∀ c ∈ front ++ [] ++ back, isBlank c := by
      simpa [or_imp, forall_and] using ⟨hfront, hback⟩
    have h : trimFront (front ++ [] ++ back) = [] := by
      simpa using trimFront_eq (t := []) hblank (by simp)
    rw [trim, h]
    rfl
  | cons c t =>
    rw [trim, List.append_assoc, trimFront_eq hfront (by simpa using hhead), trimBack_eq hback hlast]

end Shaping.Text
