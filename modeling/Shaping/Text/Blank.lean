/-!
# Blank characters

Blanks are the characters with the property `White_Space` of the Unicode standard: six controls, the
space, and the no-break, typographic and ideographic spaces.  Zero-width characters are not among
them.  Configuration files and command lines are trimmed of blanks in this sense, and a blank divides a
key from its value in the older file format.
-/

set_option autoImplicit false

namespace Shaping.Text

/-- Is the character a blank? -/
def isBlank (c : Char) : Bool :=
  let n := c.toNat
  (9 ≤ n && n ≤ 13) || n == 32 || n == 133 || n == 160 || n == 5760 || (8192 ≤ n && n ≤ 8202) ||
    n == 8232 || n == 8233 || n == 8239 || n == 8287 || n == 12288

/-- A text without the blanks at its front. -/
def trimFront (cs : List Char) : List Char := cs.dropWhile isBlank

/-- A text without the blanks at its end. -/
def trimBack (cs : List Char) : List Char := (cs.reverse.dropWhile isBlank).reverse

/-- A text without the blanks at either end. -/
def trim (cs : List Char) : List Char := trimBack (trimFront cs)

/-- A text that starts and ends with no blank is its own trimmed form. -/
theorem trim_eq_self {cs : List Char} (hf : ∀ c ∈ cs.head?, isBlank c = false)
    (hb : ∀ c ∈ cs.getLast?, isBlank c = false) : trim cs = cs := by
  have front : trimFront cs = cs := by
    cases cs with
    | nil => rfl
    | cons c cs =>
      have h : isBlank c = false := hf c rfl
      rw [trimFront, List.dropWhile_cons_of_neg (by simp [h])]
  rw [trim, front, trimBack]
  cases hr : cs.reverse with
  | nil => rw [← List.reverse_reverse cs, hr]; rfl
  | cons c r =>
    have h : isBlank c = false := hb c (by
      rw [List.getLast?_eq_head?_reverse, hr]; rfl)
    rw [List.dropWhile_cons_of_neg (by simp [h]), ← hr, List.reverse_reverse]

end Shaping.Text
