import Shaping.Json.Lexeme
import Shaping.Json.Printer
import Shaping.Proofs.Text.Numerals
import Shaping.Proofs.Text.Spans

/-!
# Strings and numbers are read back

What is written for a character of a string is read as that character, whether it is escaped or not
(`Json.Lexeme.stringBody_escape`).  So strings are read back, character by character, up to their closing quote
(`Json.Lexeme.string_quoted`).

A number is read as far as there are digits, and as a whole number if nothing follows that numbers go on with.
A number of 64 bits is read back, since each digit is read while there is room for it
(`Json.Lexeme.number_toDigits`).

Both directions are stated with a `rest` behind what was written, since a value never stands alone in a
text.  For strings the rest may be anything: the closing quote tells where the string ends.  For numbers it
may not, since a digit behind a number would become a part of it, and so would a point or an exponent.
`AtEnd` is what the printer puts behind a value, a comma or a new line, and it is all that is asked for.

The reader of strings counts down from the length of the text.  A character takes one from the count and at
least one character from the text, so the count never ends before the text does
(`length_le_flatMap_escape`), and it appears nowhere else.
-/

set_option autoImplicit false

namespace Shaping.Json

namespace Lexeme

/-! ## Strings

A character may be written in four ways.  `stringBody_escape` is the only lemma that knows them, and it is
about one character in front of any others. -/

theorem hexDigit?_digitChar {d : Nat} (hd : d < 16) : hexDigit? d.digitChar = some d := by
  interval_cases d <;> rfl

/-- Four hexadecimal digits are read back. -/
theorem hexQuad_hexQuad {n : Nat} (hn : n < 65536) (rest : List Char) :
    hexQuad (Value.hexQuad n ++ rest) = .ok (n, rest) := by
  have hsize : ∀ m : Nat, (m % 16).digitChar.utf8Size = 1 := fun m => by
    have hd := Nat.mod_lt m (show 0 < 16 by decide)
    generalize m % 16 = d at hd
    interval_cases d <;> rfl
  have hdigit : ∀ m : Nat, hexDigit? (m % 16).digitChar = some (m % 16) := fun m =>
    hexDigit?_digitChar (Nat.mod_lt m (by decide))
  show hexQuad ((n / 4096 % 16).digitChar :: (n / 256 % 16).digitChar :: (n / 16 % 16).digitChar ::
    (n % 16).digitChar :: rest) = _
  rw [hexQuad, if_neg (by simp [Refusal.byteCount, hsize]), hdigit, hdigit, hdigit, hdigit]
  simp only [Except.ok.injEq, Prod.mk.injEq, and_true]
  omega

/-- A control character given by number is read back. -/
theorem escape_hexQuad {c : Char} (hc : c.toNat < 32) (rest : List Char) :
    escape ('u' :: (Value.hexQuad c.toNat ++ rest)) = .ok (c, rest) := by
  have htrailing : isTrailing c.toNat = false := by simp [isTrailing]; omega
  have hleading : isLeading c.toNat = false := by simp [isLeading]; omega
  rw [escape, if_pos rfl, numbered, hexQuad_hexQuad (by omega)]
  simp [bind, Except.bind, htrailing, hleading]

/-- **A character of a string is read back.** -/
theorem stringBody_escape (c : Char) (fuel : Nat) (cs : List Char) :
    stringBody (fuel + 1) (Value.escape c ++ cs)
      = (stringBody fuel cs).bind fun (more, rest) => .ok (c :: more, rest) := by
  rw [Value.escape]
  split_ifs with hquote hbackspace hfeed hline hreturn htab hcontrol
  · rcases hquote with rfl | rfl <;> rfl
  · subst hbackspace; rfl
  · subst hfeed; rfl
  · subst hline; rfl
  · subst hreturn; rfl
  · subst htab; rfl
  · rw [List.cons_append, List.cons_append, stringBody, if_neg (by decide), if_pos rfl,
      escape_hexQuad hcontrol]
    rfl
  · rw [not_or] at hquote
    rw [List.singleton_append, stringBody, if_neg hquote.1, if_neg hquote.2, if_neg hcontrol]
    rfl

/-- The characters of a string are read back up to the closing quote. -/
theorem stringBody_quoted {s : List Char} {fuel : Nat} (h : s.length < fuel) (rest : List Char) :
    stringBody fuel (s.flatMap Value.escape ++ '"' :: rest) = .ok (s, rest) := by
  obtain ⟨fuel, rfl⟩ : ∃ m, fuel = m + 1 := ⟨fuel - 1, by omega⟩
  induction s generalizing fuel with
  | nil => rfl
  | cons c s ih =>
    obtain ⟨fuel, rfl⟩ : ∃ m, fuel = m + 1 := ⟨fuel - 1, by rw [List.length_cons] at h; omega⟩
    rw [List.flatMap_cons, List.append_assoc, stringBody_escape,
      ih fuel (by rw [List.length_cons] at h; omega)]
    rfl

theorem length_le_flatMap_escape (s : List Char) : s.length ≤ (s.flatMap Value.escape).length := by
  have hpos : ∀ c, 1 ≤ (Value.escape c).length := fun c => by
    unfold Value.escape
    repeat' split
    all_goals simp
  induction s with
  | nil => exact Nat.le_refl 0
  | cons c s ih =>
    have hc := hpos c
    rw [List.flatMap_cons, List.length_append, List.length_cons]
    omega

/-- **A string is read back.** -/
theorem string_quoted (s : String) (rest : List Char) :
    string (s.toList.flatMap Value.escape ++ '"' :: rest) = .ok (s, rest) := by
  have hlength := length_le_flatMap_escape s.toList
  rw [string, stringBody_quoted (by rw [List.length_append]; omega)]
  simp [bind, Except.bind]

/-! ## Numbers

Digits are taken into a word for as long as another one fits.  A whole number only grows when a digit is put
behind it (`le_foldl_digits`), so if the last one fits then so did all before it. -/

/-- The text is at its end, or something comes next that stands behind values. -/
def AtEnd (cs : List Char) : Prop := ∀ c ∈ cs.head?, c = ',' ∨ c = '\n'

theorem spanDigits_digitChars {ds : List Nat} (hds : ∀ d ∈ ds, d < 10) {rest : List Char}
    (hrest : AtEnd rest) :
    spanDigits (ds.map Nat.digitChar ++ rest) = (ds.map Nat.digitChar, rest) := by
  have hdigits : ∀ c ∈ ds.map Nat.digitChar, Decimal.isDigit c = true := fun c hc => by
    obtain ⟨d, hd, rfl⟩ := List.mem_map.mp hc
    exact isDigit_digitChar (hds d hd)
  have hnone : ∀ c ∈ rest.head?, Decimal.isDigit c = false := fun c hc => by
    rcases hrest c hc with rfl | rfl <;> rfl
  exact Prod.ext_iff.mpr (Text.span_iff.mpr ⟨rfl, hdigits, hnone⟩)

theorem le_foldl_digits (n : Nat) (ds : List Nat) : n ≤ ds.foldl (fun m d => m * 10 + d) n := by
  induction ds generalizing n with
  | nil => exact Nat.le_refl n
  | cons d ds ih => exact Nat.le_trans (by omega) (ih (n * 10 + d))

/-- All digits of a word are significant. -/
theorem significant_digitChars {ds : List Nat} (hds : ∀ d ∈ ds, d < 10) {n : Nat}
    (h : ds.foldl (fun m d => m * 10 + d) n < UInt64.size) :
    significant n (ds.map Nat.digitChar) = (ds.foldl (fun m d => m * 10 + d) n, []) := by
  induction ds generalizing n with
  | nil => rfl
  | cons d ds ih =>
    rw [List.forall_mem_cons] at hds
    rw [List.foldl_cons] at h
    have hle := le_foldl_digits (n * 10 + d) ds
    rw [List.map_cons, significant, digitValue_digitChar hds.1, if_pos (by omega), ih hds.2 h,
      List.foldl_cons]

theorem afterWhole_atEnd (n : Nat) {rest : List Char} (hrest : AtEnd rest) :
    afterWhole false n 0 rest = .ok (.natural (.ofNat n), rest) := by
  cases rest with
  | nil => rfl
  | cons c rest => rcases hrest c rfl with rfl | rfl <;> rfl

/-- **A number of 64 bits is read back.** -/
theorem number_toDigits {n : Nat} (hn : n < UInt64.size) {rest : List Char} (hrest : AtEnd rest) :
    number (Nat.toDigits 10 n ++ rest) = .ok (.natural (.ofNat n), rest) := by
  obtain ⟨ds, hds⟩ := exists_numeral (b := 10) (by decide) n
  obtain ⟨d, ds, rfl⟩ := List.exists_cons_of_ne_nil hds.ne_nil
  have hspan := spanDigits_digitChars hds.lt hrest
  have hsignificant := significant_digitChars hds.lt (n := 0) (by rw [hds.value]; exact hn)
  have hd := hds.lt d List.mem_cons_self
  have hnonneg : d.digitChar ≠ '-' := Nat.digitChar_ne '-' rfl
  rw [List.map_cons, List.cons_append] at hspan
  rw [List.map_cons] at hsignificant
  rw [hds.text, List.map_cons, List.cons_append, number, unsigned.eq_def]
  · dsimp only
    by_cases hzero : d = 0
    · subst hzero
      cases hds.leading ds rfl
      cases show 0 = n from hds.value
      cases rest with
      | nil => rfl
      | cons c rest => rcases hrest c rfl with rfl | rfl <;> rfl
    · have hfirst : d.digitChar ≠ '0' := fun h => hzero (Nat.digitChar_eq_zero.mp h)
      rw [if_neg hfirst, if_pos (isDigit_digitChar hd), hspan]
      dsimp only
      rw [hsignificant, hds.value]
      exact afterWhole_atEnd n hrest
  · intro more h
    exact hnonneg (List.cons.inj h).1

end Lexeme

end Shaping.Json
