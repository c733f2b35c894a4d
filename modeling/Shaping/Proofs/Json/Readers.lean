import Shaping.Json.Reader
import Shaping.Proofs.Json.Lexemes
import Mathlib.Data.List.DropRight

/-!
# Values are read back

A reader reads a value back if it takes the printed value off the front of a text, in whatever depth of brackets
and with space in front of it, and leaves the rest alone (`Json.Reader.Reads`).  What comes next has to be what
comes next in a printed text: a comma, a new line, or nothing.

There is one lemma for each way to make a reader, and it asks for the readers that it is made of to read their
parts back.  For records the fields are compared with what was printed (`Json.Reader.Fills`): they are the same
fields in the same order, each is read into what the fields before it have made of the blank record, and no name
comes twice (`Json.Reader.reads_record`).

`Reads` is stated of all texts that become the printed value once space is passed over, and not of the
printed value alone.  Space is passed over in different places: arrays do it before they look for a bracket,
and what may be null before it looks for an `n`.  With space in the statement a reader may be used behind
either.  The depth is quantified for a similar reason.  It only decides how far lines are indented, and a
value that is read back in one depth but not in another one could not be a part of anything.

Arrays and records go the same way.  The text of the elements after the first one is read by induction
(`elements_printElements`, `fromObject_printFields`), and the first one is read by itself, as there is no
comma in front of it.  Both count down, and the length of what was printed is enough to count down from.

For records the induction is on `Fills`, which pairs the fields that are still to be read with the entries
that are still to come.  The fields that were read already are kept beside it, since a field is looked for
among all of them, and a name that came twice would be taken for the earlier one (`find?_of_nodup`).
-/

set_option autoImplicit false

namespace Shaping.Json

open Lexeme (skipSpace isSpace AtEnd)

/-! ## Printed values

All that readers look at before they decide is the first character, so this is what is said of printed
values. -/

namespace Value

/-- A printed value starts with a character that is not passed over and does not end an array, and only that of
null is an `n`. -/
theorem exists_print (v : Value) (depth : Nat) :
    ∃ c cs, v.print depth = c :: cs ∧ isSpace c = false ∧ c ≠ ']' ∧ (c = 'n' → v = .null) := by
  cases v with
  | null => exact ⟨'n', _, by rw [print], rfl, by decide, fun _ => rfl⟩
  | boolean b =>
    cases b with
    | true => exact ⟨'t', _, by rw [print], rfl, by decide, fun h => absurd h (by decide)⟩
    | false => exact ⟨'f', _, by rw [print], rfl, by decide, fun h => absurd h (by decide)⟩
  | natural n =>
    obtain ⟨ds, hds⟩ := exists_numeral (b := 10) (by decide) n
    obtain ⟨d, ds, rfl⟩ := List.exists_cons_of_ne_nil hds.ne_nil
    have hd := hds.lt d List.mem_cons_self
    refine ⟨d.digitChar, ds.map Nat.digitChar, by rw [print, hds.text, List.map_cons], ?_,
      Nat.digitChar_ne ']' rfl, fun h => absurd h (Nat.digitChar_ne 'n' rfl)⟩
    interval_cases d <;> rfl
  | string s => exact ⟨'"', _, by rw [print, quoted], rfl, by decide, fun h => absurd h (by decide)⟩
  | array vs =>
    refine ⟨'[', ?_⟩
    cases vs with
    | nil => exact ⟨_, by rw [print], rfl, by decide, fun h => absurd h (by decide)⟩
    | cons v vs => exact ⟨_, by rw [print], rfl, by decide, fun h => absurd h (by decide)⟩
  | object fs =>
    refine ⟨'\x7b', ?_⟩
    cases fs with
    | nil => exact ⟨_, by rw [print], rfl, by decide, fun h => absurd h (by decide)⟩
    | cons f fs => exact ⟨_, by rw [print], rfl, by decide, fun h => absurd h (by decide)⟩

/-- There is nothing to pass over in front of a printed value. -/
theorem skipSpace_print (v : Value) (depth : Nat) (rest : List Char) :
    skipSpace (v.print depth ++ rest) = v.print depth ++ rest := by
  obtain ⟨c, cs, hprint, hspace, -⟩ := v.exists_print depth
  rw [hprint, List.cons_append, skipSpace, List.dropWhile_cons_of_neg (by simp [hspace])]

end Value

theorem skipSpace_newLine (depth : Nat) (cs : List Char) :
    skipSpace (Value.newLine depth ++ cs) = skipSpace cs := by
  have hspaces : ∀ n, (List.replicate n ' ' ++ cs).dropWhile isSpace = cs.dropWhile isSpace := by
    intro n
    induction n with
    | zero => rfl
    | succ n ih => exact ih
  exact hspaces (2 * depth)

theorem skipSpace_skipSpace (cs : List Char) : skipSpace (skipSpace cs) = skipSpace cs :=
  List.dropWhile_idempotent _ _

namespace Reader

variable {α : Type} {r : Reader α} {v : Value} {a : α}

/-- **A reader reads a value back.** -/
def Reads (r : Reader α) (v : Value) (a : α) : Prop :=
  ∀ (cs : List Char) (depth : Nat) (rest : List Char),
    skipSpace cs = v.print depth ++ rest → AtEnd rest → r cs = .ok (a, rest)

/-! ## Simple values

Everything that is written as a string is read by `made`, so these readers share one lemma. -/

theorem reads_natural {bits : Nat} {w : UInt64} (hw : w.toNat < 2 ^ bits) (wanted : String) :
    (natural bits wanted).Reads (.natural w.toNat) w := by
  intro cs depth rest hcs hrest
  have hnumber := Lexeme.number_toDigits w.toNat_lt_size hrest
  obtain ⟨ds, hds⟩ := exists_numeral (b := 10) (by decide) w.toNat
  obtain ⟨d, ds, rfl⟩ := List.exists_cons_of_ne_nil hds.ne_nil
  rw [Value.print, hds.text, List.map_cons, List.cons_append] at hcs
  rw [hds.text, List.map_cons, List.cons_append] at hnumber
  have hbits : w.toNat >>> bits = 0 := by
    rw [Nat.shiftRight_eq_div_pow, Nat.div_eq_of_lt hw]
  rw [natural, hcs]
  dsimp only
  rw [if_pos (Or.inr (isDigit_digitChar (hds.lt d List.mem_cons_self))), hnumber]
  simp [bind, Except.bind, hbits]

theorem reads_word (w : UInt64) : word.Reads (.natural w.toNat) w := reads_natural w.toNat_lt _

theorem reads_size (w : UInt64) : size.Reads (.natural w.toNat) w := reads_natural w.toNat_lt _

theorem reads_shortWord (w : UInt32) : shortWord.Reads (.natural w.toNat) w := by
  intro cs depth rest hcs hrest
  have hword : w.toUInt64.toNat < 2 ^ 32 := w.toNat_lt
  have hread := reads_natural hword "u32" cs depth rest hcs hrest
  rw [shortWord, hread]
  simp [bind, Except.bind]

theorem reads_flag (b : Bool) : flag.Reads (.boolean b) b := by
  intro cs depth rest hcs hrest
  cases b with
  | true =>
    rw [Value.print] at hcs
    rw [flag, hcs]
    rfl
  | false =>
    rw [Value.print] at hcs
    rw [flag, hcs]
    rfl

theorem reads_made {wanted : String} {make : String → Except Mismatch α} {s : String}
    (h : make s = .ok a) : (made wanted make).Reads (.string s) a := by
  intro cs depth rest hcs hrest
  rw [Value.print, Value.quoted, List.cons_append, List.append_assoc, List.singleton_append] at hcs
  rw [made, hcs]
  show (Lexeme.string (s.toList.flatMap Value.escape ++ '"' :: rest)).bind _ = _
  rw [Lexeme.string_quoted]
  simp [Except.bind, h]

theorem reads_string (s : String) : string.Reads (.string s) s := reads_made rfl

theorem reads_parsed {wanted : String} {parse? : String → Option α} {s : String}
    (h : parse? s = some a) : (parsed wanted parse?).Reads (.string s) a :=
  reads_made (by rw [h])

theorem reads_null : (optional r).Reads .null none := by
  intro cs depth rest hcs hrest
  rw [Value.print] at hcs
  rw [optional, hcs]
  rfl

theorem Reads.optional (h : r.Reads v a) (hv : v ≠ .null) : (optional r).Reads v (some a) := by
  intro cs depth rest hcs hrest
  obtain ⟨c, more, hprint, -, -, hnull⟩ := v.exists_print depth
  have hread := h (skipSpace cs) depth rest (by rw [skipSpace_skipSpace, hcs]) hrest
  rw [Reader.optional]
  split
  · rename_i htext
    rw [hcs, hprint, List.cons_append, List.cons.injEq] at htext
    exact absurd (hnull htext.1) hv
  · rw [hread]
    rfl

/-- What may be missing is read back if it is, or if it is read back where it is not. -/
theorem reads_optional {write : α → Value} (h : ∀ a, r.Reads (write a) a) (hnull : ∀ a, write a ≠ .null)
    (a : Option α) :
    (Reader.optional r).Reads (match a with | some a => write a | none => .null) a := by
  cases a with
  | none => exact reads_null
  | some a => exact (h a).optional (hnull a)

theorem reads_variant {variants : List (String × α)} {name : String} (h : variants.lookup name = some a) :
    (variant variants).Reads (.string name) a := by
  intro cs depth rest hcs hrest
  have hread : (variantName variants).Reads (.string name) a := reads_made (by rw [h])
  have hread := hread (skipSpace cs) depth rest (by rw [skipSpace_skipSpace, hcs]) hrest
  rw [Value.print, Value.quoted, List.cons_append] at hcs
  rw [hcs] at hread
  rw [variant, hcs]
  exact hread

/-! ## Arrays

There are three places between two elements: behind the bracket, behind a comma and at the end.  `element?`
has a lemma for each. -/

theorem atEnd_newLine (depth : Nat) (cs : List Char) : AtEnd (Value.newLine depth ++ cs) := fun _ hc =>
  Or.inr (Option.some_inj.mp hc).symm

theorem atEnd_printElements (depth : Nat) (vs : List Value) {cs : List Char} (h : AtEnd cs) :
    AtEnd (Value.printElements depth vs ++ cs) := by
  cases vs with
  | nil =>
    rw [Value.printElements]
    exact h
  | cons v vs =>
    rw [Value.printElements]
    exact fun _ hc => Or.inl (Option.some_inj.mp hc).symm

theorem length_le_printElements (depth : Nat) (vs : List Value) :
    vs.length ≤ (Value.printElements depth vs).length := by
  induction vs with
  | nil => exact Nat.zero_le _
  | cons v vs ih =>
    rw [Value.printElements, List.length_cons, List.length_cons, List.length_append, List.length_append]
    omega

section

variable {cs more after : List Char} {depth : Nat}

theorem element?_first (h : skipSpace cs = v.print depth ++ after) :
    element? true cs = .ok (some (v.print depth ++ after)) := by
  obtain ⟨c, text, hprint, -, hbracket, -⟩ := v.exists_print depth
  rw [hprint, List.cons_append] at h ⊢
  rw [element?, h]
  dsimp only
  rw [if_neg hbracket, if_pos rfl]

theorem element?_next (hcs : skipSpace cs = ',' :: more) (h : skipSpace more = v.print depth ++ after) :
    element? false cs = .ok (some (v.print depth ++ after)) := by
  obtain ⟨c, text, hprint, -, hbracket, -⟩ := v.exists_print depth
  rw [hprint, List.cons_append] at h ⊢
  rw [element?, hcs]
  dsimp only
  rw [if_neg (by decide), if_neg Bool.false_ne_true, if_pos rfl, h]
  dsimp only
  rw [if_neg hbracket]

theorem element?_end (isFirst : Bool) (h : skipSpace cs = ']' :: after) :
    element? isFirst cs = .ok none ∧ endArray cs = .ok after := by
  rw [element?, endArray, h]
  exact ⟨rfl, rfl⟩

variable {isFirst : Bool} {fuel : Nat} {as : List α} {rest : List Char}

theorem elements_nil (h : skipSpace cs = ']' :: after) :
    elements r (fuel + 1) isFirst cs = .ok ([], after) := by
  obtain ⟨hnone, hend⟩ := element?_end isFirst h
  rw [elements, hnone]
  simp [bind, Except.bind, hend]

theorem elements_cons (helement : element? isFirst cs = .ok (some more)) (hread : r more = .ok (a, after))
    (hlater : elements r fuel false after = .ok (as, rest)) :
    elements r (fuel + 1) isFirst cs = .ok (a :: as, rest) := by
  rw [elements, helement]
  simp [bind, Except.bind, hread, hlater]

variable {write : α → Value}

/-- The elements after the first one are read back. -/
theorem elements_printElements (h : ∀ a, r.Reads (write a) a) (hfuel : as.length < fuel) :
    elements r fuel false (Value.printElements (depth + 1) (as.map write) ++
      (Value.newLine depth ++ ']' :: rest)) = .ok (as, rest) := by
  obtain ⟨fuel, rfl⟩ : ∃ m, fuel = m + 1 := ⟨fuel - 1, by omega⟩
  induction as generalizing fuel with
  | nil => exact elements_nil (skipSpace_newLine depth (']' :: rest))
  | cons a as ih =>
    obtain ⟨fuel, rfl⟩ : ∃ m, fuel = m + 1 := ⟨fuel - 1, by rw [List.length_cons] at hfuel; omega⟩
    rw [List.map_cons, Value.printElements, List.cons_append, List.append_assoc, List.append_assoc]
    have htext := (skipSpace_newLine (depth + 1) _).trans ((write a).skipSpace_print (depth + 1)
      (Value.printElements (depth + 1) (as.map write) ++ (Value.newLine depth ++ ']' :: rest)))
    exact elements_cons (element?_next rfl htext)
      (h a _ (depth + 1) _ ((write a).skipSpace_print _ _) (atEnd_printElements _ _ (atEnd_newLine _ _)))
      (ih fuel (by rw [List.length_cons] at hfuel; omega))

end

/-- **An array is read back** if its elements are. -/
theorem reads_list {write : α → Value} (h : ∀ a, r.Reads (write a) a) (as : List α) :
    (list r).Reads (.array (as.map write)) as := by
  intro cs depth rest hcs hrest
  cases as with
  | nil =>
    rw [List.map_nil, Value.print, List.cons_append] at hcs
    rw [list, hcs]
    rfl
  | cons a as =>
    rw [List.map_cons, Value.print] at hcs
    simp only [List.cons_append, List.append_assoc, List.nil_append] at hcs
    have hfirst := (skipSpace_newLine (depth + 1) _).trans ((write a).skipSpace_print (depth + 1)
      (Value.printElements (depth + 1) (as.map write) ++ (Value.newLine depth ++ ']' :: rest)))
    have hlength := length_le_printElements (depth + 1) (as.map write)
    rw [List.length_map] at hlength
    rw [list, hcs]
    exact elements_cons (element?_first hfirst)
      (h a _ (depth + 1) _ ((write a).skipSpace_print _ _) (atEnd_printElements _ _ (atEnd_newLine _ _)))
      (elements_printElements h (by simp only [List.length_append, List.length_cons]; omega))

/-! ## Records

Fields may be read in any order, and what is missing may have a default.  None of this is needed to read
back what was printed, so nothing is said about it here. -/

theorem atEnd_printFields (depth : Nat) (entries : List (String × Value)) {cs : List Char} (h : AtEnd cs) :
    AtEnd (Value.printFields depth entries ++ cs) := by
  cases entries with
  | nil =>
    rw [Value.printFields]
    exact h
  | cons entry entries =>
    rw [Value.printFields]
    exact fun _ hc => Or.inl (Option.some_inj.mp hc).symm

theorem length_le_printFields (depth : Nat) (entries : List (String × Value)) :
    entries.length ≤ (Value.printFields depth entries).length := by
  induction entries with
  | nil => exact Nat.zero_le _
  | cons entry entries ih =>
    rw [Value.printFields, List.length_cons, List.length_cons, List.length_append]
    omega

section

variable {cs more after : List Char} {k : String}

theorem key?_first (h : skipSpace cs = Value.quoted k ++ after) :
    key? true cs = .ok (some (k.toList.flatMap Value.escape ++ '"' :: after)) := by
  rw [Value.quoted, List.cons_append, List.append_assoc, List.singleton_append] at h
  rw [key?, h]
  rfl

theorem key?_next (hcs : skipSpace cs = ',' :: more) (h : skipSpace more = Value.quoted k ++ after) :
    key? false cs = .ok (some (k.toList.flatMap Value.escape ++ '"' :: after)) := by
  rw [Value.quoted, List.cons_append, List.append_assoc, List.singleton_append] at h
  rw [key?, hcs]
  dsimp only
  rw [if_neg (by decide), if_neg Bool.false_ne_true, if_pos rfl, h]
  rfl

theorem key?_end (isFirst : Bool) (h : skipSpace cs = '\x7d' :: after) :
    key? isFirst cs = .ok none ∧ endObject cs = .ok after := by
  rw [key?, endObject, h]
  exact ⟨rfl, rfl⟩

variable {ρ : Type} {fields : List (Field ρ)} {fuel depth : Nat} {isFirst : Bool} {seen : List String}
  {record next last : ρ} {rest : List Char}

/-- A record is complete if all of its fields were seen. -/
theorem fromObject_nil (hseen : ∀ f ∈ fields, f.name ∈ seen)
    (h : skipSpace cs = '\x7d' :: after) :
    fromObject fields (fuel + 1) isFirst seen record cs = .ok (record, after) := by
  obtain ⟨hnone, hend⟩ := key?_end isFirst h
  have hmissing : (fields.find? fun f => f.required && !seen.contains f.name) = none :=
    List.find?_eq_none.mpr fun f hf => by simp [hseen f hf]
  rw [fromObject, hnone]
  simp only [bind, Except.bind, hmissing, hend]

/-- A field is read if it is one of the record and was not seen. -/
theorem fromObject_cons {f : Field ρ} (hkey : key? isFirst cs =
      .ok (some (k.toList.flatMap Value.escape ++ '"' :: ':' :: ' ' :: (v.print depth ++ after))))
    (hfind : fields.find? (·.name == k) = some f) (hseen : k ∉ seen)
    (hread : (f.read record).Reads v next) (hafter : AtEnd after)
    (hlater : fromObject fields fuel false (k :: seen) next after = .ok (last, rest)) :
    fromObject fields (fuel + 1) isFirst seen record cs = .ok (last, rest) := by
  have hvalue := hread (' ' :: (v.print depth ++ after)) depth after (v.skipSpace_print depth after) hafter
  have hcolon : colon (':' :: ' ' :: (v.print depth ++ after)) = .ok (' ' :: (v.print depth ++ after)) := rfl
  have hunseen : seen.contains k = false := by simpa using hseen
  rw [fromObject, hkey]
  simp only [bind, Except.bind, Lexeme.string_quoted, hfind, hunseen, Bool.false_eq_true, if_false, hcolon,
    hvalue, hlater]

/-- What was printed fills the fields of a record, one after the other. -/
inductive Fills : List (Field ρ) → List (String × Value) → ρ → ρ → Prop
  | nil (record : ρ) : Fills [] [] record record
  | cons {f : Field ρ} {v : Value} {todo : List (Field ρ)} {entries : List (String × Value)}
      {record next last : ρ} (read : (f.read record).Reads v next) (later : Fills todo entries next last) :
      Fills (f :: todo) ((f.name, v) :: entries) record last

/-- A field that is read by `r` and stored by `set`. -/
theorem Fills.of {name : String} {required : Bool} {set : ρ → α → ρ} {todo : List (Field ρ)}
    {entries : List (String × Value)} (h : r.Reads v a) (later : Fills todo entries (set record a) last) :
    Fills (.of name required r set :: todo) ((name, v) :: entries) record last := by
  refine .cons (f := .of name required r set) (fun cs depth rest hcs hrest => ?_) later
  show (r cs).bind _ = _
  rw [h cs depth rest hcs hrest]
  rfl

/-- A field is found by its name. -/
theorem find?_of_nodup {f : Field ρ} (done : List (Field ρ)) {todo : List (Field ρ)}
    (h : ((done ++ f :: todo).map (·.name)).Nodup) :
    (done ++ f :: todo).find? (·.name == f.name) = some f ∧ f.name ∉ (done.map (·.name)).reverse := by
  rw [List.map_append, List.nodup_append] at h
  have hnot : f.name ∉ done.map (·.name) := fun hmem => h.2.2 _ hmem _ List.mem_cons_self rfl
  refine ⟨?_, fun hmem => hnot (List.mem_reverse.mp hmem)⟩
  have hdone : done.find? (·.name == f.name) = none := by
    rw [List.find?_eq_none]
    exact fun g hg heq => hnot (beq_iff_eq.mp heq ▸ List.mem_map_of_mem hg)
  rw [List.find?_append, hdone, Option.none_or, List.find?_cons_of_pos (by simp)]

/-- The fields after the first one are read back. -/
theorem fromObject_printFields {todo : List (Field ρ)} {entries : List (String × Value)}
    (h : Fills todo entries record last) (done : List (Field ρ))
    (hnodup : ((done ++ todo).map (·.name)).Nodup) (hfuel : entries.length < fuel) :
    fromObject (done ++ todo) fuel false (done.map (·.name)).reverse record
        (Value.printFields (depth + 1) entries ++ (Value.newLine depth ++ '\x7d' :: rest))
      = .ok (last, rest) := by
  obtain ⟨fuel, rfl⟩ : ∃ m, fuel = m + 1 := ⟨fuel - 1, by omega⟩
  induction h generalizing done fuel with
  | nil record =>
    refine fromObject_nil (fun f hf => ?_) (skipSpace_newLine depth ('\x7d' :: rest))
    rw [List.append_nil] at hf
    exact List.mem_reverse.mpr (List.mem_map_of_mem hf)
  | @cons f v todo entries record next last read later ih =>
    obtain ⟨fuel, rfl⟩ : ∃ m, fuel = m + 1 := ⟨fuel - 1, by rw [List.length_cons] at hfuel; omega⟩
    obtain ⟨hfind, hseen⟩ := find?_of_nodup done hnodup
    rw [List.append_cons] at hnodup
    have ih := ih (done ++ [f]) hnodup fuel (by rw [List.length_cons] at hfuel; omega)
    rw [← List.append_cons, List.map_append, List.reverse_append] at ih
    rw [Value.printFields]
    simp only [List.cons_append, List.append_assoc, List.nil_append]
    exact fromObject_cons (key?_next rfl (skipSpace_newLine (depth + 1) _)) hfind hseen read
      (atEnd_printFields _ _ (atEnd_newLine _ _)) ih

/-- **A record is read back** if its fields are. -/
theorem reads_record {title : String} {blank last : ρ} {entries : List (String × Value)}
    (h : Fills fields entries blank last) (hnodup : (fields.map (·.name)).Nodup) :
    (Reader.record title blank fields).Reads (.object entries) last := by
  intro cs depth rest hcs hrest
  cases h with
  | nil =>
    rw [Value.print] at hcs
    rw [Reader.record, hcs]
    rfl
  | @cons f v todo entries _ next _ read later =>
    obtain ⟨hfind, hseen⟩ := find?_of_nodup [] hnodup
    have hlength := length_le_printFields (depth + 1) entries
    rw [Value.print] at hcs
    simp only [List.cons_append, List.append_assoc, List.nil_append] at hcs
    rw [Reader.record, hcs]
    exact fromObject_cons (key?_first (skipSpace_newLine (depth + 1) _)) hfind hseen read
      (atEnd_printFields _ _ (atEnd_newLine _ _))
      (fromObject_printFields later [f] hnodup
        (by simp only [List.length_append, List.length_cons]; omega))

end

/-- **A whole text is read back.** -/
theorem whole_text (h : r.Reads v a) : whole r v.text = .ok a := by
  have hspace := v.skipSpace_print 0 []
  rw [List.append_nil] at hspace
  have hread := h (v.print 0) 0 [] (by rw [hspace, List.append_nil]) fun c hc => absurd hc (by simp)
  rw [whole, Value.text, String.toList_ofList, hread]
  rfl

end Reader

end Shaping.Json
