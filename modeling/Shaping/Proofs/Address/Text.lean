import Shaping.Address.Text
import Shaping.Proofs.Text.Numerals
import Mathlib.Data.List.TakeWhile

/-!
# The text of an address is read back

Every address is written in one form, and that form is read as the address it was written of
(`Address.v4OfText?_v4Text`, `Address.v6OfText?_v6Text`).

Numbers are read as far as there are digits, so a number that was written is read back if no digit of the
same base follows (`Address.Reader.octet?_toDigits`, `Address.Reader.group?_toDigits`).  Where a group is
read, the IPv4 form is tried first; it is not taken unless there is a point behind the first number
(`Address.Reader.v4?_group`).  So groups are read one after the other until they end, or until there are two
colons (`Address.Reader.groups_text`), and what two colons stand for are the zeros that were left out
(`Address.longestZeros_spec`).

## What makes it go through

* **What follows.**  A numeral has no end of its own.  So every lemma about reading one has a `rest` behind
  it, with a condition that no digit comes first.  It depends on the base: behind a group a letter from `a`
  to `f` would be read too.  The two that the printer leaves behind are named, a colon or the end
  (`AtColon`), and a gap or the end (`AtGap`), and each of them implies the condition.
* **The form that is tried first.**  A group such as `10` is also a number of the other family, so the
  reader cannot tell from its digits which one it has.  It reads the decimal digits of the group, which may
  be fewer than all, and looks for a point.  Behind them there is another digit of the group, a colon or
  nothing at all.
* **The gap.**  Which run of zeros the printer leaves out is of no importance to the reader, who only counts
  how many groups there are on both sides.  Of `longestZeros` it is therefore proved that there are zeros
  where it says, and not that the run is the longest one.
* **The range that is written in the other form.**  The IPv4 form is only ever printed behind `::ffff:`.
  The reader makes two groups of it, and puts them behind the group in front of them as if they had been
  written so.
-/

set_option autoImplicit false

namespace Shaping.Address

namespace Reader

/-! ## Digits -/

/-- The text does not go on with a digit. -/
def NoDigit (radix : Nat) (cs : List Char) : Prop := ∀ c ∈ cs.head?, digit? radix c = none

theorem noDigit_nil (radix : Nat) : NoDigit radix [] := fun _ hc => absurd hc (by simp)

theorem digit?_digitChar {radix d : Nat} (hd : d < 16) :
    digit? radix d.digitChar = if d < radix then some d else none := by
  have hvalue : digit? 16 d.digitChar = some d := by
    interval_cases d <;> rfl
  rw [digit?, Option.filter_eq_some_iff] at hvalue
  rw [digit?, hvalue.1, Option.filter_some]
  simp

/-- Digits are read until there are no more. -/
theorem digits_digitChars {radix : Nat} (hradix : radix ≤ 16) {ds : List Nat} (hds : ∀ d ∈ ds, d < radix)
    {rest : List Char} (hrest : NoDigit radix rest) :
    digits radix (ds.map Nat.digitChar ++ rest) = (ds, rest) := by
  induction ds with
  | nil =>
    cases rest with
    | nil => rfl
    | cons c rest => simp [digits, hrest c rfl]
  | cons d ds ih =>
    rw [List.forall_mem_cons] at hds
    rw [List.map_cons, List.cons_append, digits, digit?_digitChar (by omega), if_pos hds.1]
    simp [ih hds.2]

/-- The digits of a number that was written are its numeral. -/
theorem digits_toDigits {radix : Nat} (hone : 1 < radix) (hradix : radix ≤ 16) (n : Nat) {rest : List Char}
    (hrest : NoDigit radix rest) :
    ∃ ds, Numeral radix n ds ∧ digits radix (Nat.toDigits radix n ++ rest) = (ds, rest) := by
  obtain ⟨ds, hds⟩ := exists_numeral hone n
  exact ⟨ds, hds, by rw [hds.text, digits_digitChars hradix hds.lt hrest]⟩

/-- One of the four numbers is read back. -/
theorem octet?_toDigits {n : Nat} (hn : n < 256) {rest : List Char} (hrest : NoDigit 10 rest) :
    octet? (Nat.toDigits 10 n ++ rest) = some (n, rest) := by
  obtain ⟨ds, hds, hdigits⟩ := digits_toDigits (by decide) (by decide) n hrest
  have hlength : ds.length ≤ 3 := hds.length_le (by decide) (by decide) (by omega)
  have hvalue : valueOf 10 ds = n := hds.value
  rw [octet?, hdigits]
  split
  · rename_i heq
    exact absurd (congrArg Prod.fst heq) hds.ne_nil
  · rename_i heq
    cases hds.leading _ (congrArg Prod.fst heq)
  · rename_i heq
    cases heq
    rw [if_pos ⟨hlength, hvalue ▸ hn⟩, hvalue]

/-- A group is read back. -/
theorem group?_toDigits {n : Nat} (hn : n < 65536) {rest : List Char} (hrest : NoDigit 16 rest) :
    group? (Nat.toDigits 16 n ++ rest) = some (n, rest) := by
  obtain ⟨ds, hds, hdigits⟩ := digits_toDigits (by decide) (by decide) n hrest
  have hlength : ds.length ≤ 4 := hds.length_le (by decide) (by decide) (by omega)
  have hvalue : valueOf 16 ds = n := hds.value
  rw [group?, hdigits]
  split
  · rename_i heq
    exact absurd (congrArg Prod.fst heq) hds.ne_nil
  · rename_i heq
    cases heq
    rw [if_pos hlength, hvalue]

end Reader

/-! ## IPv4 addresses

The number is taken apart by shifts and put together again by multiplying, so once the four numbers are read
back it is left to arithmetic that they make the address. -/

theorem toList_v4Text (bits : BitVec 32) (rest : List Char) :
    (v4Text bits).toList ++ rest =
      Nat.toDigits 10 (bits.toNat / 16777216 % 256) ++ '.' ::
        (Nat.toDigits 10 (bits.toNat / 65536 % 256) ++ '.' ::
          (Nat.toDigits 10 (bits.toNat / 256 % 256) ++ '.' ::
            (Nat.toDigits 10 (bits.toNat % 256) ++ rest))) := by
  have hnumber : ∀ n : Nat, (toString (toString n)).toList = Nat.toDigits 10 n := fun n => by
    show n.repr.toList = _
    rw [Nat.repr_eq_ofList_toDigits, String.toList_ofList]
  have hpoint : (toString ".").toList = ['.'] := rfl
  simp only [v4Text, String.toList_append, hnumber, hpoint, Nat.shiftRight_eq_div_pow, List.append_assoc,
    List.cons_append, List.nil_append]
  simp

/-- **An IPv4 address is read back**, whatever follows it but a digit. -/
theorem Reader.v4?_v4Text (bits : BitVec 32) {rest : List Char} (hrest : NoDigit 10 rest) :
    v4? ((v4Text bits).toList ++ rest) = some (bits, rest) := by
  have hpoint : ∀ more, NoDigit 10 ('.' :: more) := fun more c hc => by
    cases hc
    rfl
  have hbits := bits.isLt
  rw [toList_v4Text, v4?, octet?_toDigits (by omega) (hpoint _)]
  simp only [bind, Option.bind_some, skip?, if_true]
  rw [octet?_toDigits (by omega) (hpoint _)]
  simp only [Option.bind_some, if_true]
  rw [octet?_toDigits (by omega) (hpoint _)]
  simp only [Option.bind_some, if_true]
  rw [octet?_toDigits (by omega) hrest]
  simp only [Option.bind_some, Option.some.injEq, Prod.mk.injEq, and_true]
  refine BitVec.eq_of_toNat_eq ?_
  rw [BitVec.toNat_ofNat]
  omega

/-- **The text of an IPv4 address is read as that address.** -/
theorem v4OfText?_v4Text (bits : BitVec 32) : v4OfText? (v4Text bits) = some bits := by
  have hread := Reader.v4?_v4Text bits (Reader.noDigit_nil 10)
  rw [List.append_nil] at hread
  rw [v4OfText?, hread, Reader.whole?]

/-! ## Groups of IPv6 addresses

Up to eight groups are read by a function that counts down, and it stops for one of two reasons: nothing is
left to count, or no group follows.  With `AtGap` behind the groups both are the same. -/

namespace Reader

/-- The text is at its end, or a colon comes next. -/
def AtColon (cs : List Char) : Prop := ∀ c ∈ cs.head?, c = ':'

/-- The text is at its end, or two colons come next. -/
def AtGap (cs : List Char) : Prop := cs = [] ∨ ∃ more, cs = ':' :: ':' :: more

theorem AtGap.atColon {cs : List Char} (h : AtGap cs) : AtColon cs := by
  intro c hc
  obtain rfl | ⟨more, rfl⟩ := h
  · cases hc
  · exact (Option.some_inj.mp hc).symm

theorem AtColon.noDigit {cs : List Char} (h : AtColon cs) : NoDigit 16 cs := fun c hc => by
  rw [h c hc]
  rfl

/-- What is left behind a number has no digit in front. -/
theorem octet?_eq_some {cs rest : List Char} {n : Nat} (h : octet? cs = some (n, rest)) :
    rest = (digits 10 cs).2 := by
  rw [octet?] at h
  split at h
  · cases h
  · cases h
  · rename_i hdigits
    rw [Option.ite_none_right_eq_some, Option.some_inj, Prod.mk.injEq] at h
    rw [hdigits]
    exact h.2.2.symm

/-- There is no point behind the number that a group starts with. -/
theorem skip?_digits {ds : List Nat} (hds : ∀ d ∈ ds, d < 16) {rest : List Char} (hrest : AtColon rest) :
    skip? '.' (digits 10 (ds.map Nat.digitChar ++ rest)).2 = none := by
  induction ds with
  | nil =>
    cases rest with
    | nil => rfl
    | cons c rest =>
      cases hrest c rfl
      rfl
  | cons d ds ih =>
    rw [List.forall_mem_cons] at hds
    rw [List.map_cons, List.cons_append, digits, digit?_digitChar hds.1]
    by_cases hd : d < 10
    · rw [if_pos hd]
      exact ih hds.2
    · rw [if_neg hd]
      exact if_neg (Nat.digitChar_ne '.' rfl)

/-- **A group is not taken for an IPv4 address.** -/
theorem v4?_group (g : Nat) {rest : List Char} (hrest : AtColon rest) :
    v4? (Nat.toDigits 16 g ++ rest) = none := by
  obtain ⟨ds, hds⟩ := exists_numeral (b := 16) (by decide) g
  rw [hds.text, v4?, Option.bind_eq_bind, Option.bind_eq_none_iff]
  rintro ⟨n, cs⟩ hoctet
  rw [octet?_eq_some hoctet]
  dsimp only
  rw [skip?_digits hds.lt hrest]
  rfl

/-- Groups with a colon in front of each. -/
def furtherText (gs : List Nat) : List Char := gs.flatMap fun g => ':' :: Nat.toDigits 16 g

theorem atColon_furtherText (gs : List Nat) {rest : List Char} (hrest : AtGap rest) :
    AtColon (furtherText gs ++ rest) := by
  cases gs with
  | nil => exact hrest.atColon
  | cons g gs => exact fun c hc => (Option.some_inj.mp hc).symm

/-- No group is read where there is none. -/
theorem groups_gap (first : Bool) (n : Nat) {rest : List Char} (hrest : AtGap rest) :
    groups first rest n = ([], false, rest) := by
  cases n with
  | zero => rfl
  | succ n => obtain rfl | ⟨more, rfl⟩ := hrest <;> cases first <;> cases n <;> rfl

/-- One group is read, and then the ones behind it. -/
theorem groups_group {first : Bool} {cs : List Char} {g : Nat} (hg : g < 65536) {after : List Char}
    (hcs : (if first then some cs else skip? ':' cs) = some (Nat.toDigits 16 g ++ after))
    (hafter : AtColon after) (n : Nat) :
    groups first cs (n + 1) =
      (g :: (groups false after n).1, (groups false after n).2.1, (groups false after n).2.2) := by
  have hquad : (if n = 0 then none else v4? (Nat.toDigits 16 g ++ after)) = none := by
    rw [v4?_group g hafter, ite_self]
  rw [groups, hcs]
  simp only [hquad, group?_toDigits hg hafter.noDigit]

/-- **Groups are read one after the other.** -/
theorem groups_furtherText {gs : List Nat} (hgs : ∀ g ∈ gs, g < 65536) {n : Nat} (hn : gs.length ≤ n)
    {rest : List Char} (hrest : AtGap rest) :
    groups false (furtherText gs ++ rest) n = (gs, false, rest) := by
  induction gs generalizing n with
  | nil => exact groups_gap false n hrest
  | cons g gs ih =>
    rw [List.forall_mem_cons] at hgs
    obtain ⟨n, rfl⟩ : ∃ m, n = m + 1 := ⟨n - 1, by rw [List.length_cons] at hn; omega⟩
    have hcs : (if false = true then some (furtherText (g :: gs) ++ rest)
        else skip? ':' (furtherText (g :: gs) ++ rest))
          = some (Nat.toDigits 16 g ++ (furtherText gs ++ rest)) := by
      simp [furtherText, skip?]
    rw [groups_group hgs.1 hcs (atColon_furtherText gs hrest),
      ih hgs.2 (Nat.le_of_succ_le_succ hn)]

end Reader

theorem toList_groupsText (g : Nat) (gs : List Nat) :
    (groupsText (g :: gs)).toList = Nat.toDigits 16 g ++ Reader.furtherText gs := by
  induction gs generalizing g with
  | nil => simp [groupsText, hexText, Reader.furtherText]
  | cons g' gs ih =>
    have ih := ih g'
    simp only [groupsText, String.toList_intercalate, List.map_cons] at ih ⊢
    rw [List.intercalate_cons_cons, ih]
    simp [hexText, Reader.furtherText]

/-- Groups that were written are read back. -/
theorem Reader.groups_text {gs : List Nat} (hgs : ∀ g ∈ gs, g < 65536) {n : Nat} (hn : gs.length ≤ n)
    {rest : List Char} (hrest : AtGap rest) :
    groups true ((groupsText gs).toList ++ rest) n = (gs, false, rest) := by
  cases gs with
  | nil => exact groups_gap true n hrest
  | cons g gs =>
    rw [List.forall_mem_cons] at hgs
    obtain ⟨n, rfl⟩ : ∃ m, n = m + 1 := ⟨n - 1, by rw [List.length_cons] at hn; omega⟩
    rw [toList_groupsText, List.append_assoc, groups_group hgs.1 rfl (atColon_furtherText gs hrest),
      groups_furtherText hgs.2 (Nat.le_of_succ_le_succ hn) hrest]

/-! ## IPv6 addresses

There are three forms, and one lemma reads each of them back.  The choice between them is made only once, in
the last theorem. -/

/-- Where the longest run of zeros is, there are zeros. -/
theorem longestZeros_spec (index : Nat) (gs : List Nat) :
    ∃ before behind, gs = before ++ List.replicate (longestZeros index gs).2 0 ++ behind ∧
      (longestZeros index gs).1 = index + before.length := by
  induction gs generalizing index with
  | nil => exact ⟨[], [], rfl, rfl⟩
  | cons g gs ih =>
    rw [longestZeros]
    split
    · have hzeros : (g :: gs).takeWhile (· == 0)
          = List.replicate ((g :: gs).takeWhile (· == 0)).length 0 :=
        List.eq_replicate_of_mem fun z hz => beq_iff_eq.mp (List.mem_takeWhile_imp (p := (· == 0)) hz)
      refine ⟨[], (g :: gs).dropWhile (· == 0), ?_, rfl⟩
      rw [List.nil_append, ← hzeros, List.takeWhile_append_dropWhile]
    · obtain ⟨before, behind, hgs, hstart⟩ := ih (index + 1)
      refine ⟨g :: before, behind, congrArg (g :: ·) hgs, ?_⟩
      rw [hstart, List.length_cons]
      omega

theorem length_groupsOf (bits : BitVec 128) : (groupsOf bits).length = 8 := rfl

theorem groupsOf_lt (bits : BitVec 128) : ∀ g ∈ groupsOf bits, g < 65536 := by
  intro g hg
  obtain ⟨place, -, rfl⟩ := List.mem_map.mp hg
  exact Nat.mod_lt _ (by decide)

theorem ofGroups_groupsOf (bits : BitVec 128) : Reader.ofGroups (groupsOf bits) = bits := by
  have hbits := bits.isLt
  refine BitVec.eq_of_toNat_eq ?_
  simp only [Reader.ofGroups, BitVec.toNat_ofNat, groupsOf, List.map_cons, List.map_nil, Reader.valueOf,
    List.foldl_cons, List.foldl_nil, Nat.shiftRight_eq_div_pow]
  omega

/-- **Groups around a gap are read back**, with zeros in the gap. -/
theorem Reader.v6?_gap {before behind : List Nat} (hbefore : ∀ g ∈ before, g < 65536)
    (hbehind : ∀ g ∈ behind, g < 65536) (hlength : before.length + behind.length < 8) :
    v6? ((groupsText before).toList ++ ':' :: ':' :: (groupsText behind).toList) =
      some (ofGroups (before ++ List.replicate (8 - before.length - behind.length) 0 ++ behind), []) := by
  have hgap : AtGap (':' :: ':' :: (groupsText behind).toList) := Or.inr ⟨_, rfl⟩
  have hfront := groups_text hbefore (n := 8) (by omega) hgap
  have hback := groups_text hbehind (n := 7 - before.length) (by omega) (Or.inl rfl)
  rw [List.append_nil] at hback
  rw [v6?, hfront]
  dsimp only
  rw [if_neg (by omega), if_neg Bool.false_ne_true]
  simp only [skip?, if_true, bind, Option.bind_some, hback]

/-- **Eight groups are read back.** -/
theorem Reader.v6?_groupsText {gs : List Nat} (hgs : ∀ g ∈ gs, g < 65536) (hlength : gs.length = 8) :
    v6? (groupsText gs).toList = some (ofGroups gs, []) := by
  have hread := groups_text hgs (n := 8) (by omega) (Or.inl rfl)
  rw [List.append_nil] at hread
  rw [v6?, hread]
  dsimp only
  rw [if_pos hlength]

/-- **The IPv4 form is read back** as an address of the mapped range. -/
theorem Reader.v6?_mapped (quad : BitVec 32) :
    v6? ("::ffff:" ++ v4Text quad).toList = some (AddressKey.ofV4 quad, []) := by
  have hquad := v4?_v4Text quad (noDigit_nil 10)
  rw [List.append_nil] at hquad
  have htext : ("::ffff:" ++ v4Text quad).toList
      = ':' :: ':' :: (Nat.toDigits 16 65535 ++ ':' :: (v4Text quad).toList) := by
    rw [String.toList_append]
    rfl
  have hcolon : AtColon (':' :: (v4Text quad).toList) := fun c hc => (Option.some_inj.mp hc).symm
  have hend : groups false (':' :: (v4Text quad).toList) 6
      = ([quad.toNat / 65536, quad.toNat % 65536], true, []) := by
    rw [groups]
    simp [skip?, hquad]
  have hback : groups true (Nat.toDigits 16 65535 ++ ':' :: (v4Text quad).toList) 7
      = ([65535, quad.toNat / 65536, quad.toNat % 65536], true, []) := by
    rw [groups_group (by decide) rfl hcolon, hend]
  have hvalue : ofGroups [0, 0, 0, 0, 0, 65535, quad.toNat / 65536, quad.toNat % 65536]
      = AddressKey.ofV4 quad := by
    have hlt := quad.isLt
    refine BitVec.eq_of_toNat_eq ?_
    rw [AddressKey.toNat_ofV4]
    simp only [ofGroups, BitVec.toNat_ofNat, valueOf, List.foldl_cons, List.foldl_nil]
    omega
  rw [htext, v6?, groups_gap true 8 (Or.inr ⟨_, rfl⟩)]
  simp [skip?, hback, hvalue, bind]

/-- **The text of an IPv6 address is read as that address**: what was left out for two colons are its zeros. -/
theorem v6OfText?_v6Text (bits : BitVec 128) : v6OfText? (v6Text bits) = some bits := by
  rw [v6OfText?, v6Text]
  cases hmapped : AddressKey.v4? bits with
  | some quad =>
    dsimp only
    rw [Reader.v6?_mapped, AddressKey.ofV4_of_v4? hmapped]
    rfl
  | none =>
    obtain ⟨before, behind, hgs, hstart⟩ := longestZeros_spec 0 (groupsOf bits)
    have hlength := length_groupsOf bits
    have hlt := groupsOf_lt bits
    have hread := ofGroups_groupsOf bits
    dsimp only
    generalize longestZeros 0 (groupsOf bits) = run at *
    split
    · rename_i hrun
      obtain ⟨start, run⟩ := run
      dsimp only at hgs hstart hrun ⊢
      rw [Nat.zero_add] at hstart
      subst hstart
      rw [hgs] at hlength hlt hread ⊢
      simp only [List.forall_mem_append] at hlt
      simp only [List.length_append, List.length_replicate] at hlength
      have htext : (groupsText ((before ++ List.replicate run 0 ++ behind).take before.length) ++ "::" ++
          groupsText ((before ++ List.replicate run 0 ++ behind).drop (before.length + run))).toList
            = (groupsText before).toList ++ ':' :: ':' :: (groupsText behind).toList := by
        simp
      rw [htext, Reader.v6?_gap hlt.1.1 hlt.2 (by omega),
        show 8 - before.length - behind.length = run by omega, hread]
      rfl
    · rw [Reader.v6?_groupsText hlt hlength, hread]
      rfl

example : v6Text 0x20010DB8000000000000000000000001#128 = "2001:db8::1" := by decide

end Shaping.Address
