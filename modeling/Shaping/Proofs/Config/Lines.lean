import Shaping.Config.Legacy
import Shaping.Proofs.Text.Numerals
import Shaping.Proofs.Text.Spans
import Mathlib.Data.List.Basic
import Mathlib.Data.List.Induction

/-!
# The grammar of the older file format

The older format is read character by character: a line is trimmed, cut in two, trimmed again, and the
digits at the front of what is left are taken off.  Here the same is said without a reader.  `Assigns` tells
from how a line is composed which key it names and which rate it gives that key, and `LastAssigned` singles
out the last of several lines.

`assigns_iff` connects the two.  It rests on one fact about texts (`Text.span_iff`): a text falls into a
front of characters with a property and a rest that starts with another character in one way only.
Trimming, the cut at a separator and the digits in front of a value are all such spans.

A part of a plan depends on a file only through the rates that the lines give to it, in their order
(`plans_eq_of_rates`).  Hence lines with different keys may change places, and lines that give nothing to
any part may come and go.

## From the reader to the grammar and back

The predicates say how a text is composed, and for each of them there is an equation with the function that
takes it apart: `trims_iff`, `divides_iff` and `leadingWord?_eq_some`.  Each is an equivalence.  To know
that a composed text is read as its parts would have been enough to see what lines do; but to see that a
line does *nothing* one has to know that it is composed in no other way, and this is where the uniqueness of
spans comes in.

What lines do to a plan is first said of one line and one part of the plan (`get_apply`), and then of a list
of lines by induction.  The parts are independent, so the fourteen keys of the format need no induction of
their own: every statement is about a direction and a `Target`, and the table of keys is looked at in
`lookup_targets` alone.

## Separators

A blank may always give way to an equals sign, in a line that has none.  The opposite is not quite true,
since the *first* blank on a line divides it: an equals sign may give way to a blank only if the key is a
single word, and only if it was the last equals sign on the line.
-/

set_option autoImplicit false

namespace Shaping.Legacy

open Text
open Decimal (isDigit valueOf)

/-! ## Texts and their parts -/

/-- `t` is what stands between the blanks at both ends of `s`. -/
def Trims (s t : List Char) : Prop :=
  ∃ front back, s = front ++ t ++ back ∧ (∀ c ∈ front, isBlank c) ∧ (∀ c ∈ back, isBlank c) ∧
    (∀ c ∈ t.head?, isBlank c = false) ∧ ∀ c ∈ t.getLast?, isBlank c = false

/-- The first equals sign in `s`, or else the first blank, stands between `key` and `value`. -/
def Divides (s key value : List Char) : Prop :=
  (s = key ++ '=' :: value ∧ '=' ∉ key) ∨
    ('=' ∉ s ∧ ∃ c, isBlank c ∧ s = key ++ c :: value ∧ ∀ x ∈ key, isBlank x = false)

/-- The digits at the front of `value`, of which there is at least one, write `rate`. -/
def Counts (value : List Char) (rate : UInt64) : Prop :=
  ∃ digits rest, value = digits ++ rest ∧ digits ≠ [] ∧ (∀ c ∈ digits, isDigit c) ∧
    (∀ c ∈ rest.head?, isDigit c = false) ∧ valueOf digits = rate.toNat

/-- The line gives a rate to a key. -/
def Assigns (line : List Char) (key : String) (rate : UInt64) : Prop :=
  ∃ text k v value, Trims line text ∧ text ≠ [] ∧ text.head? ≠ some '#' ∧ Divides text k v ∧
    Trims k key.toList ∧ Trims v value ∧ Counts value rate

/-- `rate` is what the last line that gives a rate to the key gives it, and zero if there is none. -/
def LastAssigned (lines : List (List Char)) (key : String) (rate : UInt64) : Prop :=
  (∃ before line after, lines = before ++ line :: after ∧ Assigns line key rate ∧
      ∀ l ∈ after, ∀ r, ¬ Assigns l key r) ∨
    ((∀ l ∈ lines, ∀ r, ¬ Assigns l key r) ∧ rate = 0)

/-- The lines of a text. -/
def textLines (text : String) : List (List Char) := text.toList.splitOn '\n'

/-- How the keys tell the directions apart: what is sent and what is received. -/
def way : Direction → String
  | .egress => "tx"
  | .ingress => "rx"

/-- How the keys call the tiers. -/
def tierKey : Tier → String
  | .l0 => "online"
  | .l1 => "offline_l1"
  | .l2 => "offline_l2"

/-- The key of a part of a plan. -/
def keyFor (d : Direction) : Target → String
  | .guaranteed => "hw_" ++ way d ++ "_bps_max"
  | .least t => tierKey t ++ "_" ++ way d ++ "_bps_min"
  | .most t => tierKey t ++ "_" ++ way d ++ "_bps_max"

/-- One part of a plan. -/
def Target.get (target : Target) (plan : BandwidthPlan) : UInt64 :=
  match target with
  | .guaranteed => plan.guaranteed
  | .least t => (plan.tiers.get t).least
  | .most t => (plan.tiers.get t).most

/-! ## Trimming and cutting

The functions of the reader are spans, each with a property of its own. -/

/-- **What stands between the blanks is the trimmed text.** -/
theorem trims_iff {s t : List Char} : Trims s t ↔ trim s = t := by
  constructor
  · rintro ⟨front, back, rfl, hfront, hback, hhead, hlast⟩
    exact trim_eq hfront hback hhead hlast
  · rintro rfl
    obtain ⟨hs, hblank, hrest⟩ := span_spec isBlank s
    obtain ⟨t, back, ht, hback, hlast⟩ := exists_trimBack (trimFront s)
    have htrim : trim s = t := by rw [trim, ht, trimBack_eq hback hlast]
    refine ⟨s.takeWhile isBlank, back, ?_, hblank, hback, fun c hc => ?_, by rwa [htrim]⟩
    · rw [htrim, List.append_assoc, ← ht]; exact hs
    · refine hrest c ?_
      rw [htrim] at hc
      change c ∈ (trimFront s).head?
      rw [ht, List.head?_append, Option.mem_def.mp hc]
      rfl

/-- The place where a text is cut. -/
theorem splitAt?_eq_some {p : Char → Bool} {cs key value : List Char} :
    splitAt? p cs = some (key, value) ↔ ∃ c, p c ∧ cs = key ++ c :: value ∧ ∀ x ∈ key, p x = false := by
  have hspan := @span_iff (!p ·) cs key
  constructor
  · intro h
    unfold splitAt? at h
    split at h
    · cases h
    · rename_i c rest hdrop
      cases h
      obtain ⟨hcs, hkey, hc⟩ := hspan.mp ⟨rfl, hdrop⟩
      exact ⟨c, by simpa using hc c rfl, hcs, by simpa using hkey⟩
  · rintro ⟨c, hc, hcs, hkey⟩
    obtain ⟨htake, hdrop⟩ := hspan.mpr ⟨hcs, by simpa using hkey, by simpa using hc⟩
    rw [splitAt?, hdrop, htake]

/-- A text without the character is not cut. -/
theorem splitAt?_eq_none {p : Char → Bool} {cs : List Char} :
    splitAt? p cs = none ↔ ∀ c ∈ cs, p c = false := by
  have hall : cs.dropWhile (!p ·) = [] ↔ ∀ c ∈ cs, p c = false := by simp
  rw [← hall]
  cases h : cs.dropWhile (!p ·) <;> simp [splitAt?, h]

/-- **The key and the value are cut apart at the first equals sign, or else at the first blank.** -/
theorem divides_iff {cs k v : List Char} :
    Divides cs k v ↔ (splitAt? (· == '=') cs).or (splitAt? isBlank cs) = some (k, v) := by
  have hequals : ∀ key : List Char, '=' ∉ key ↔ ∀ x ∈ key, (x == '=') = false := by
    intro key
    simp [← List.forall_mem_ne']
  rw [Option.or_eq_some_iff, splitAt?_eq_some, splitAt?_eq_none, splitAt?_eq_some, Divides, hequals cs]
  simp [hequals]

/-- A text of digits writes a word if there is a digit and the number is not too large. -/
theorem wordOfText?_digits {ds : List Char} (hds : ∀ c ∈ ds, isDigit c) {rate : UInt64} :
    Decimal.wordOfText? ds = some rate ↔ ds ≠ [] ∧ valueOf ds = rate.toNat := by
  cases ds with
  | nil => simp [Decimal.wordOfText?, Decimal.ofText?, Decimal.ofDigits?]
  | cons d rest =>
    have htext := ofText?_cons (hds d List.mem_cons_self) 64 rest
    have hnil : d :: rest ≠ [] := List.cons_ne_nil d rest
    generalize d :: rest = ds at *
    have hall : ds.all isDigit = true := List.all_eq_true.mpr hds
    have hdigits : Decimal.ofDigits? ds = some (valueOf ds) := by simp [Decimal.ofDigits?, hnil, hall]
    have hfits : (valueOf ds >>> 64 == 0) = true ↔ valueOf ds < 2 ^ 64 := by
      rw [beq_iff_eq, Nat.shiftRight_eq_div_pow, Nat.div_eq_zero_iff]
      simp
    simp only [Decimal.wordOfText?, htext, hdigits, Option.map_eq_some_iff, Option.filter_eq_some_iff,
      Option.some.injEq]
    constructor
    · rintro ⟨n, ⟨rfl, hn⟩, rfl⟩
      exact ⟨hnil, (UInt64.toNat_ofNat_of_lt (hfits.mp hn)).symm⟩
    · rintro ⟨-, hvalue⟩
      refine ⟨_, ⟨rfl, hfits.mpr ?_⟩, by rw [hvalue, UInt64.ofNat_toNat]⟩
      rw [hvalue]
      exact rate.toNat_lt

/-- **A value counts as far as its digits go.** -/
theorem leadingWord?_eq_some {value : List Char} {rate : UInt64} :
    leadingWord? value = some rate ↔ Counts value rate := by
  rw [leadingWord?, wordOfText?_digits fun c hc => List.mem_takeWhile_imp hc]
  constructor
  · rintro ⟨hne, hvalue⟩
    obtain ⟨hspan, hdigits, hrest⟩ := span_spec isDigit value
    exact ⟨_, _, hspan, hne, hdigits, hrest, hvalue⟩
  · rintro ⟨digits, rest, hspan, hne, hdigits, hrest, hvalue⟩
    rw [(span_iff.mpr ⟨hspan, hdigits, hrest⟩).1]
    exact ⟨hne, hvalue⟩

/-! ## Keys and lines

A line is read in one go, with four ways to be nothing.  `of_eq_setting` collects what has to be so for none
of them to be taken. -/

/-- Every part of a plan has its own row in the table of keys. -/
theorem lookup_targets {key : String} {d : Direction} {target : Target} :
    targets.lookup key = some (d, target) ↔ key = keyFor d target := by
  constructor
  · intro h
    obtain ⟨before, after, htable, -⟩ := List.lookup_eq_some_iff.mp h
    have hmem : (key, d, target) ∈ targets := by rw [htable]; simp
    simp only [targets, List.mem_cons, Prod.mk.injEq, List.not_mem_nil, or_false] at hmem
    rcases hmem with h | h | h | h | h | h | h | h | h | h | h | h | h | h <;>
      (obtain ⟨rfl, rfl, rfl⟩ := h; decide)
  · rintro rfl
    cases d <;> cases target with
    | guaranteed => decide
    | least t => cases t <;> decide
    | most t => cases t <;> decide

/-- What it takes for a line to set a part of a plan. -/
theorem of_eq_setting {line : List Char} {d : Direction} {target : Target} {rate : UInt64} :
    Line.of line = .setting d target rate ↔ trim line ≠ [] ∧ (trim line).head? ≠ some '#' ∧
      ∃ key value, keyAndValue? (trim line) = some (key, value) ∧
        targets.lookup (String.ofList key) = some (d, target) ∧ leadingWord? value = some rate := by
  simp only [Line.of, List.isEmpty_iff]
  by_cases hcomment : trim line = [] ∨ (trim line).head? = some '#'
  · rw [if_pos hcomment]
    simp only [reduceCtorEq, false_iff]
    exact fun h => hcomment.elim h.1 h.2.1
  · rw [if_neg hcomment]
    obtain ⟨hnil, hmark⟩ := not_or.mp hcomment
    cases hpair : keyAndValue? (trim line) with
    | none => simp
    | some pair =>
      obtain ⟨key, value⟩ := pair
      cases hword : leadingWord? value <;> cases hrow : targets.lookup (String.ofList key) <;>
        simp [hnil, hmark, hword, hrow, Prod.ext_iff, and_assoc]

/-- **A line sets a part of a plan exactly if it assigns the key of that part.** -/
theorem assigns_iff {line : List Char} {d : Direction} {target : Target} {rate : UInt64} :
    Assigns line (keyFor d target) rate ↔ Line.of line = .setting d target rate := by
  have hpair : ∀ key value, keyAndValue? (trim line) = some (key, value) ↔
      ∃ k v, Divides (trim line) k v ∧ Trims k key ∧ Trims v value := by
    simp [keyAndValue?, Option.map_eq_some_iff, Prod.exists, trims_iff, divides_iff]
  simp only [of_eq_setting, Assigns, hpair, lookup_targets, leadingWord?_eq_some]
  constructor
  · rintro ⟨text, k, v, value, htext, hnil, hmark, hdiv, hkey, hvalue, hrate⟩
    obtain rfl := trims_iff.mp htext
    exact ⟨hnil, hmark, _, value, ⟨k, v, hdiv, hkey, hvalue⟩, String.ofList_toList, hrate⟩
  · rintro ⟨hnil, hmark, key, value, ⟨k, v, hdiv, hkey, hvalue⟩, hname, hrate⟩
    refine ⟨_, k, v, value, trims_iff.mpr rfl, hnil, hmark, hdiv, ?_, hvalue, hrate⟩
    rwa [← hname, String.toList_ofList]

/-- A line assigns one key at most, and one rate to it. -/
theorem Assigns.unique {line : List Char} {d d' : Direction} {target target' : Target} {rate rate' : UInt64}
    (h : Assigns line (keyFor d target) rate) (h' : Assigns line (keyFor d' target') rate') :
    d = d' ∧ target = target' ∧ rate = rate' := by
  have hsame := (assigns_iff.mp h).symm.trans (assigns_iff.mp h')
  simpa using hsame

/-- What a line gives to a part of a plan. -/
def rateFor (d : Direction) (target : Target) (line : List Char) : Option UInt64 :=
  match Line.of line with
  | .setting d' target' rate => if d' = d ∧ target' = target then some rate else none
  | _ => none

theorem rateFor_eq_some {d : Direction} {target : Target} {line : List Char} {rate : UInt64} :
    rateFor d target line = some rate ↔ Assigns line (keyFor d target) rate := by
  rw [assigns_iff, rateFor]
  cases Line.of line <;> simp [and_assoc]

theorem rateFor_eq_none {d : Direction} {target : Target} {line : List Char} :
    rateFor d target line = none ↔ ∀ rate, ¬ Assigns line (keyFor d target) rate := by
  simp only [← rateFor_eq_some, Option.eq_none_iff_forall_ne_some]

/-! ## Whole files

The plans are a fold over the lines, and later lines overwrite what earlier ones gave.  So a part of a plan
is the last rate in a list of rates, and zero, which it has at the start, if the list is empty. -/

/-- The lines of a text are what stands between its line feeds. -/
theorem splitLines_eq (cs : List Char) : splitLines cs = cs.splitOn '\n' := by
  induction cs with
  | nil => rfl
  | cons c cs ih =>
    have hcons : (c :: cs).splitOn '\n' =
        if c = '\n' then [] :: cs.splitOn '\n' else (cs.splitOn '\n').modifyHead (List.cons c) := by
      simpa [List.splitOn] using List.splitOnP_cons_eq_if_modifyHead (p := (· == '\n')) c cs
    rw [splitLines, hcons, ih]
    split
    · rfl
    · cases h : cs.splitOn '\n' with
      | nil => exact absurd h (List.splitOnP_ne_nil _ _)
      | cons line lines => rfl

theorem Target.get_set_self (target : Target) (rate : UInt64) (plan : BandwidthPlan) :
    target.get (target.set rate plan) = rate := by
  cases target <;> simp [get, set, PerTier.get_modify_self]

theorem Target.get_set_of_ne {target target' : Target} (h : target ≠ target') (rate : UInt64)
    (plan : BandwidthPlan) : target.get (target'.set rate plan) = target.get plan := by
  have htier : ∀ (part : Bounds → UInt64) {t t' : Tier} {f : Bounds → Bounds},
      (∀ b, part (f b) = part b) ∨ t ≠ t' →
        part ((plan.tiers.modify t' f).get t) = part (plan.tiers.get t) := by
    rintro part t t' f (hpart | hne)
    · by_cases ht : t = t'
      · rw [ht, PerTier.get_modify_self, hpart]
      · rw [PerTier.get_modify_of_ne _ ht]
    · rw [PerTier.get_modify_of_ne _ hne]
  cases target with
  | guaranteed => cases target' <;> first | rfl | exact absurd rfl h
  | least t =>
    cases target' with
    | guaranteed => rfl
    | least t' => exact htier Bounds.least (.inr fun ht => h (congrArg _ ht))
    | most t' => exact htier Bounds.least (.inl fun _ => rfl)
  | most t =>
    cases target' with
    | guaranteed => rfl
    | least t' => exact htier Bounds.most (.inl fun _ => rfl)
    | most t' => exact htier Bounds.most (.inr fun ht => h (congrArg _ ht))

/-- A line changes the part of a plan that it is about, and nothing else. -/
theorem get_apply (plans : PerDirection BandwidthPlan) (line : List Char) (d : Direction)
    (target : Target) :
    target.get ((Line.apply plans (Line.of line)).get d) =
      (rateFor d target line).getD (target.get (plans.get d)) := by
  cases hline : Line.of line with
  | setting d' target' rate =>
    rw [Line.apply, rateFor, hline]
    by_cases hd : d = d'
    · subst hd
      rw [PerDirection.get_modify_self]
      by_cases htarget : target = target'
      · simp [htarget, Target.get_set_self]
      · simp [Ne.symm htarget, Target.get_set_of_ne htarget]
    · simp [PerDirection.get_modify_of_ne _ hd, Ne.symm hd]
  | _ => simp [rateFor, hline, Line.apply]

/-- Nothing in a file is about bursts. -/
theorem burstable_apply (plans : PerDirection BandwidthPlan) (line : Line) (d : Direction) :
    ((Line.apply plans line).get d).burstable = (plans.get d).burstable := by
  cases line with
  | setting d' target' rate =>
    by_cases hd : d = d'
    · subst hd
      rw [Line.apply, PerDirection.get_modify_self]
      cases target' <;> rfl
    · rw [Line.apply, PerDirection.get_modify_of_ne _ hd]
  | _ => rfl

/-- **A part of a plan is what the last line that is about it gives.** -/
theorem get_plans (text : String) (d : Direction) (target : Target) :
    target.get ((plans text).get d) = ((textLines text).filterMap (rateFor d target)).getLastD 0 := by
  have gen : ∀ (ls : List (List Char)) (p : PerDirection BandwidthPlan),
      target.get (((ls.map Line.of).foldl Line.apply p).get d) =
        (ls.filterMap (rateFor d target)).getLastD (target.get (p.get d)) := by
    intro ls
    induction ls with
    | nil => intro p; rfl
    | cons line ls ih =>
      intro p
      rw [List.map_cons, List.foldl_cons, ih, get_apply, List.filterMap_cons]
      cases rateFor d target line with
      | none => rfl
      | some rate => rw [List.getLastD_cons]; rfl
  have hunset : target.get ((PerDirection.const BandwidthPlan.unset).get d) = 0 := by
    cases d <;> cases target with
    | guaranteed => rfl
    | least t => cases t <;> rfl
    | most t => cases t <;> rfl
  rw [plans, lines, splitLines_eq, gen, hunset]
  rfl

theorem burstable_plans (text : String) (d : Direction) : ((plans text).get d).burstable = 0 := by
  rw [plans]
  generalize lines text = ls
  induction ls using List.reverseRecOn with
  | nil => cases d <;> rfl
  | append_singleton ls line ih => rw [List.foldl_append, List.foldl_cons, List.foldl_nil, burstable_apply, ih]

/-- Two plans with the same parts are the same. -/
theorem plan_ext {p q : BandwidthPlan} (hburst : p.burstable = q.burstable)
    (hparts : ∀ target : Target, target.get p = target.get q) : p = q := by
  have htiers : p.tiers = q.tiers := by
    have hbounds : ∀ t, p.tiers.get t = q.tiers.get t := fun t => by
      cases hp : p.tiers.get t
      cases hq : q.tiers.get t
      have hleast := hparts (.least t)
      have hmost := hparts (.most t)
      simp_all [Target.get]
    have h0 := hbounds .l0
    have h1 := hbounds .l1
    have h2 := hbounds .l2
    cases hp : p.tiers; cases hq : q.tiers
    simp_all [PerTier.get]
  have hguaranteed := hparts .guaranteed
  cases p; cases q
  simp_all [Target.get]

/-- **The plans depend only on what the lines give to the parts, in their order.** -/
theorem plans_eq_of_rates {text text' : String}
    (h : ∀ d target, (textLines text).filterMap (rateFor d target) =
      (textLines text').filterMap (rateFor d target)) : plans text = plans text' := by
  have hget : ∀ d, (plans text).get d = (plans text').get d := fun d =>
    plan_ext (by rw [burstable_plans, burstable_plans]) fun target => by
      rw [get_plans, get_plans, h]
  have hin := hget .ingress
  have hout := hget .egress
  cases hp : plans text; cases hq : plans text'
  simp_all [PerDirection.get]

/-- The last of the rates that lines give to a part. -/
theorem lastAssigned_getLastD (ls : List (List Char)) (d : Direction) (target : Target) :
    LastAssigned ls (keyFor d target) ((ls.filterMap (rateFor d target)).getLastD 0) := by
  induction ls using List.reverseRecOn with
  | nil => exact .inr ⟨by simp, rfl⟩
  | append_singleton ls line ih =>
    cases hrate : rateFor d target line with
    | some rate =>
      refine .inl ⟨ls, line, [], by simp, ?_, by simp⟩
      rw [List.filterMap_append]
      simpa [hrate] using rateFor_eq_some.mp hrate
    | none =>
      have hidle := rateFor_eq_none.mp hrate
      have hsame : (ls ++ [line]).filterMap (rateFor d target) = ls.filterMap (rateFor d target) := by
        simp [hrate]
      rw [hsame]
      obtain ⟨before, l, after, hls, hassign, hafter⟩ | ⟨hnone, hzero⟩ := ih
      · refine .inl ⟨before, l, after ++ [line], by simp [hls], hassign, ?_⟩
        simpa [or_imp, forall_and] using ⟨hafter, hidle⟩
      · exact .inr ⟨by simpa [or_imp, forall_and] using ⟨hnone, hidle⟩, hzero⟩

/-! ## What may change in a file

By `plans_eq_of_rates` a change of the file does nothing if it leaves the rates of every part and their
order.  What remains is to see that the changes in question do. -/

/-- A blank line, a comment, or a line with a key that no part of a plan has. -/
def Idle (line : List Char) : Prop :=
  Trims line [] ∨ (∃ comment, Trims line ('#' :: comment)) ∨
    ∀ text k v, Trims line text → Divides text k v → ∀ d target, ¬ Trims k (keyFor d target).toList

/-- Idle lines give nothing to any part of a plan. -/
theorem Idle.not_assigns {line : List Char} (h : Idle line) (d : Direction) (target : Target)
    (rate : UInt64) : ¬ Assigns line (keyFor d target) rate := by
  rintro ⟨text, k, v, value, htext, hnil, hmark, hdiv, hkey, -⟩
  obtain hblank | ⟨comment, hcomment⟩ | hunknown := h
  · exact hnil ((trims_iff.mp htext).symm.trans (trims_iff.mp hblank))
  · have hsame := (trims_iff.mp htext).symm.trans (trims_iff.mp hcomment)
    exact hmark (by rw [hsame]; rfl)
  · exact hunknown text k v htext hdiv d target hkey

/-- Among lines with different keys at most one gives something to a part. -/
theorem filterMap_rateFor_perm {ls ls' : List (List Char)} (hperm : ls.Perm ls')
    (hkeys : ls.Pairwise fun a b => ∀ key r r', Assigns a key r → ¬ Assigns b key r') (d : Direction)
    (target : Target) : ls.filterMap (rateFor d target) = ls'.filterMap (rateFor d target) := by
  have hrates := hperm.filterMap (rateFor d target)
  have honly : (ls.filterMap (rateFor d target)).Pairwise fun _ _ => False :=
    hkeys.filterMap _ fun a b hab r hr r' hr' => hab _ r r' (rateFor_eq_some.mp hr) (rateFor_eq_some.mp hr')
  generalize ls.filterMap (rateFor d target) = rates at hrates honly
  match rates, honly with
  | [], _ => exact (List.nil_perm.mp hrates).symm
  | [r], _ => exact List.singleton_perm.mp hrates
  | r :: r' :: _, honly => exact ((List.pairwise_cons.mp honly).1 r' (by simp)).elim

/-- Further blanks at the ends are trimmed as well. -/
theorem trims_pad {s t front back : List Char} (hfront : ∀ c ∈ front, isBlank c)
    (hback : ∀ c ∈ back, isBlank c) : Trims (front ++ s ++ back) t ↔ Trims s t := by
  have hpad : ∀ {u}, Trims s u → Trims (front ++ s ++ back) u := by
    rintro u ⟨front', back', hs, hfront', hback', hends⟩
    refine ⟨front ++ front', back' ++ back, by simp [hs], ?_, ?_, hends⟩ <;>
      simpa [or_imp, forall_and] using ⟨‹_›, ‹_›⟩
  refine ⟨fun h => ?_, hpad⟩
  rw [trims_iff] at h ⊢
  rw [← h, trims_iff.mp (hpad (trims_iff.mpr rfl))]

/-- A line that is divided assigns what its two parts say. -/
theorem assigns_of_divides {line text k v : List Char} (htext : Trims line text) (hnil : text ≠ [])
    (hdiv : Divides text k v) {name : String} {rate : UInt64} :
    Assigns line name rate ↔ text.head? ≠ some '#' ∧ Trims k name.toList ∧
      ∃ value, Trims v value ∧ Counts value rate := by
  constructor
  · rintro ⟨text', k', v', value, htext', -, hmark, hdiv', hkey, hvalue, hrate⟩
    obtain rfl : text' = text := by rw [← trims_iff.mp htext, ← trims_iff.mp htext']
    have hparts := (divides_iff.mp hdiv').symm.trans (divides_iff.mp hdiv)
    obtain ⟨rfl, rfl⟩ := Prod.mk.inj (Option.some.inj hparts)
    exact ⟨hmark, hkey, value, hvalue, hrate⟩
  · rintro ⟨hmark, hkey, value, hvalue, hrate⟩
    exact ⟨text, k, v, value, htext, hnil, hmark, hdiv, hkey, hvalue, hrate⟩

/-- Nothing is read from blanks. -/
theorem not_counts_of_trims_nil {value : List Char} {rate : UInt64} (h : Trims [] value) :
    ¬ Counts value rate := by
  rintro ⟨digits, rest, hvalue, hne, -⟩
  rw [trims_iff] at h
  obtain rfl : value = [] := h.symm
  exact hne (List.append_eq_nil_iff.mp hvalue.symm).1

/-- A word is not divided. -/
theorem not_divides_word {word k v : List Char} (hword : ∀ x ∈ word, isBlank x = false ∧ x ≠ '=') :
    ¬ Divides word k v := by
  rintro (⟨rfl, -⟩ | ⟨-, c, hc, rfl, -⟩)
  · exact (hword '=' (by simp)).2 rfl
  · exact absurd hc (by simp [(hword c (by simp)).1])

/-- The text on a line with a word, blanks and a separator in front. -/
theorem trims_parts {front word gap w back : List Char} {sep : Char} (hfront : ∀ c ∈ front, isBlank c)
    (hback : ∀ c ∈ back, isBlank c) (hnil : word ≠ []) (hhead : ∀ c ∈ word.head?, isBlank c = false)
    (hw : ∀ c ∈ w.getLast?, isBlank c = false) (hsep : isBlank sep = false ∨ w ≠ []) :
    Trims (front ++ word ++ gap ++ sep :: (w ++ back)) (word ++ gap ++ sep :: w) := by
  refine ⟨front, back, by simp, hfront, hback, ?_, ?_⟩
  · rwa [List.append_assoc, List.head?_append_of_ne_nil _ hnil]
  · rw [List.getLast?_append, List.getLast?_cons]
    cases hlast : w.getLast? with
    | some c => simpa using hw c hlast
    | none =>
      have hempty : w = [] := List.getLast?_eq_none_iff.mp hlast
      simpa using hsep.resolve_right (absurd hempty)

/-- **Between a key that is one word and a value without equals signs, any blank does what an equals sign
does.** -/
theorem assigns_blank {k v word : List Char} {c : Char} (hc : isBlank c) (hk : Trims k word)
    (hnil : word ≠ []) (hword : ∀ x ∈ word, isBlank x = false ∧ x ≠ '=') (hv : '=' ∉ v) {name : String}
    {rate : UInt64} : Assigns (k ++ c :: v) name rate ↔ Assigns (k ++ '=' :: v) name rate := by
  obtain ⟨front, gap, rfl, hfront, hgap, hhead, hlast⟩ := hk
  obtain ⟨w, back, rfl, hback, hw⟩ := exists_trimBack v
  have hequal : isBlank '=' = false := by decide
  have hfree : ∀ cs : List Char, (∀ x ∈ cs, isBlank x) → '=' ∉ cs := fun cs hcs h => by
    simp [hcs '=' h] at hequal
  have hkey : '=' ∉ word ++ gap := by
    simpa [hfree gap hgap] using fun h => (hword '=' h).2 rfl
  rw [assigns_of_divides (trims_parts hfront hback hnil hhead hw (.inl hequal)) (by simp) (.inl ⟨rfl, hkey⟩)]
  by_cases hnothing : w = []
  · -- with nothing but blanks behind it, the blank is trimmed away and the line is the key alone
    subst hnothing
    have hline : Trims (front ++ word ++ gap ++ c :: ([] ++ back)) word :=
      ⟨front, gap ++ c :: back, by simp, hfront, by simpa [or_imp, forall_and, hc] using ⟨hgap, hback⟩,
        hhead, hlast⟩
    constructor
    · rintro ⟨text, k, v, value, htext, -, -, hdiv, -⟩
      obtain rfl : text = word := by rw [← trims_iff.mp hline, ← trims_iff.mp htext]
      exact (not_divides_word hword hdiv).elim
    · rintro ⟨-, -, value, hvalue, hrate⟩
      exact (not_counts_of_trims_nil hvalue hrate).elim
  · -- otherwise the first blank behind the key divides the line
    obtain ⟨g, rest, hgaps⟩ : ∃ g rest, gap ++ [c] = g :: rest := List.exists_cons_of_ne_nil (by simp)
    have hblanks : ∀ x ∈ g :: rest, isBlank x := by
      simpa [← hgaps, or_imp, forall_and, hc] using hgap
    have hcut : word ++ gap ++ c :: w = word ++ g :: (rest ++ w) := by
      rw [← List.cons_append, ← hgaps]
      simp
    have hdiv : Divides (word ++ gap ++ c :: w) word (rest ++ w) := by
      refine .inr ⟨?_, g, hblanks g (by simp), hcut, fun x hx => (hword x hx).1⟩
      have hword' : '=' ∉ word := fun h => hkey (by simp [h])
      have hw' : '=' ∉ w := fun h => hv (by simp [h])
      simpa [hcut, hword', hw'] using hfree _ hblanks
    rw [assigns_of_divides (trims_parts hfront hback hnil hhead hw (.inr hnothing)) (by simp) hdiv]
    have hheads : ∀ cs, (word ++ gap ++ cs).head? = word.head? := fun cs => by
      rw [List.append_assoc, List.head?_append_of_ne_nil _ hnil]
    have hkeys : Trims (word ++ gap) name.toList ↔ Trims word name.toList := by
      simpa only [List.nil_append] using @trims_pad word name.toList [] gap (by simp) hgap
    have hvalues : ∀ value, Trims (rest ++ w) value ↔ Trims w value := fun value => by
      simpa only [List.append_nil] using
        @trims_pad w value rest [] (fun x hx => hblanks x (by simp [hx])) (by simp)
    simp only [hheads, hkeys, hvalues]

/-! ## The result -/

/-- **The older format is what its grammar says.**  Every part of a plan is what the last line with its
key gives, the burst rates are zero, and lines that assign no key of a part have no effect, among them blank
lines, comments and lines with unknown keys.  Lines with different keys may change places, and an equals
sign and a blank are as good as each other between a single word and a value without equals signs. -/
theorem plans_follow_grammar :
    (∀ text d, ((plans text).get d).burstable = 0 ∧
        ∀ target, LastAssigned (textLines text) (keyFor d target) (target.get ((plans text).get d))) ∧
      (∀ text text' front line back, textLines text = front ++ back →
        textLines text' = front ++ line :: back →
        (∀ d target rate, ¬ Assigns line (keyFor d target) rate) → plans text' = plans text) ∧
      (∀ line, Idle line → ∀ d target rate, ¬ Assigns line (keyFor d target) rate) ∧
      (∀ text text' front ls ls' back, textLines text = front ++ ls ++ back →
        textLines text' = front ++ ls' ++ back → ls.Perm ls' →
        (ls.Pairwise fun a b => ∀ key r r', Assigns a key r → ¬ Assigns b key r') →
        plans text' = plans text) ∧
      ∀ text text' front back k v word c, textLines text = front ++ (k ++ '=' :: v) :: back →
        textLines text' = front ++ (k ++ c :: v) :: back → isBlank c → Trims k word → word ≠ [] →
        (∀ x ∈ word, isBlank x = false ∧ x ≠ '=') → '=' ∉ v → plans text' = plans text := by
  refine ⟨fun text d => ⟨burstable_plans text d, fun target => ?_⟩, ?_, fun line h => h.not_assigns, ?_, ?_⟩
  · rw [get_plans]
    exact lastAssigned_getLastD _ d target
  · intro text text' front line back htext htext' hidle
    refine plans_eq_of_rates fun d target => ?_
    rw [htext, htext', List.filterMap_append, List.filterMap_append,
      List.filterMap_cons_none (rateFor_eq_none.mpr (hidle d target))]
  · intro text text' front ls ls' back htext htext' hperm hkeys
    refine plans_eq_of_rates fun d target => ?_
    simp only [htext, htext', List.filterMap_append, filterMap_rateFor_perm hperm hkeys]
  · intro text text' front back k v word c htext htext' hc hk hnil hword hv
    refine plans_eq_of_rates fun d target => ?_
    have hline : rateFor d target (k ++ c :: v) = rateFor d target (k ++ '=' :: v) :=
      Option.ext fun rate => by
        rw [rateFor_eq_some, rateFor_eq_some, assigns_blank hc hk hnil hword hv]
    rw [htext, htext', List.filterMap_append, List.filterMap_append, List.filterMap_cons,
      List.filterMap_cons, hline]

/-- The same line with either separator. -/
theorem plans_follow_grammar_either_separator :
    plans "hw_tx_bps_max 100" = plans "hw_tx_bps_max=100" :=
  plans_follow_grammar.2.2.2.2 "hw_tx_bps_max=100" "hw_tx_bps_max 100" [] [] "hw_tx_bps_max".toList
    "100".toList "hw_tx_bps_max".toList ' ' (by decide) (by decide) (by decide)
    (trims_iff.mpr (by decide)) (by decide) (by simp [isBlank]) (by decide)

/-- With a second equals sign on the line the separators are not the same. -/
theorem second_equals_sign_divides :
    (plans "hw_tx_bps_max=5=6").egress.guaranteed = 5 ∧
      (plans "hw_tx_bps_max 5=6").egress.guaranteed = 0 := by
  decide

end Shaping.Legacy
