/-!
# Arithmetic on words

Every quantity of the shaper — a rate, a time, a byte count, a token balance — is an unsigned word
of 64 bits.  Three kinds of arithmetic are used on them, and which kind stands where is part of the
behaviour:

* **wrapping**, the plain `+` of `UInt64`, for counters that only ever grow;
* **saturating** (`Word.addSat`, `Word.subSat`, `Word.mulSat`), where running past an end of the
  range must stay at that end: a clock that stepped back has seen no time pass, and a sum of rates
  that is too large is as good as the largest one;
* **exact** (`Word.add`, `Word.sub`, `Word.mul`, `Word.div`, `Word.rem`), where a result that does
  not fit is a `Trap` and ends the computation.

Each saturating operation comes with its value in the natural numbers (`toNat_addSat`,
`toNat_subSat`, `toNat_mulSat`), which is all that later modules need to know about it.  Of the exact
ones it is known when they do not trap (`add_of_lt`, `sub_of_le` and the others).
-/

set_option autoImplicit false

namespace Shaping

/-- Why an exact computation came to an end. -/
inductive Trap where
  /-- A sum left the range of a word. -/
  | addition
  /-- A difference fell below zero. -/
  | subtraction
  /-- A product left the range of a word. -/
  | multiplication
  /-- A quotient had divisor zero. -/
  | division
  /-- A remainder had divisor zero. -/
  | remainder
  /-- An array of this length was asked for what it has at this place. -/
  | index (length place : Nat)
  /-- A table larger than any address space was asked for. -/
  | allocation
  deriving DecidableEq

/-- The words under which a trap is reported. -/
def Trap.message : Trap → String
  | .addition => "attempt to add with overflow"
  | .subtraction => "attempt to subtract with overflow"
  | .multiplication => "attempt to multiply with overflow"
  | .division => "attempt to divide by zero"
  | .remainder => "attempt to calculate the remainder with a divisor of zero"
  | .index length place =>
    s!"index out of bounds: the len is {length} but the index is {place}"
  | .allocation => "capacity overflow"

namespace Word

/-- The largest word. -/
def top : UInt64 := 0xFFFFFFFFFFFFFFFF

theorem toNat_top : top.toNat = UInt64.size - 1 := rfl

/-- The word nearest to a natural number. -/
def clamp (n : Nat) : UInt64 :=
  if n < UInt64.size then UInt64.ofNat n else top

theorem toNat_clamp (n : Nat) : (clamp n).toNat = min n (UInt64.size - 1) := by
  have hs : UInt64.size = 18446744073709551616 := rfl
  rw [clamp]
  split
  · rw [UInt64.toNat_ofNat_of_lt' (by omega)]; omega
  · rw [toNat_top]; omega

theorem clamp_toNat (w : UInt64) : clamp w.toNat = w := by
  rw [← UInt64.toNat_inj, toNat_clamp]
  exact Nat.min_eq_left (Nat.le_sub_one_of_lt w.toNat_lt_size)

/-! ## The smaller and the larger of two words -/

theorem toNat_min (a b : UInt64) : (min a b).toNat = min a.toNat b.toNat := by
  show (if a ≤ b then a else b).toNat = _
  split <;> rename_i h <;> rw [UInt64.le_iff_toNat_le] at h <;> omega

theorem toNat_max (a b : UInt64) : (max a b).toNat = max a.toNat b.toNat := by
  show (if a ≤ b then b else a).toNat = _
  split <;> rename_i h <;> rw [UInt64.le_iff_toNat_le] at h <;> omega

/-! ## Saturating operations -/

/-- The sum, or the largest word if that is too small for it. -/
def addSat (a b : UInt64) : UInt64 :=
  if a + b < a then top else a + b

theorem toNat_addSat (a b : UInt64) :
    (addSat a b).toNat = min (a.toNat + b.toNat) (UInt64.size - 1) := by
  have hs : UInt64.size = 18446744073709551616 := rfl
  have ha := a.toNat_lt
  have hb := b.toNat_lt
  rw [addSat]
  split
  · rename_i h
    rw [UInt64.lt_iff_toNat_lt, UInt64.toNat_add] at h
    rw [toNat_top]; omega
  · rename_i h
    rw [UInt64.lt_iff_toNat_lt, UInt64.toNat_add] at h
    rw [UInt64.toNat_add]; omega

/-- It is enough to clamp once, after everything is added up. -/
theorem addSat_clamp (n : Nat) (w : UInt64) : addSat (clamp n) w = clamp (n + w.toNat) := by
  have hw := w.toNat_lt_size
  rw [← UInt64.toNat_inj, toNat_addSat, toNat_clamp, toNat_clamp]
  omega

/-- The difference, or zero if there is none. -/
def subSat (a b : UInt64) : UInt64 :=
  if a < b then 0 else a - b

theorem toNat_subSat (a b : UInt64) : (subSat a b).toNat = a.toNat - b.toNat := by
  rw [subSat]
  split
  · rename_i h
    rw [UInt64.lt_iff_toNat_lt] at h
    rw [UInt64.toNat_zero]; omega
  · rename_i h
    rw [UInt64.lt_iff_toNat_lt] at h
    rw [UInt64.toNat_sub_of_le a b (by rw [UInt64.le_iff_toNat_le]; omega)]

/-- The product, or the largest word if that is too small for it. -/
def mulSat (a b : UInt64) : UInt64 :=
  clamp (a.toNat * b.toNat)

theorem toNat_mulSat (a b : UInt64) :
    (mulSat a b).toNat = min (a.toNat * b.toNat) (UInt64.size - 1) :=
  toNat_clamp _

/-! ## Exact operations -/

/-- The word that a natural number is, or the given trap. -/
def exact (trap : Trap) (n : Nat) : Except Trap UInt64 :=
  if n < UInt64.size then .ok (UInt64.ofNat n) else .error trap

/-- The exact sum. -/
def add (a b : UInt64) : Except Trap UInt64 :=
  exact .addition (a.toNat + b.toNat)

/-- The exact difference. -/
def sub (a b : UInt64) : Except Trap UInt64 :=
  if a < b then .error .subtraction else .ok (a - b)

/-- The exact product. -/
def mul (a b : UInt64) : Except Trap UInt64 :=
  exact .multiplication (a.toNat * b.toNat)

/-- The quotient rounded down. -/
def div (a b : UInt64) : Except Trap UInt64 :=
  if b = 0 then .error .division else .ok (a / b)

/-- What the quotient leaves. -/
def rem (a b : UInt64) : Except Trap UInt64 :=
  if b = 0 then .error .remainder else .ok (a % b)

/-- The exact product in twice the width. -/
def mulWide (a b : UInt64) : Except Trap Nat :=
  if a.toNat * b.toNat < UInt64.size * UInt64.size then .ok (a.toNat * b.toNat)
  else .error .multiplication

/-- The quotient of a number of twice the width, rounded down. -/
def divWide (n : Nat) (b : UInt64) : Except Trap Nat :=
  if b = 0 then .error .division else .ok (n / b.toNat)

theorem exact_eq_ok_iff {trap : Trap} {n : Nat} {w : UInt64} :
    exact trap n = .ok w ↔ w.toNat = n := by
  have hs : UInt64.size = 18446744073709551616 := rfl
  have hw := w.toNat_lt
  rw [exact]
  split
  · rename_i h
    constructor
    · intro hn
      injection hn with hn
      rw [← hn, UInt64.toNat_ofNat_of_lt' (by omega)]
    · intro hn
      rw [← hn, UInt64.ofNat_toNat]
  · rename_i h
    constructor
    · intro hn; nomatch hn
    · intro hn; omega

theorem add_of_lt {a b : UInt64} (h : a.toNat + b.toNat < UInt64.size) : add a b = pure (a + b) := by
  rw [add, exact, if_pos h, UInt64.ofNat_add, UInt64.ofNat_toNat, UInt64.ofNat_toNat]
  rfl

theorem mul_of_lt {a b : UInt64} (h : a.toNat * b.toNat < UInt64.size) : mul a b = pure (a * b) := by
  rw [mul, exact, if_pos h, UInt64.ofNat_mul, UInt64.ofNat_toNat, UInt64.ofNat_toNat]
  rfl

theorem sub_of_le {a b : UInt64} (h : b ≤ a) : sub a b = pure (a - b) :=
  if_neg (UInt64.not_lt.mpr h)

theorem div_of_ne_zero (a : UInt64) {b : UInt64} (h : b ≠ 0) : div a b = pure (a / b) := if_neg h

theorem rem_of_ne_zero (a : UInt64) {b : UInt64} (h : b ≠ 0) : rem a b = pure (a % b) := if_neg h

/-- Twice the width is always enough. -/
theorem mulWide_eq (a b : UInt64) : mulWide a b = pure (a.toNat * b.toNat) :=
  if_pos (Nat.mul_lt_mul'' a.toNat_lt_size b.toNat_lt_size)

theorem divWide_of_ne_zero (n : Nat) {b : UInt64} (h : b ≠ 0) :
    divWide n b = pure (n / b.toNat) := if_neg h

end Word

/-! ## Exact access -/

/-- What stands at a place of an array, which has to be one of its places. -/
def element {α : Type} (xs : Array α) (place : Nat) : Except Trap α :=
  match xs[place]? with
  | some x => .ok x
  | none => .error (.index xs.size place)

theorem element_of_some {α : Type} {xs : Array α} {place : Nat} {x : α} (h : xs[place]? = some x) :
    element xs place = pure x := by
  rw [element, h]
  rfl

end Shaping
