import Shaping.Word

/-!
# What is shaped: directions, tiers, verdicts and faults

Traffic is shaped separately in each `Direction`.  Within one direction it falls into three
`Tier`s that share the bandwidth of the hardware: `Tier.l0` carries online traffic, the other two
carry offline traffic of falling priority.  Deciding about a packet ends in a `Verdict`, and on the
way there the shaper may meet a `Fault`, which is never an error of the caller's: it is counted, and
the decision goes on.

State that exists once per direction or once per tier is a `PerDirection` or a `PerTier`.  Both are
records rather than functions or arrays, so that a component can be replaced in place and so that
"the other components are as before" holds by `rfl`.

The module ends with the units that the rest of the library counts in.
-/

set_option autoImplicit false

namespace Shaping

/-! ## Directions -/

/-- The way traffic flows, seen from the node. -/
inductive Direction where
  | ingress
  | egress
  deriving DecidableEq

namespace Direction

/-- Both directions, in the order in which they are reported. -/
def all : List Direction := [.ingress, .egress]

/-- The place of a direction in `all`. -/
def index : Direction → Nat
  | .ingress => 0
  | .egress => 1

/-- The name of a direction, in configuration files as in reports. -/
def name : Direction → String
  | .ingress => "ingress"
  | .egress => "egress"

end Direction

/-- One value for each direction. -/
structure PerDirection (α : Type) where
  ingress : α
  egress : α
  deriving DecidableEq

namespace PerDirection

variable {α β : Type}

/-- The same value for both directions. -/
def const (a : α) : PerDirection α := ⟨a, a⟩

/-- The value for one direction. -/
def get (p : PerDirection α) : Direction → α
  | .ingress => p.ingress
  | .egress => p.egress

/-- Replace the value for one direction by what `f` makes of it, and hand out what else `f` gives. -/
def update (p : PerDirection α) (d : Direction) (f : α → β × α) : β × PerDirection α :=
  match d, p with
  | .ingress, ⟨i, e⟩ => match f i with | (b, i) => (b, ⟨i, e⟩)
  | .egress, ⟨i, e⟩ => match f e with | (b, e) => (b, ⟨i, e⟩)

/-- Replace the value for one direction by what `f` makes of it. -/
def modify (p : PerDirection α) (d : Direction) (f : α → α) : PerDirection α :=
  match d, p with
  | .ingress, ⟨i, e⟩ => ⟨f i, e⟩
  | .egress, ⟨i, e⟩ => ⟨i, f e⟩

theorem get_modify_self (p : PerDirection α) (d : Direction) (f : α → α) :
    (p.modify d f).get d = f (p.get d) := by
  cases d <;> rfl

theorem get_modify_of_ne (p : PerDirection α) {d d' : Direction} (h : d' ≠ d) (f : α → α) :
    (p.modify d f).get d' = p.get d' := by
  cases d <;> cases d' <;> simp_all [get, modify]

theorem fst_update (p : PerDirection α) (d : Direction) (f : α → β × α) :
    (p.update d f).1 = (f (p.get d)).1 := by
  cases d <;> rfl

theorem get_update_self (p : PerDirection α) (d : Direction) (f : α → β × α) :
    (p.update d f).2.get d = (f (p.get d)).2 := by
  cases d <;> rfl

theorem get_update_of_ne (p : PerDirection α) {d d' : Direction} (h : d' ≠ d) (f : α → β × α) :
    (p.update d f).2.get d' = p.get d' := by
  cases d <;> cases d' <;> simp_all [get, update]

end PerDirection

/-! ## Tiers -/

/-- A priority class.  The tiers share the ceiling of the hardware; `l0` is online traffic. -/
inductive Tier where
  | l0
  | l1
  | l2
  deriving DecidableEq

namespace Tier

/-- All tiers, in the order in which they are reported. -/
def all : List Tier := [.l0, .l1, .l2]

/-- The order in which tiers give bandwidth up under congestion: the least important first. -/
def suppressOrder : List Tier := [.l2, .l1, .l0]

/-- The order in which tiers get bandwidth back when there is headroom: the most important first. -/
def recoverOrder : List Tier := [.l0, .l1, .l2]

/-- The place of a tier in `all`. -/
def index : Tier → Nat
  | .l0 => 0
  | .l1 => 1
  | .l2 => 2

/-- The name of a tier in reports. -/
def name : Tier → String
  | .l0 => "L0"
  | .l1 => "L1"
  | .l2 => "L2"

/-- The tier of a traffic class.  Classes beyond the third belong to no tier and pass the global
stage untouched. -/
def ofClass? (classId : UInt32) : Option Tier :=
  if classId = 0 then some .l0
  else if classId = 1 then some .l1
  else if classId = 2 then some .l2
  else none

end Tier

/-- One value for each tier. -/
structure PerTier (α : Type) where
  l0 : α
  l1 : α
  l2 : α
  deriving DecidableEq

namespace PerTier

variable {α β : Type}

/-- The same value for every tier. -/
def const (a : α) : PerTier α := ⟨a, a, a⟩

/-- The value for one tier. -/
def get (p : PerTier α) : Tier → α
  | .l0 => p.l0
  | .l1 => p.l1
  | .l2 => p.l2

/-- Tabulate a function of the tier. -/
def ofFn (f : Tier → α) : PerTier α := ⟨f .l0, f .l1, f .l2⟩

/-- Apply a function at every tier. -/
def map (f : α → β) (p : PerTier α) : PerTier β := ⟨f p.l0, f p.l1, f p.l2⟩

/-- Replace the value for one tier by what `f` makes of it. -/
def modify (p : PerTier α) (t : Tier) (f : α → α) : PerTier α :=
  match t, p with
  | .l0, ⟨a, b, c⟩ => ⟨f a, b, c⟩
  | .l1, ⟨a, b, c⟩ => ⟨a, f b, c⟩
  | .l2, ⟨a, b, c⟩ => ⟨a, b, f c⟩

/-- The values from the first tier to the last. -/
def toList (p : PerTier α) : List α := [p.l0, p.l1, p.l2]

theorem get_ofFn (f : Tier → α) (t : Tier) : (ofFn f).get t = f t := by
  cases t <;> rfl

theorem get_modify_self (p : PerTier α) (t : Tier) (f : α → α) :
    (p.modify t f).get t = f (p.get t) := by
  cases t <;> rfl

theorem get_modify_of_ne (p : PerTier α) {t t' : Tier} (h : t' ≠ t) (f : α → α) :
    (p.modify t f).get t' = p.get t' := by
  cases t <;> cases t' <;> simp_all [get, modify]

end PerTier

/-! ## Entities -/

/-- What a per-pod limit applies to: the number of the control group that the pod's processes run
in.  Zero is no entity. -/
abbrev EntityId := UInt64

/-! ## Verdicts and faults -/

/-- What becomes of a packet. -/
inductive Verdict where
  | pass
  | drop
  deriving DecidableEq

/-- Conditions met while deciding about a packet.  None of them is reported to anyone as an error;
each is counted, and the packet is treated by the fail-open rules. -/
inductive Fault where
  /-- The direction has no bandwidth plan. -/
  | configurationMissing
  /-- A limiter on the way has rate zero. -/
  | rateUnconfigured
  /-- The requested departure lies in the past. -/
  | clockSkew
  /-- A limiter refused the packet. -/
  | capacityExceeded
  /-- The headers could not be read. -/
  | malformedPacket
  deriving DecidableEq

namespace Fault

/-- All faults, in the order in which they are reported. -/
def all : List Fault :=
  [.configurationMissing, .rateUnconfigured, .clockSkew, .capacityExceeded, .malformedPacket]

/-- The place of a fault in `all`. -/
def index : Fault → Nat
  | .configurationMissing => 0
  | .rateUnconfigured => 1
  | .clockSkew => 2
  | .capacityExceeded => 3
  | .malformedPacket => 4

/-- The name of a fault in reports. -/
def name : Fault → String
  | .configurationMissing => "configuration missing"
  | .rateUnconfigured => "rate unconfigured"
  | .clockSkew => "clock skew"
  | .capacityExceeded => "capacity exceeded"
  | .malformedPacket => "malformed packet"

end Fault

/-! ## Units -/

/-- The nanoseconds of a second. -/
def second : UInt64 := 1000000000

/-- The nanoseconds of a millisecond. -/
def millisecond : UInt64 := 1000000

/-- The bytes of a megabyte.  Bandwidth is moved between tiers in whole megabytes per second. -/
def megabyte : UInt64 := 1000000

/-- The time stamp of what has not happened yet. -/
def never : UInt64 := Word.top

end Shaping
