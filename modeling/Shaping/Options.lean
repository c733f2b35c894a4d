import Shaping.Limiter

/-!
# How to shape

`ShapingOptions` say how the shaper goes about its work, as opposed to how much bandwidth there is to
divide: which discipline each stage uses in each direction, what to do with packets of unknown
origin, and how large the shared tables are.
-/

set_option autoImplicit false

namespace Shaping

/-- What to do with a packet whose local address belongs to no entity. -/
inductive UnresolvedPolicy where
  /-- Shape it at the global stage only, by the class that the packet itself carries. -/
  | globalOnly
  /-- Let it pass untouched. -/
  | exempt
  deriving DecidableEq

namespace UnresolvedPolicy

/-- The name of a policy in configuration files. -/
def name : UnresolvedPolicy → String
  | .globalOnly => "global_only"
  | .exempt => "admit"

/-- The name of a policy in reports. -/
def title : UnresolvedPolicy → String
  | .globalOnly => "GlobalOnly"
  | .exempt => "Admit"

end UnresolvedPolicy

/-- The disciplines of the two stages in one direction. -/
structure StageDisciplines where
  /-- For the limit of the packet's own entity. -/
  entity : Discipline
  /-- For the cap of the packet's tier. -/
  global : Discipline
  deriving DecidableEq

/-- The disciplines of a direction for which none are configured. -/
def StageDisciplines.preferred (d : Direction) : StageDisciplines :=
  ⟨.preferred d, .preferred d⟩

/-- How to shape. -/
structure ShapingOptions where
  stages : PerDirection StageDisciplines
  unresolved : UnresolvedPolicy
  /-- The capacity of each shared table. -/
  maxEntries : UInt64
  deriving DecidableEq

namespace ShapingOptions

/-- The capacity of tables for which none is configured. -/
def defaultMaxEntries : UInt64 := 65535

/-- The options of a shaper that is not told any. -/
def standard : ShapingOptions :=
  ⟨⟨.preferred .ingress, .preferred .egress⟩, .globalOnly, defaultMaxEntries⟩

end ShapingOptions

end Shaping
