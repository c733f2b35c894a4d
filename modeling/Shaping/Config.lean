import Shaping.Address.Text
import Shaping.BandwidthPlan
import Shaping.Options

/-!
# Configurations

A `Config` is what the configuration file says: a bandwidth plan for each direction, the pods on the
node with their addresses and limits, and how to shape.

Pods are told apart by their id.  `Config.setPod` puts a pod in the place of the first one with its id,
or at the end if there is none, and `Config.removePod` takes the first one with an id away.  Several
pods may name the same entity, and a pod that shares the network of the node has no entity to speak of.
-/

set_option autoImplicit false

namespace Shaping

/-- A pod as the control plane knows it. -/
structure Pod where
  id : String
  uid : String
  v4 : Option (BitVec 32)
  v6 : Option (BitVec 128)
  /-- Does the pod share the addresses of the node? -/
  hostNetwork : Bool
  /-- The class of the pod's traffic. -/
  priority : Option UInt32
  entity : EntityId
  /-- The limit of what the pod receives, in bytes per second; zero is none. -/
  receiveRate : UInt64
  /-- The limit of what the pod sends, in bytes per second; zero is none. -/
  sendRate : UInt64
  deriving DecidableEq

namespace Pod

/-- A pod of which nothing is known. -/
def blank : Pod := ⟨"", "", none, none, false, none, 0, 0, 0⟩

/-- The addresses of a pod. -/
def addresses (p : Pod) : List Address :=
  (p.v4.map Address.v4).toList ++ (p.v6.map Address.v6).toList

/-- The class of a pod's traffic.  That of a pod without priority is online. -/
def classId (p : Pod) : UInt32 := p.priority.getD 0

/-- The limit of a pod in one direction. -/
def rate (p : Pod) : Direction → UInt64
  | .ingress => p.receiveRate
  | .egress => p.sendRate

end Pod

/-- What the configuration file says. -/
structure Config where
  plans : PerDirection BandwidthPlan
  pods : List Pod
  options : ShapingOptions
  deriving DecidableEq

namespace Config

/-- The configuration of a node that has no configuration file. -/
def standard : Config := ⟨.const .unset, [], .standard⟩

/-- Put a pod in the place of the first one with its id, or at the end. -/
def insertPod (pod : Pod) : List Pod → List Pod
  | [] => [pod]
  | p :: ps => if p.id = pod.id then pod :: ps else p :: insertPod pod ps

/-- Add a pod, or replace the one with its id. -/
def setPod (c : Config) (pod : Pod) : Config := { c with pods := insertPod pod c.pods }

/-- The first pod with an id, if there is one, and the configuration without it. -/
def removePod (c : Config) (id : String) : Option Pod × Config :=
  (c.pods.find? (·.id == id), { c with pods := c.pods.eraseP (·.id == id) })

/-- Replace the plan of one direction. -/
def setPlan (c : Config) (d : Direction) (plan : BandwidthPlan) : Config :=
  { c with plans := c.plans.modify d fun _ => plan }

end Config

end Shaping
