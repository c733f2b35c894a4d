import Shaping.Config

/-!
# What the program can be told to do

A `Command` is a thing to do, and an `Invocation` a command together with the configuration file that it
is about.

Rates are still texts here.  They are read when the command is carried out, because a rate that cannot be
read is a failure of the command and not a mistake in how it was given.
-/

set_option autoImplicit false

namespace Shaping

/-- A plan in writing.  What is left out is zero. -/
structure WrittenPlan where
  guaranteed : Option String
  burstable : Option String
  /-- For each tier the least and the most. -/
  tiers : PerTier (Option String × Option String)

/-- A thing to do. -/
inductive Command where
  | showConfig
  | checkConfig
  /-- Take plans over from a file of the older format. -/
  | importLegacy (file : String) (write : Bool)
  | setPlan (d : Direction) (plan : WrittenPlan)
  | listPods
  /-- Add or replace a pod, whose limits are given in writing. -/
  | setPod (pod : Pod) (receive send : Option String)
  | deletePod (id : String)
  | simulate (file : String)
  /-- Put the shaper under load, for so many seconds or for ever. -/
  | stress (workers : UInt64) (duration : Option UInt64) (packetSize : UInt64)

/-- A command and the configuration file that it is about, unless that is the usual one. -/
structure Invocation where
  config : Option String
  command : Command

end Shaping
