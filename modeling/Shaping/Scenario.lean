import Shaping.Config.Format
import Shaping.Packet

/-!
# Scenarios

A `Scenario` describes an experiment: a configuration to shape by, and flows that offer traffic to it
for some time.  A `Flow` sends packets of one size at one rate between two addresses, from a start on
and maybe up to a stop.

Scenarios are only ever read, from JSON texts.
-/

set_option autoImplicit false

namespace Shaping

open Json (Reader)
open Json.Reader (Field)

/-- A source of packets. -/
structure Flow where
  name : String
  direction : Direction
  /-- The address on this node. -/
  localEnd : Address
  /-- The address at the other end. -/
  remoteEnd : Address
  classId : UInt32
  packetSize : UInt64
  /-- The traffic offered, in bytes per second. -/
  rate : UInt64
  /-- When the flow starts, in milliseconds. -/
  start : UInt64
  /-- When the flow stops, in milliseconds, if it does. -/
  stop : Option UInt64
  deriving DecidableEq

namespace Flow

/-- A flow of which only the parts that may be left out are known. -/
def blank : Flow :=
  { name := "", direction := .ingress, localEnd := .v4 0, remoteEnd := .v4 0xC0000201#32, classId := 0,
    packetSize := 1500, rate := 0, start := 0, stop := none }

/-- A packet of the flow. -/
def packet (f : Flow) : Packet :=
  let headers : Headers :=
    match f.direction with
    | .ingress => ⟨f.remoteEnd, f.localEnd⟩
    | .egress => ⟨f.localEnd, f.remoteEnd⟩
  ⟨f.packetSize, f.direction, 0, some headers, f.classId⟩

/-- The nanoseconds from one packet to the next, of which there is at least one. -/
def gap (f : Flow) : UInt64 :=
  max (Word.clamp (f.packetSize.toNat * second.toNat / f.rate.toNat)) 1

/-- Read a flow. -/
def reader : Reader Flow :=
  let address : Reader Address := Reader.parsed "IP address" Address.ofText?
  Reader.record "Flow" blank
    [ .of "name" true Reader.string fun f s => { f with name := s },
      .of "direction" true Direction.reader fun f d => { f with direction := d },
      .of "local" true address fun f a => { f with localEnd := a },
      .of "remote" false address fun f a => { f with remoteEnd := a },
      .of "class_id" false Reader.shortWord fun f w => { f with classId := w },
      .of "packet_size" false Reader.word fun f w => { f with packetSize := w },
      .of "rate_bps" true Reader.word fun f w => { f with rate := w },
      .of "start_ms" false Reader.word fun f w => { f with start := w },
      .of "stop_ms" false (Reader.optional Reader.word) fun f w => { f with stop := w } ]

end Flow

/-- An experiment. -/
structure Scenario where
  config : Config
  /-- How long it lasts, in milliseconds. -/
  duration : UInt64
  /-- The milliseconds after which the state is reported each time. -/
  interval : UInt64
  flows : List Flow
  deriving DecidableEq

namespace Scenario

/-- A scenario of which only the parts that may be left out are known. -/
def blank : Scenario := ⟨.standard, 0, 1000, []⟩

/-- Read a scenario. -/
def reader : Reader Scenario :=
  Reader.record "Scenario" blank
    [ .of "config" false Config.reader fun s c => { s with config := c },
      .of "duration_ms" true Reader.word fun s w => { s with duration := w },
      .of "report_interval_ms" false Reader.word fun s w => { s with interval := w },
      .of "flows" true (Reader.list Flow.reader) fun s fs => { s with flows := fs } ]

/-- The scenario that a text says. -/
def ofText (text : String) : Except Json.Refusal Scenario := Reader.whole reader text

end Scenario

end Shaping
