import Shaping.Control
import Shaping.Text.Column

/-!
# Reports

The tables and lines in which the state of a shaper is shown to people.  Every line ends in a line
feed, except where a single line is asked for.
-/

set_option autoImplicit false

namespace Shaping.Report

open Text (left right)

/-- Lines, each with its line feed. -/
def unlines (lines : List String) : String := String.join (lines.map (· ++ "\n"))

/-! ## Plans -/

/-- A name and a rate per direction. -/
private def planRow (name ingress egress : String) : String :=
  left 12 name ++ " " ++ right 14 ingress ++ " " ++ right 14 egress

/-- The parts of a plan, each with its name. -/
def planParts : List (String × (BandwidthPlan → UInt64)) :=
  [ ("guaranteed", (·.guaranteed)), ("burstable", (·.burstable)),
    ("L0 min", (·.tiers.l0.least)), ("L0 max", (·.tiers.l0.most)),
    ("L1 min", (·.tiers.l1.least)), ("L1 max", (·.tiers.l1.most)),
    ("L2 min", (·.tiers.l2.least)), ("L2 max", (·.tiers.l2.most)) ]

/-- The plans of both directions side by side. -/
def plans (p : PerDirection BandwidthPlan) : String :=
  unlines
    (planRow "" "ingress" "egress" ::
      planParts.map fun (name, part) =>
        planRow name (Rate.textOrDash (part p.ingress)) (Rate.textOrDash (part p.egress)))

/-- How a shaper goes about its work. -/
def options (o : ShapingOptions) : String :=
  unlines
    ((Direction.all.map fun d =>
      let stages := o.stages.get d
      left 8 d.name ++ " entity stage: " ++ left 12 stages.entity.name ++ " global stage: " ++
        stages.global.name) ++
    [s!"unresolved packets: {o.unresolved.title}", s!"table capacity:     {o.maxEntries}"])

/-! ## What goes on in a direction -/

/-- The caps of the tiers. -/
def caps (d : Direction) (c : TierCaps) : String :=
  unlines
    (s!"{d.name} tiers:" ::
      Tier.all.map fun t =>
        "  " ++ left 4 t.name ++ " " ++ right 14 (Rate.textOrDash (c.limiters.get t).rate))

/-- A published epoch. -/
private def epochRow (e : Epoch) : String :=
  "  #" ++ left 8 (toString e.generation) ++ " ts " ++ right 16 (toString e.start) ++ " " ++
    right 14 (Rate.text e.amount)

/-- The open epoch and the published ones. -/
def ring (d : Direction) (r : RateRing) : String :=
  unlines
    (s!"{d.name} estimator: open epoch #{r.current.generation} ({r.current.amount} bytes)" ::
      (r.slots.toList.filter (·.generation != 0)).map epochRow)

/-- A line of counters under some label.  Of the faults, only those that were met are shown. -/
def counters (label : String) (c : Counters) : String :=
  let count (width : Nat) (w : UInt64) : String := right width (toString w)
  let faults := (Fault.all.filter fun f => c.faults.get f != 0).map fun f =>
    s!" [{f.name}: {c.faults.get f}]"
  left 10 label ++ " pkts " ++ count 10 c.packetsTotal ++ " bytes " ++ count 14 c.bytesTotal ++
    " dropped " ++ count 8 c.packetsDropped ++ " paced " ++ count 8 c.packetsPaced ++
    " fail-open " ++ count 8 c.packetsFailOpen ++ String.join faults

/-- Counters with their names, for the journal. -/
def countersInFull (c : Counters) : String :=
  let parts : List (String × UInt64) :=
    [ ("packets_total", c.packetsTotal), ("bytes_total", c.bytesTotal),
      ("packets_dropped", c.packetsDropped), ("bytes_dropped", c.bytesDropped),
      ("packets_paced", c.packetsPaced), ("packets_fail_open", c.packetsFailOpen) ]
  let faults := ", ".intercalate (c.faults.toList.map toString)
  "StatsSnapshot \x7b " ++ String.join (parts.map fun (name, w) => s!"{name}: {w}, ") ++
    s!"faults: [{faults}] \x7d"

/-! ## Pods and entities -/

/-- The directory. -/
def pods (infos : List PodInfo) : String :=
  let row (address entity classId : String) : String :=
    left 40 address ++ " " ++ right 20 entity ++ " " ++ right 8 classId
  unlines
    (row "address" "entity" "class" ::
      infos.map fun p => row p.address.text (toString p.entity) (toString p.classId))

/-- The limits of entities. -/
def entityRates (rates : List EntityRate) : String :=
  let row (entity receive send : String) : String :=
    left 20 entity ++ " " ++ right 14 receive ++ " " ++ right 14 send
  unlines
    (row "entity" "rx" "tx" ::
      rates.map fun r =>
        row (toString r.entity) (Rate.textOrDash r.receiveRate) (Rate.textOrDash r.sendRate))

end Shaping.Report
