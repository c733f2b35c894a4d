import Shaping.Control
import Shaping.Report
import Shaping.Schedule

/-!
# Running experiments

`Simulation.run` carries a scenario out: a new shaper is given the scenario's configuration, and then
gets the packets of all flows in the order of their schedule, each at its own time.  No real clock is
involved, so the same scenario always has the same outcome.

The outcome is reported per interval.  A packet counts as sent, dropped or paced in the interval in
which it was sent, but its bytes count as admitted in the interval in which it leaves, which for a paced
packet may be a later one, or none any more.  The caps of an interval are those after the last packet
sent in it.

The report has one interval more if the duration is no multiple of the interval, and that one ends
early.  Rates are nevertheless bytes per full interval.
-/

set_option autoImplicit false

namespace Shaping

/-- What became of the packets of a flow in an interval. -/
structure FlowSample where
  admittedBytes : UInt64
  sent : UInt64
  dropped : UInt64
  paced : UInt64
  deriving DecidableEq

/-- The sample of no packets. -/
def FlowSample.zero : FlowSample := ⟨0, 0, 0, 0⟩

/-- What happened in an interval. -/
structure IntervalReport where
  /-- The end of the interval, in milliseconds. -/
  stop : UInt64
  /-- The caps at its end. -/
  caps : PerDirection (PerTier UInt64)
  /-- A sample for each flow. -/
  flows : Array FlowSample
  deriving DecidableEq

/-- What happened in an experiment. -/
structure SimulationReport where
  /-- The milliseconds of an interval. -/
  interval : UInt64
  /-- The names of the flows. -/
  names : List String
  intervals : List IntervalReport
  deriving DecidableEq

namespace SimulationReport

/-- The bytes that a flow got through in an interval, per second. -/
def throughput (r : SimulationReport) (sample : FlowSample) : UInt64 :=
  Word.mulSat sample.admittedBytes 1000 / max r.interval 1

/-- The lines about one interval. -/
def intervalLines (r : SimulationReport) (i : IntervalReport) : List String :=
  let caps := Direction.all.map fun d =>
    "  " ++ Text.left 8 d.name ++ String.join (Tier.all.map fun t =>
      s!" {t.name} " ++ Text.right 12 (Rate.text ((i.caps.get d).get t)))
  let count (w : UInt64) : String := Text.right 8 (toString w)
  let flows := (r.names.zip i.flows.toList).map fun (name, sample) =>
    "  " ++ Text.left 16 name ++ " " ++ Text.right 12 (Rate.text (r.throughput sample)) ++
      " sent " ++ count sample.sent ++ " dropped " ++ count sample.dropped ++
      " paced " ++ count sample.paced
  ("t=" ++ Text.right 6 (toString i.stop) ++ "ms") :: caps ++ flows

/-- The report as it is shown to people. -/
def text (r : SimulationReport) : String :=
  Report.unlines (r.intervals.flatMap r.intervalLines)

end SimulationReport

namespace Simulation

/-- An experiment under way. -/
structure State where
  shaper : Shaper
  intervals : Array IntervalReport
  /-- How many intervals are over. -/
  ended : Nat

/-- The caps of all tiers. -/
def currentCaps (s : Shaper) : PerDirection (PerTier UInt64) :=
  let caps (d : Direction) : PerTier UInt64 := (s.lane d).caps.limiters.map (·.rate)
  ⟨caps .ingress, caps .egress⟩

/-- Note the caps of the intervals that are over once the one at the place `target` begins. -/
def closeBefore (target : Nat) : State → State
  | ⟨shaper, intervals, ended⟩ =>
    if ended < target ∧ ended < intervals.size then
      let caps := currentCaps shaper
      closeBefore target ⟨shaper, intervals.modify ended fun i => { i with caps }, ended + 1⟩
    else ⟨shaper, intervals, ended⟩
termination_by s => target - s.ended

/-- Change the sample of one flow in one interval. -/
def modifySample (intervals : Array IntervalReport) (interval flow : Nat)
    (f : FlowSample → FlowSample) : Array IntervalReport :=
  intervals.modify interval fun ⟨stop, caps, flows⟩ => ⟨stop, caps, flows.modify flow f⟩

/-- The bytes that a flow has been credited with in one interval. -/
def creditedBytes (intervals : Array IntervalReport) (interval flow : Nat) : UInt64 :=
  match intervals[interval]? with
  | none => 0
  | some i =>
    match i.flows[flow]? with
    | none => 0
    | some sample => sample.admittedBytes

/-- Credit a flow with the bytes of a packet in the interval in which it leaves, if that is reported. -/
def credit (intervals : Array IntervalReport) (interval flow : Nat) (size : UInt64) :
    Except Trap (Array IntervalReport) :=
  if interval < intervals.size then do
    let bytes ← Word.add (creditedBytes intervals interval flow) size
    return modifySample intervals interval flow fun s => { s with admittedBytes := bytes }
  else return intervals

/-- The place of the interval that a time falls into. -/
def placeOf (intervalLength time : UInt64) : Nat :=
  ((time - Schedule.origin) / intervalLength).toNat

/-- Send a packet. -/
def step (options : ShapingOptions) (intervalLength : UInt64) (s : State) (t : Turn) :
    Except Trap State := do
  let place := placeOf intervalLength t.time
  match closeBefore place s with
  | ⟨shaper, intervals, ended⟩ =>
    match shaper.process options .directory t.flow.packet t.time with
    | (verdict, packet, shaper) =>
      let intervals := modifySample intervals place t.index fun s => { s with sent := s.sent + 1 }
      match verdict with
      | .drop =>
        return ⟨shaper,
          modifySample intervals place t.index fun s => { s with dropped := s.dropped + 1 }, ended⟩
      | .pass =>
        let departure := max packet.departure t.time
        let intervals :=
          if t.time < departure then
            modifySample intervals place t.index fun s => { s with paced := s.paced + 1 }
          else intervals
        let intervals ←
          credit intervals (placeOf intervalLength departure) t.index t.flow.packetSize
        return ⟨shaper, intervals, ended⟩

/-- The number of intervals of an experiment. -/
def intervalCount (s : Scenario) : Nat :=
  (s.duration.toNat + s.interval.toNat - 1) / s.interval.toNat

/-- The report before anything happened. -/
def blankIntervals (s : Scenario) : Array IntervalReport :=
  (Array.range (intervalCount s)).map fun i =>
    ⟨Word.clamp (min ((i + 1) * s.interval.toNat) s.duration.toNat), .const (.const 0),
      Array.replicate s.flows.length .zero⟩

/-- The notes that are left at the end about each direction. -/
def finalNotes (s : Shaper) : List Note :=
  Direction.all.map fun d =>
    .debug (s!"{d.name} stats: " ++ Report.countersInFull (s.lane d).counters)

/-- The times that an experiment is run by. -/
structure Timetable where
  /-- The nanoseconds of an interval. -/
  intervalLength : UInt64
  /-- The end of the experiment. -/
  stop : UInt64
  /-- The first packet of each flow. -/
  schedule : Schedule

/-- The times of a scenario, if none is beyond what can be counted. -/
def Timetable.of (s : Scenario) : Except Trap Timetable := do
  let intervalLength ← Word.mul s.interval millisecond
  let stop ← Schedule.timeOf s.duration
  return ⟨intervalLength, stop, ← Schedule.ofFlows 0 s.flows⟩

/-- Send all packets of a scenario through a shaper. -/
def sendAll (s : Scenario) (options : ShapingOptions) (times : Timetable) (shaper : Shaper) :
    Except Trap State := do
  let state ← times.schedule.foldUntil times.stop (step options times.intervalLength)
    ⟨shaper, blankIntervals s, 0⟩
  return closeBefore state.intervals.size state

/-- The report of an experiment that is over. -/
def report (s : Scenario) (state : State) : SimulationReport :=
  ⟨s.interval, s.flows.map (·.name), state.intervals.toList⟩

/-- The first flow that has no packets to send, or no time to send them in. -/
def idleFlow? (s : Scenario) : Option Flow :=
  s.flows.find? fun f => f.rate == 0 || f.packetSize == 0

/-- Carry a scenario out.  The second part of the answer is the notes that were left. -/
def run (s : Scenario) : Except Stop SimulationReport × Array Note :=
  if s.interval = 0 then (.error (.failed (.of .noInterval)), #[])
  else
    match idleFlow? s with
    | some f => (.error (.failed (.of (.idleFlow f.name))), #[])
    | none =>
      match s.config.check with
      | (.error f, _, notes) => (.error (.failed f), notes.toArray)
      | (.ok _, config, notes) =>
        match config.load with
        | (.error e, more) => (.error e, notes.toArray ++ more)
        | (.ok shaper, more) =>
          let notes := notes.toArray ++ more
          match Timetable.of s with
          | .error t => (.error (.trapped t), notes)
          | .ok times =>
            let notes := notes.push
              (.info s!"Simulating {s.flows.length} flow(s) for {s.duration}ms")
            match sendAll s config.options times shaper with
            | .error t => (.error (.trapped t), notes)
            | .ok state =>
              (.ok (report s state), notes ++ (finalNotes state.shaper).toArray)

end Simulation

end Shaping
