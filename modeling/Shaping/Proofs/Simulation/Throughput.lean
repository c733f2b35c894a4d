import Shaping.Proofs.Simulation.Balance

/-!
# Intervals that are cut short

An interval begins where the one before it ends, and the last one ends with the experiment.  So if the
duration is no multiple of the interval, the last one is shorter than the others, and the report says so
(`SimulationReport.stopOf`).  But what is counted in an interval is what leaves before a full interval would
be over, and a rate is what is counted per full interval.

So the report is right about every full interval (`SimulationReport.IsReal`), and about one that is cut
short only if nothing leaves between the end of the experiment and the end of a full interval, and if the
rate comes to the same rounded down (`accounts_are_real_iff`).  As a rule it does not: a flow that gets all
its packets through is reported to be slower in the end (`cut_interval_seems_slow`).

What is counted is known for stretches of any length (`Pipeline.bytesLeaving`), which can be put together
(`Pipeline.bytesLeaving_add`).

To compare the two, bytes have to be known for the stretch that is reported and for the one that is counted.
The second is the first and what is missing of the interval, and so their difference is the bytes that leave
in what is missing.  It is zero or it is not, and that is the criterion; nothing needs to be known about how
the packets got there.  Of a rate only the quotient can be compared, since rounding may hide a difference.
-/

set_option autoImplicit false

namespace Shaping

/-! ## Bytes that leave in a stretch of time

A packet that leaves at the time at which one stretch ends and another begins counts for the second.  So
stretches that follow each other share no packets, and the bytes of both are those of the whole. -/

/-- The time in nanoseconds that is so many milliseconds after the beginning. -/
def Schedule.moment (milliseconds : Nat) : Nat := origin.toNat + milliseconds * millisecond.toNat

/-- The packet is one of that flow, it is let go, and it leaves between two times, the second of which is
excluded. -/
def Sending.leavesBetween (u : Pipeline) (flow start stop : Nat) (x : Sending) : Bool :=
  x.turn.index = flow ∧ x.ending u ≠ .dropped ∧
    Schedule.moment start ≤ (x.leaves u).toNat ∧ (x.leaves u).toNat < Schedule.moment stop

/-- The bytes of a flow that leave between two times, in milliseconds. -/
def Pipeline.bytesLeaving (u : Pipeline) (xs : List Sending) (flow start stop : Nat) : Nat :=
  ((xs.filter (·.leavesBetween u flow start stop)).map (·.turn.flow.packetSize.toNat)).sum

theorem Schedule.moment_le {a b : Nat} (h : a ≤ b) : moment a ≤ moment b :=
  Nat.add_le_add_left (Nat.mul_le_mul_right _ h) _

namespace Pipeline

variable (u : Pipeline) (xs : List Sending) (flow : Nat)

theorem bytesLeaving_cons (x : Sending) (start stop : Nat) :
    u.bytesLeaving (x :: xs) flow start stop =
      (if x.leavesBetween u flow start stop then x.turn.flow.packetSize.toNat else 0)
        + u.bytesLeaving xs flow start stop := by
  rw [bytesLeaving, List.filter_cons]
  split
  · rw [List.map_cons, List.sum_cons]
    rfl
  · rw [Nat.zero_add]
    rfl

/-- A stretch of time can be cut in two. -/
theorem bytesLeaving_add {a b c : Nat} (hab : a ≤ b) (hbc : b ≤ c) :
    u.bytesLeaving xs flow a b + u.bytesLeaving xs flow b c = u.bytesLeaving xs flow a c := by
  have hab := Schedule.moment_le hab
  have hbc := Schedule.moment_le hbc
  induction xs with
  | nil => rfl
  | cons x xs ih =>
    rw [bytesLeaving_cons, bytesLeaving_cons, bytesLeaving_cons, ← ih]
    simp only [Sending.leavesBetween, decide_eq_true_eq]
    by_cases hcounts : x.turn.index = flow ∧ x.ending u ≠ .dropped
    · simp only [hcounts.1, hcounts.2, true_and, ne_eq, not_false_eq_true]
      split_ifs <;> omega
    · have hnever : ∀ p : Prop, ¬ (x.turn.index = flow ∧ x.ending u ≠ .dropped ∧ p) :=
        fun p hp => hcounts ⟨hp.1, hp.2.1⟩
      simp only [hnever, if_false]
      omega

theorem bytesLeaving_self (a : Nat) : u.bytesLeaving xs flow a a = 0 := by
  have h := u.bytesLeaving_add xs flow (Nat.le_refl a) (Nat.le_refl a)
  omega

end Pipeline

/-! ## What is reported

The ends of intervals are in the frame of the report, which no turn changes, so they are those of the blank
report. -/

namespace SimulationReport

/-- When an interval ends, in milliseconds. -/
def stopOf (r : SimulationReport) (i : Nat) : Nat := r.intervals[i]?.elim 0 (·.stop.toNat)

/-- When an interval begins, in milliseconds: when the one before it ends. -/
def startOf (r : SimulationReport) : Nat → Nat
  | 0 => 0
  | i + 1 => r.stopOf i

/-- The report is right about a flow in an interval, by the time that the interval took. -/
structure IsReal (r : SimulationReport) (u : Pipeline) (xs : List Sending) (i g : Nat) : Prop where
  /-- The bytes are those that leave in the interval. -/
  bytes : (r.sampleOf i g).admittedBytes.toNat = u.bytesLeaving xs g (r.startOf i) (r.stopOf i)
  /-- The throughput is the bytes per second. -/
  rate : (r.sampleOf i g).admittedBytes.toNat * 1000 < UInt64.size →
    (r.throughput (r.sampleOf i g)).toNat =
      (r.sampleOf i g).admittedBytes.toNat * 1000 / (r.stopOf i - r.startOf i)

/-- A throughput is the bytes per full interval. -/
theorem toNat_throughput (r : SimulationReport) {sample : FlowSample} (hinterval : r.interval ≠ 0)
    (hbytes : sample.admittedBytes.toNat * 1000 < UInt64.size) :
    (r.throughput sample).toNat = sample.admittedBytes.toNat * 1000 / r.interval.toNat := by
  have hpos : 0 < r.interval.toNat := Nat.pos_of_ne_zero fun h => hinterval (UInt64.toNat_inj.mp h)
  have hone : (1 : UInt64).toNat = 1 := rfl
  have hthousand : (1000 : UInt64).toNat = 1000 := rfl
  rw [throughput, UInt64.toNat_div, Word.toNat_mulSat, Word.toNat_max, hone, hthousand,
    Nat.min_eq_left (by omega), Nat.max_eq_left hpos]

end SimulationReport

namespace Simulation

variable {s : Scenario} {i g : Nat}

/-- Every interval begins before the experiment ends. -/
theorem mul_interval_lt (h : i < intervalCount s) : i * s.interval.toNat < s.duration.toNat := by
  have hpos : 0 < s.interval.toNat := by
    by_contra hzero
    rw [intervalCount, Nat.eq_zero_of_not_pos hzero, Nat.div_zero] at h
    exact absurd h (Nat.not_lt_zero i)
  rw [intervalCount, Nat.lt_iff_add_one_le, Nat.le_div_iff_mul_le hpos, Nat.succ_mul] at h
  omega

namespace Concluded

variable {u : Pipeline} {length : UInt64} {start : Shaper} {turns : List Turn} {state : State}

/-- Counted in an interval is what leaves before a full interval is over. -/
theorem admittedBytes_eq (h : Concluded s u length start turns state) (hi : i < intervalCount s)
    (hg : g < s.flows.length) :
    (sampleOf state.intervals i g).admittedBytes.toNat =
      u.bytesLeaving (u.sendings start turns) g (i * s.interval.toNat) ((i + 1) * s.interval.toNat) := by
  have hmoment : ∀ n, Schedule.moment (n * s.interval.toNat)
      = Schedule.origin.toNat + n * s.intervalLength := fun n => by
    rw [Schedule.moment, Scenario.intervalLength, Nat.mul_assoc]
  rw [(h.samples i g _ (h.sampleAt_eq hi hg)).bytes, Pipeline.bytesLeaving]
  refine congrArg (fun ys : List Sending => (ys.map (·.turn.flow.packetSize.toNat)).sum)
    (List.filter_congr fun x hx => ?_)
  have hafter := h.origin_le_leaves hx
  have hplace : placeOf length (x.leaves u) = i ↔
      i ≤ ((x.leaves u).toNat - Schedule.origin.toNat) / s.intervalLength ∧
        ((x.leaves u).toNat - Schedule.origin.toNat) / s.intervalLength < i + 1 := by
    rw [placeOf_eq hafter, h.length_eq]
    omega
  rw [Sending.leavesIn, Sending.leavesBetween, decide_eq_decide, hplace,
    Nat.le_div_iff_mul_le h.length_pos, Nat.div_lt_iff_lt_mul h.length_pos, hmoment, hmoment]
  have hlater : i * s.intervalLength ≤ (i + 1) * s.intervalLength := Nat.mul_le_mul_right _ (Nat.le_succ i)
  constructor
  · rintro ⟨hpasses, ⟨hfrom, huntil⟩, hindex⟩
    exact ⟨hindex, hpasses, by omega, by omega⟩
  · rintro ⟨hindex, hpasses, hfrom, huntil⟩
    exact ⟨hpasses, ⟨by omega, by omega⟩, hindex⟩

/-- The last interval ends with the experiment. -/
theorem stop_eq (h : Concluded s u length start turns state) {interval : IntervalReport}
    (hinterval : state.intervals[i]? = some interval) :
    interval.stop.toNat = min ((i + 1) * s.interval.toNat) s.duration.toNat := by
  have hframe := congrArg (fun l : List (UInt64 × Nat) => l[i]?) h.frame
  have hi : i < intervalCount s := by
    have hsize := (Array.getElem?_eq_some_iff.mp hinterval).1
    rwa [← Array.length_toList, ← List.length_map, ← Simulation.frame, h.frame,
      (frame_blankIntervals s).1] at hsize
  have hduration := s.duration.toNat_lt_size
  simp only [Simulation.frame, List.getElem?_map, Array.getElem?_toList, hinterval, Option.map_some,
    blankIntervals, Array.getElem?_map, Array.getElem?_range, if_pos hi, Option.some_inj,
    Prod.mk.injEq] at hframe
  rw [hframe.1, Word.toNat_clamp]
  omega

end Concluded

section

variable {report : SimulationReport} {config : Config} {shaper : Shaper} {times : Timetable}
  {state : State} {u : Pipeline} {turns : List Turn} {length : UInt64}
  (hexperiment : Experiment s report config shaper times state)

include hexperiment in
theorem Experiment.sampleOf_eq (i g : Nat) : report.sampleOf i g = sampleOf state.intervals i g := by
  rw [SimulationReport.sampleOf, hexperiment.report_eq, Simulation.report, Array.toArray_toList]

include hexperiment in
/-- The ends of the intervals that are reported. -/
theorem Experiment.stopOf_eq (h : Concluded s u length shaper turns state) (hi : i < intervalCount s) :
    report.stopOf i = min ((i + 1) * s.interval.toNat) s.duration.toNat ∧
      report.startOf i = i * s.interval.toNat := by
  have hstop : ∀ j < intervalCount s,
      report.stopOf j = min ((j + 1) * s.interval.toNat) s.duration.toNat := by
    intro j hj
    have hsize : j < state.intervals.size := by
      rwa [← Array.length_toList, ← List.length_map, ← Simulation.frame, h.frame,
        (frame_blankIntervals s).1]
    rw [SimulationReport.stopOf, hexperiment.report_eq, Simulation.report, Array.getElem?_toList,
      Array.getElem?_eq_getElem hsize, Option.elim_some,
      h.stop_eq (Array.getElem?_eq_getElem hsize)]
  refine ⟨hstop i hi, ?_⟩
  cases i with
  | zero => rw [SimulationReport.startOf, Nat.zero_mul]
  | succ i =>
    have hbegins := mul_interval_lt hi
    rw [SimulationReport.startOf, hstop i (Nat.lt_of_succ_lt hi)]
    omega

end

/-- **When the report is right about an interval.**  An interval is reported to end when a full interval would be
over or the experiment is, whichever comes first, and to begin when the one before it ends.  Its bytes are those
that leave before a full interval would be over, and its throughput is its bytes per full interval.  So a full
interval is reported by what leaves in it and by the time that it takes; and one that is cut short is exactly if
nothing leaves in what is missing of it, and if the bytes divided by the shorter time come to the same. -/
theorem accounts_are_real_iff {s : Scenario} {report : SimulationReport} (h : (run s).1 = .ok report) :
    ∃ config shaper times state turns, Experiment s report config shaper times state ∧
      s.Offers turns ∧
      let u : Pipeline := ⟨config.options, .directory⟩
      let sendings := u.sendings shaper turns
      let full (i : Nat) : Nat := (i + 1) * s.interval.toNat
      ∀ i < intervalCount s, ∀ g < s.flows.length,
        let bytes := (report.sampleOf i g).admittedBytes.toNat
        report.startOf i = i * s.interval.toNat ∧
        report.stopOf i = min (full i) s.duration.toNat ∧ report.startOf i < report.stopOf i ∧
        bytes = u.bytesLeaving sendings g (report.startOf i) (full i) ∧
        (bytes * 1000 < UInt64.size →
          (report.throughput (report.sampleOf i g)).toNat = bytes * 1000 / s.interval.toNat) ∧
        (full i ≤ s.duration.toNat → report.IsReal u sendings i g) ∧
        (report.IsReal u sendings i g ↔
          u.bytesLeaving sendings g (report.stopOf i) (full i) = 0 ∧
            (bytes * 1000 < UInt64.size → bytes * 1000 / s.interval.toNat =
              bytes * 1000 / (report.stopOf i - report.startOf i))) := by
  obtain ⟨config, shaper, times, state, hexperiment⟩ := exists_experiment h
  obtain ⟨turns, -, hend⟩ := hexperiment.concluded
  refine ⟨config, shaper, times, state, turns, hexperiment, hend.offers, ?_⟩
  intro u sendings full i hi g hg bytes
  obtain ⟨(hstop : report.stopOf i = min (full i) s.duration.toNat), hstart⟩ :=
    hexperiment.stopOf_eq hend hi
  have hbegins := mul_interval_lt hi
  have hpos := Scenario.toNat_interval_pos hexperiment.interval_ne_zero
  have hfull : full i = i * s.interval.toNat + s.interval.toNat := Nat.succ_mul _ _
  have hshort : report.startOf i < report.stopOf i := by omega
  have hcounted : bytes = u.bytesLeaving sendings g (report.startOf i) (full i) := by
    rw [hstart, ← hend.admittedBytes_eq hi hg, ← hexperiment.sampleOf_eq]
  have hrate : bytes * 1000 < UInt64.size →
      (report.throughput (report.sampleOf i g)).toNat = bytes * 1000 / s.interval.toNat := by
    have hinterval : report.interval = s.interval := by rw [hexperiment.report_eq, Simulation.report]
    intro hsmall
    rw [report.toNat_throughput (hinterval ▸ hexperiment.interval_ne_zero) hsmall, hinterval]
  have hsplit := u.bytesLeaving_add sendings g (Nat.le_of_lt hshort)
    (show report.stopOf i ≤ full i from hstop ▸ Nat.min_le_left _ _)
  have hreal : report.IsReal u sendings i g ↔
      u.bytesLeaving sendings g (report.stopOf i) (full i) = 0 ∧
        (bytes * 1000 < UInt64.size → bytes * 1000 / s.interval.toNat =
          bytes * 1000 / (report.stopOf i - report.startOf i)) := by
    constructor
    · rintro ⟨hbytes, hrate'⟩
      exact ⟨by omega, fun hsmall => (hrate hsmall).symm.trans (hrate' hsmall)⟩
    · rintro ⟨hnone, hsame⟩
      exact ⟨by omega, fun hsmall => (hrate hsmall).trans (hsame hsmall)⟩
  refine ⟨hstart, hstop, hshort, hcounted, hrate, fun hwhole => hreal.mpr ?_, hreal⟩
  rw [hstop, Nat.min_eq_left hwhole]
  exact ⟨u.bytesLeaving_self _ _ _, fun _ => by rw [hstart, hfull, Nat.add_sub_cancel_left]⟩

end Simulation

/-! ## Cases -/

/-- Where everybody is let through at once, bytes leave when they are sent. -/
theorem Pipeline.bytesLeaving_of_blank (options : ShapingOptions) {s : Shaper}
    (haddresses : ∀ key, s.directory.get? key = none) (hplans : ∀ d, (s.lane d).plan.configured = false)
    (turns : List Turn) (g start stop : Nat) :
    let u : Pipeline := ⟨options, .directory⟩
    u.bytesLeaving (u.sendings s turns) g start stop
      = ((turns.filter fun t => t.index = g ∧ Schedule.moment start ≤ t.time.toNat ∧
          t.time.toNat < Schedule.moment stop).map (·.flow.packetSize.toNat)).sum := by
  intro u
  conv_rhs => rw [← u.turn_sendings s turns, List.filter_map, List.map_map]
  refine congrArg (fun ys : List Sending => (ys.map (·.turn.flow.packetSize.toNat)).sum)
    (List.filter_congr fun x hx => ?_)
  obtain ⟨hpass, hleaves⟩ := sendings_of_blank options haddresses hplans turns x hx
  have hending := (x.ending_ne_dropped_iff u).mpr hpass
  rw [Sending.leavesBetween, hleaves]
  simp [hending]

namespace ShortExperiment

open Simulation

/-- Nobody is held up. -/
theorem bytesLeaving (g start stop : Nat) :
    let u : Pipeline := ⟨config.options, .directory⟩
    u.bytesLeaving (u.sendings (.empty 1) turns) g start stop
      = ((turns.filter fun t => t.index = g ∧ Schedule.moment start ≤ t.time.toNat ∧
          t.time.toNat < Schedule.moment stop).map (·.flow.packetSize.toNat)).sum :=
  Pipeline.bytesLeaving_of_blank config.options (OpenTable.get?_empty 1)
    (fun d => by cases d <;> rfl) turns g start stop

/-- What is reported about the steady flow in the last interval. -/
theorem exists_cut_interval : ∃ report, (run scenario).1 = .ok report ∧ report.interval = 2 ∧
    report.startOf 1 = 2 ∧ report.stopOf 1 = 3 ∧ (report.sampleOf 1 0).admittedBytes = 1000 := by
  obtain ⟨report, hreport⟩ := exists_report (by decide) rfl checked loaded timetable taken (by decide)
  obtain ⟨config', shaper, times', state, hexperiment⟩ := exists_experiment hreport
  obtain ⟨turns', -, hend⟩ := hexperiment.concluded
  obtain ⟨notes, hcheck⟩ := hexperiment.checked
  cases checked.symm.trans hcheck
  cases loaded.symm.trans hexperiment.loaded
  cases hend.offers.unique (offers_of_taken timetable taken)
  obtain ⟨hstop, hstart⟩ := hexperiment.stopOf_eq hend (i := 1) (by decide)
  have hbytes := hend.admittedBytes_eq (i := 1) (g := 0) (by decide) (by decide)
  rw [bytesLeaving, ← hexperiment.sampleOf_eq] at hbytes
  exact ⟨report, hreport, congrArg SimulationReport.interval hexperiment.report_eq, hstart, hstop,
    UInt64.toNat_inj.mp (hbytes.trans (by decide))⟩

end ShortExperiment

section

open Simulation ShortExperiment

/-- The steady flow sends two packets in the first two milliseconds and one in the third, and the rates of both
intervals are those of two milliseconds. -/
theorem Simulation.accounts_are_real_iff_of_two : ∃ report, (run scenario).1 = .ok report ∧
    report.stopOf 0 = 2 ∧ (report.throughput (report.sampleOf 0 0)).toNat = 1000000 ∧
    report.stopOf 1 = 3 ∧ (report.throughput (report.sampleOf 1 0)).toNat = 500000 := by
  obtain ⟨report, hreport⟩ := exists_report (by decide) rfl checked loaded timetable taken (by decide)
  obtain ⟨config', shaper, times', state, turns', hexperiment, hoffers, hintervals⟩ :=
    accounts_are_real_iff hreport
  obtain ⟨notes, hcheck⟩ := hexperiment.checked
  cases checked.symm.trans hcheck
  cases loaded.symm.trans hexperiment.loaded
  cases hoffers.unique (offers_of_taken timetable taken)
  obtain ⟨hstart, hstop, -, hbytes, hrate, -⟩ := hintervals 0 (by decide) 0 (by decide)
  obtain ⟨hstart', hstop', -, hbytes', hrate', -⟩ := hintervals 1 (by decide) 0 (by decide)
  rw [hstart, bytesLeaving] at hbytes
  rw [hstart', bytesLeaving] at hbytes'
  rw [hbytes] at hrate
  rw [hbytes'] at hrate'
  exact ⟨report, hreport, hstop, (hrate (by decide)).trans (by decide), hstop',
    (hrate' (by decide)).trans (by decide)⟩

/-- A throughput is not always that of the time that the interval took. -/
theorem Simulation.cut_interval_seems_slow :
    ¬ ∀ (s : Scenario) (report : SimulationReport), (run s).1 = .ok report →
      ∀ i < intervalCount s, ∀ g < s.flows.length,
        (report.sampleOf i g).admittedBytes.toNat * 1000 < UInt64.size →
          (report.throughput (report.sampleOf i g)).toNat =
            (report.sampleOf i g).admittedBytes.toNat * 1000 / (report.stopOf i - report.startOf i) := by
  intro hreal
  obtain ⟨report, hreport, hinterval, hstart, hstop, hbytes⟩ := exists_cut_interval
  have hrate := hreal scenario report hreport 1 (by decide) 0 (by decide) (by rw [hbytes]; decide)
  rw [SimulationReport.throughput, hinterval, hstart, hstop, hbytes] at hrate
  exact absurd hrate (by decide)

end

end Shaping
