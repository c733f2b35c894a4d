import Shaping.Proofs.Control.Teardown
import Shaping.Proofs.Shaper.FailOpen
import Shaping.Proofs.Simulation.Offered
import Mathlib.Algebra.BigOperators.Ring.Finset
import Mathlib.Algebra.Group.Action.Defs

/-!
# The report balances

A packet is counted in the interval in which it is sent, and its bytes in the one in which it leaves, which
may be a later one or none at all.  Meanwhile the shaper counts it as well, for its direction and without
regard to intervals.  So there are two accounts of the same packets, and they agree.

Both are counts of the same list, the sendings of the experiment.  A sample counts those of one flow in one
interval, and the sendings of several flows and intervals are counted by adding up (`List.sum_countP`);
every packet is sent in one of the intervals.  The counters of a direction are the postings of its packets
(`Pipeline.read_after`), of which each column of the report has a heading (`Posting.total_heading`).

A direct proof that the two accounts agree would follow them through the run side by side, and say after
each turn how much the sums have grown.  But each of them is known to be a count already, so no more
induction over turns is needed.  What is left is to rearrange counts, which is a matter of sums over finite
sets.

Room has to be left for two things.  Bytes that leave behind the last interval are in no sample, so the sum
of bytes is over the packets that leave before.  And the counters of the shaper are words, while a sum of
samples is a number; they agree modulo the size of a word, and exactly if there are not too many turns.
-/

set_option autoImplicit false

namespace List

variable {α β : Type} [DecidableEq β]

/-- What is counted place by place. -/
theorem sum_countP (S : Finset β) (place : α → β) (p : α → Bool) (xs : List α) :
    ∑ b ∈ S, xs.countP (fun x => place x = b && p x) = xs.countP fun x => place x ∈ S && p x := by
  induction xs with
  | nil => simp
  | cons x xs ih =>
    simp only [countP_cons, Finset.sum_add_distrib, ih, Nat.add_left_cancel_iff]
    cases p x <;> simp

end List

namespace Shaping

/-! ## The accounts of directions

The shaper has its counters from the loading of the configuration, and they are at zero then, since no call
changes them.  So they count what the experiment has sent and nothing else. -/

/-- The heading under which the counters have what is in a column. -/
def Column.heading : Column → Heading
  | .sent => .packets
  | .dropped => .droppedPackets
  | .paced => .pacedPackets

theorem Posting.total_heading (c : Column) (ps : List Posting) :
    total c.heading ps = ps.countP fun p => c.counts p.ending := by
  cases c with
  | sent => simp [total, Column.heading, entry, Column.counts]
  | dropped => exact count_of_ending (fun _ => rfl) ps
  | paced => exact count_of_ending (fun _ => rfl) ps

/-- The postings to the account of a direction are the ends of its packets. -/
theorem Pipeline.countP_postings (u : Pipeline) (d : Direction) (p : Ending → Bool) (xs : List Sending) :
    (((xs.map (·.passage)).filterMap (·.posting? u (.lane d))).countP fun q => p q.ending)
      = xs.countP fun x => x.turn.flow.direction = d && p (x.ending u) := by
  have hposting : ∀ x : Sending, x.passage.posting? u (.lane d) =
      if x.turn.flow.direction = d then some ⟨x.turn.flow.packetSize, x.ending u⟩ else none := by
    intro x
    rw [Sending.ending, ← Simulation.max_zero x.turn.time]
    rfl
  induction xs with
  | nil => rfl
  | cons x xs ih =>
    rw [List.map_cons, List.filterMap_cons, hposting, List.countP_cons, ← ih]
    by_cases hd : x.turn.flow.direction = d <;> simp [hd, List.countP_cons]

/-- The counters are those that are loaded until a packet comes. -/
theorem Config.counters_of_load {c : Config} {s : Shaper} (h : c.load.1 = .ok s) (d : Direction) :
    (s.lane d).counters = .zero := by
  have hempty : ((Shaper.empty c.options.maxEntries.toNat).lane d).counters = .zero := by
    cases d <;> rfl
  have hcall := (Shaper.stable_counters d .zero).call hempty (.apply c)
  rwa [((load_eq_ok_iff c).mp h).2] at hcall

/-! ## The accounts of flows

Samples are read with a default, so that sums can run over all places of flows and intervals without a
condition.  Where there is a flow and an interval there is a sample, and elsewhere nothing is added. -/

/-- The sample of a flow in an interval, which is one of nothing if there are no such. -/
def Simulation.sampleOf (intervals : Array IntervalReport) (interval flow : Nat) : FlowSample :=
  (sampleAt intervals interval flow).getD .zero

/-- What a report says about a flow in an interval. -/
def SimulationReport.sampleOf (r : SimulationReport) (interval flow : Nat) : FlowSample :=
  Simulation.sampleOf r.intervals.toArray interval flow

/-- The places of the flows of a direction. -/
def Scenario.flowsIn (s : Scenario) (d : Direction) : Finset Nat :=
  (Finset.range s.flows.length).filter fun g => (s.flows[g]?).map (·.direction) = some d

theorem Scenario.mem_flowsIn {s : Scenario} {g : Nat} {f : Flow} (hf : s.flows[g]? = some f)
    (d : Direction) : g ∈ s.flowsIn d ↔ f.direction = d := by
  rw [flowsIn, Finset.mem_filter, Finset.mem_range, hf, Option.map_some, Option.some_inj]
  exact and_iff_right (List.getElem?_eq_some_iff.mp hf).1

/-- No packet ends in two ways. -/
theorem Column.countP_dropped_add_paced_le {α : Type} (p : α → Bool) (ending : α → Ending) (xs : List α) :
    xs.countP (fun x => p x && Column.dropped.counts (ending x))
        + xs.countP (fun x => p x && Column.paced.counts (ending x))
      ≤ xs.countP fun x => p x && Column.sent.counts (ending x) := by
  induction xs with
  | nil => simp
  | cons x xs ih =>
    simp only [List.countP_cons]
    cases p x <;> cases ending x <;> simp [Column.counts] at ih ⊢ <;> omega

theorem Sending.ending_ne_dropped_iff (u : Pipeline) (x : Sending) :
    x.ending u ≠ .dropped ↔ x.passage.passes u = true := by
  have hverdict : x.passage.passes u = decide ((x.passage.outcome u).verdict = .pass) := rfl
  rw [hverdict, ending, Outcome.ending]
  cases (x.passage.outcome u).verdict with
  | drop => simp
  | pass =>
    dsimp only
    split <;> simp

namespace Simulation

namespace Concluded

variable {s : Scenario} {u : Pipeline} {length : UInt64} {start : Shaper} {turns : List Turn}
  {state : State} {x : Sending} {g : Nat} {f : Flow}

theorem mem_turns (hx : x ∈ u.sendings start turns) : x.turn ∈ turns := by
  rw [← u.turn_sendings start turns]
  exact List.mem_map_of_mem hx

/-- Packets are those of flows. -/
theorem flow_eq (h : Concluded s u length start turns state) (hx : x ∈ u.sendings start turns) :
    s.flows[x.turn.index]? = some x.turn.flow := by
  obtain ⟨k, hflow, -⟩ := (h.offers.mem_iff x.turn).mp (mem_turns hx)
  exact hflow

/-- No packet leaves before it is sent. -/
theorem origin_le_leaves (h : Concluded s u length start turns state) (hx : x ∈ u.sendings start turns) :
    Schedule.origin.toNat ≤ (x.leaves u).toNat := by
  have hsent := (h.offers.time_lt (mem_turns hx)).1
  rw [Sending.leaves, Passage.leaves, Word.toNat_max]
  exact Nat.le_trans hsent (Nat.le_max_right _ _)

/-- There is a sample for every flow in every interval. -/
theorem sampleAt_eq (h : Concluded s u length start turns state) {i : Nat} (hi : i < intervalCount s)
    (hg : g < s.flows.length) : sampleAt state.intervals i g = some (sampleOf state.intervals i g) := by
  have hframe := frame_blankIntervals s
  rw [← h.frame, Simulation.frame, List.length_map, Array.length_toList] at hframe
  have hsize : i < state.intervals.size := hframe.1 ▸ hi
  have hflows : state.intervals[i].flows.size = s.flows.length :=
    hframe.2 _ (List.mem_map_of_mem (Array.mem_toList_iff.mpr (Array.getElem_mem hsize)))
  rw [sampleOf, sampleAt, Array.getElem?_eq_getElem hsize, Option.bind_some,
    Array.getElem?_eq_getElem (hflows ▸ hg), Option.getD_some]

/-- **No packet is both dropped and paced.** -/
theorem dropped_add_paced_le (h : Concluded s u length start turns state) (i g : Nat) :
    (sampleOf state.intervals i g).dropped.toNat + (sampleOf state.intervals i g).paced.toNat
      ≤ (sampleOf state.intervals i g).sent.toNat := by
  rw [sampleOf]
  cases hsample : sampleAt state.intervals i g with
  | none => exact Nat.le_refl 0
  | some sample =>
    have hcounts := Column.countP_dropped_add_paced_le (·.sentIn length i g) (·.ending u)
      (u.sendings start turns)
    rwa [← h.toNat_read hsample, ← h.toNat_read hsample, ← h.toNat_read hsample] at hcounts

/-- **The bytes of a flow** in an interval are those of its packets that leave in it. -/
theorem bytes_eq (h : Concluded s u length start turns state) (hf : s.flows[g]? = some f) {i : Nat}
    (hi : i < intervalCount s) :
    (sampleOf state.intervals i g).admittedBytes.toNat =
      f.packetSize.toNat * (u.sendings start turns).countP fun x =>
        ((x.leaves u).toNat - Schedule.origin.toNat) / s.intervalLength = i &&
          (x.turn.index = g && x.passage.passes u) := by
  have hleaves : ∀ x ∈ u.sendings start turns, x.leavesIn u length i g = true ↔
      (((x.leaves u).toNat - Schedule.origin.toNat) / s.intervalLength = i &&
        (x.turn.index = g && x.passage.passes u)) = true := by
    intro x hx
    rw [Sending.leavesIn, decide_eq_true_eq, x.ending_ne_dropped_iff, placeOf_eq (h.origin_le_leaves hx),
      h.length_eq]
    simp only [Bool.and_eq_true, decide_eq_true_eq]
    tauto
  have hsample := h.sampleAt_eq hi (List.getElem?_eq_some_iff.mp hf).1
  rw [(h.samples i g _ hsample).bytes, List.sum_eq_card_nsmul _ f.packetSize.toNat, List.length_map,
    ← List.countP_eq_length_filter, List.countP_congr hleaves, smul_eq_mul, Nat.mul_comm]
  intro size hsize
  obtain ⟨x, hx, rfl⟩ := List.mem_map.mp hsize
  rw [List.mem_filter, Sending.leavesIn, decide_eq_true_eq] at hx
  have hflow := h.flow_eq hx.1
  rw [hx.2.2.2, hf, Option.some_inj] at hflow
  rw [hflow]

/-- In all intervals, they are those of its packets that leave before the end of the last one. -/
theorem sum_bytes (h : Concluded s u length start turns state) (hf : s.flows[g]? = some f) :
    ∑ i ∈ Finset.range (intervalCount s), (sampleOf state.intervals i g).admittedBytes.toNat =
      f.packetSize.toNat * (u.sendings start turns).countP fun x =>
        (x.leaves u).toNat < s.boundary (intervalCount s) &&
          (x.turn.index = g && x.passage.passes u) := by
  rw [Finset.sum_congr rfl fun i hi => h.bytes_eq hf (Finset.mem_range.mp hi), ← Finset.mul_sum,
    List.sum_countP]
  refine congrArg _ (List.countP_congr fun x hx => ?_)
  have hafter := h.origin_le_leaves hx
  have hbefore : ((x.leaves u).toNat - Schedule.origin.toNat) / s.intervalLength
      ∈ Finset.range (intervalCount s) ↔ (x.leaves u).toNat < s.boundary (intervalCount s) := by
    rw [Finset.mem_range, Nat.div_lt_iff_lt_mul h.length_pos, Scenario.boundary]
    omega
  simp only [hbefore]

/-- **The account of a direction is the sum of the accounts of its flows.** -/
theorem sum_read (h : Concluded s u length start turns state) (d : Direction) (c : Column) :
    ∑ g ∈ s.flowsIn d, ∑ i ∈ Finset.range (intervalCount s), ((sampleOf state.intervals i g).read c).toNat
      = (u.sendings start turns).countP fun x =>
          x.turn.flow.direction = d && c.counts (x.ending u) := by
  have hread : ∀ g ∈ s.flowsIn d, ∀ i ∈ Finset.range (intervalCount s),
      ((sampleOf state.intervals i g).read c).toNat
        = (u.sendings start turns).countP fun x => placeOf length x.turn.time = i &&
          (x.turn.index = g && c.counts (x.ending u)) := by
    intro g hg i hi
    rw [h.toNat_read (h.sampleAt_eq (Finset.mem_range.mp hi)
      (Finset.mem_range.mp (Finset.mem_filter.mp hg).1))]
    simp only [Sending.sentIn, Bool.decide_and, Bool.and_assoc]
  rw [Finset.sum_congr rfl fun g hg => Finset.sum_congr rfl (hread g hg)]
  simp only [List.sum_countP (Finset.range (intervalCount s))
    fun x : Sending => placeOf length x.turn.time]
  calc
    _ = ∑ g ∈ s.flowsIn d, (u.sendings start turns).countP fun x =>
          x.turn.index = g && c.counts (x.ending u) :=
      Finset.sum_congr rfl fun g _ => List.countP_congr fun x hx => by
        simp [h.placeOf_lt x.turn (mem_turns hx)]
    _ = _ := by
      rw [List.sum_countP]
      exact List.countP_congr fun x hx => by simp only [Scenario.mem_flowsIn (h.flow_eq hx)]

/-- The counters at the end are counts of the sendings. -/
theorem read_counters (h : Concluded s u length start turns state)
    (hstart : start.Reachable) {d : Direction} (hfresh : (start.lane d).counters = .zero) (c : Column) :
    (state.shaper.lane d).counters.read c.heading = .ofNat ((u.sendings start turns).countP fun x =>
      x.turn.flow.direction = d && c.counts (x.ending u)) := by
  have hevents : turns.map (·.event) = Pipeline.arrivals (turns.map fun t => (t.flow.packet, t.time)) := by
    rw [Pipeline.arrivals, List.map_map]
    rfl
  have hzero : (Counters.zero).read c.heading = 0 := by cases c <;> rfl
  obtain ⟨counters, hcounters, hread⟩ := u.read_after (turns.map fun t => (t.flow.packet, t.time))
    hstart.wellFormed (a := .lane d) (congrArg some hfresh)
  rw [← hevents, ← h.shaper] at hcounters
  cases hcounters
  rw [hread, hzero, UInt64.zero_add, Posting.total_heading, ← hevents, u.passages_eq, u.countP_postings]

end Concluded

/-! ## The balance -/

/-- **The report balances.**  Of what is sent of a flow in an interval, no packet is both dropped and paced.  The
bytes of a flow are the size of a packet, once for each of its packets that is let go and leaves before the last
interval ends, in the interval in which it leaves.  And what is counted of the flows of a direction in all
intervals is what the shaper has counted for the direction, which counts modulo the size of a word. -/
theorem report_balances {s : Scenario} {report : SimulationReport} (h : (run s).1 = .ok report) :
    ∃ config shaper times state turns, Experiment s report config shaper times state ∧
      s.Offers turns ∧
      let u : Pipeline := ⟨config.options, .directory⟩
      let sendings := u.sendings shaper turns
      state.shaper = u.after shaper (turns.map (·.event)) ∧
      report.intervals.length = intervalCount s ∧
      (∀ i g, (report.sampleOf i g).dropped.toNat + (report.sampleOf i g).paced.toNat
        ≤ (report.sampleOf i g).sent.toNat) ∧
      (∀ g f, s.flows[g]? = some f →
        (∀ i < intervalCount s, (report.sampleOf i g).admittedBytes.toNat = f.packetSize.toNat *
          sendings.countP fun x =>
            ((x.leaves u).toNat - Schedule.origin.toNat) / s.intervalLength = i &&
              (x.turn.index = g && x.passage.passes u)) ∧
        ∑ i ∈ Finset.range (intervalCount s), (report.sampleOf i g).admittedBytes.toNat =
          f.packetSize.toNat * sendings.countP fun x =>
            (x.leaves u).toNat < s.boundary (intervalCount s) &&
              (x.turn.index = g && x.passage.passes u)) ∧
      ∀ d c, let total := ∑ g ∈ s.flowsIn d, ∑ i ∈ Finset.range (intervalCount s),
          ((report.sampleOf i g).read c).toNat
        (state.shaper.lane d).counters.read c.heading = .ofNat total ∧
          (turns.length < UInt64.size →
            ((state.shaper.lane d).counters.read c.heading).toNat = total) := by
  obtain ⟨config, shaper, times, state, hexperiment⟩ := exists_experiment h
  obtain ⟨turns, -, hend⟩ := hexperiment.concluded
  have hintervals : report.intervals.toArray = state.intervals := by
    rw [hexperiment.report_eq, Simulation.report, Array.toArray_toList]
  simp only [SimulationReport.sampleOf, hintervals]
  refine ⟨config, shaper, times, state, turns, hexperiment, hend.offers, hend.shaper, ?_,
    hend.dropped_add_paced_le, fun g f hf => ⟨fun i hi => hend.bytes_eq hf hi, hend.sum_bytes hf⟩,
    fun d c => ?_⟩
  · rw [← List.size_toArray, hintervals, ← (frame_blankIntervals s).1, ← hend.frame, frame,
      List.length_map, Array.length_toList]
  · rw [hend.sum_read, hend.read_counters (Config.reachable_of_load hexperiment.loaded)
      (Config.counters_of_load hexperiment.loaded d)]
    refine ⟨rfl, fun hfew => UInt64.toNat_ofNat_of_lt' (Nat.lt_of_le_of_lt List.countP_le_length ?_)⟩
    rwa [← List.length_map (·.turn), Pipeline.turn_sendings]

end Simulation

/-! ## Cases -/

/-- Where nobody is known and nothing is planned everybody is let through. -/
theorem Pipeline.sendings_of_blank (options : ShapingOptions) {s : Shaper}
    (haddresses : ∀ key, s.directory.get? key = none) (hplans : ∀ d, (s.lane d).plan.configured = false)
    (turns : List Turn) :
    ∀ x ∈ (⟨options, .directory⟩ : Pipeline).sendings s turns,
      x.passage.passes ⟨options, .directory⟩ = true ∧ x.leaves ⟨options, .directory⟩ = x.turn.time := by
  induction turns generalizing s with
  | nil => exact fun x hx => absurd hx List.not_mem_nil
  | cons t turns ih =>
    refine List.forall_mem_cons.mpr ⟨?_, ih (fun key => ?_) fun d => ?_⟩
    · have hnobody : (⟨s, t.flow.packet, t.time⟩ : Passage).entity? ⟨options, .directory⟩ = none := by
        rw [Passage.entity?, Passage.owner]
        cases t.flow.packet.localAddress? with
        | none => rfl
        | some a =>
          show ((s.directory.resolve a).map (·.entity)) = none
          rw [Directory.resolve, haddresses, Option.map_none]
      obtain ⟨hpass, hpacket, -⟩ := (Shaper.fails_open ⟨options, .directory⟩
        ⟨s, t.flow.packet, t.time⟩).1 (.ungated (fun e state he => by rw [hnobody] at he; cases he)
          (.inr (hplans t.flow.direction)))
      refine ⟨decide_eq_true hpass, ?_⟩
      rw [Sending.leaves, Passage.leaves, Sending.passage, hpacket]
      exact Simulation.max_zero _
    · rw [Turn.event, Pipeline.directory_packet]
      exact haddresses key
    · rw [Turn.event, Pipeline.plan_packet]
      exact hplans d

/-- What leaves before a time is then what is sent before it. -/
theorem Pipeline.countP_of_blank (options : ShapingOptions) {s : Shaper}
    (haddresses : ∀ key, s.directory.get? key = none) (hplans : ∀ d, (s.lane d).plan.configured = false)
    (turns : List Turn) (stop g : Nat) :
    let u : Pipeline := ⟨options, .directory⟩
    ((u.sendings s turns).countP fun x =>
        (x.leaves u).toNat < stop && (x.turn.index = g && x.passage.passes u))
      = turns.countP fun t => t.time.toNat < stop && t.index = g := by
  intro u
  rw [← u.countP_sendings s]
  refine List.countP_congr fun x hx => ?_
  obtain ⟨hpass, hleaves⟩ := sendings_of_blank options haddresses hplans turns x hx
  rw [hpass, hleaves, Bool.and_true]

section

open Simulation ShortExperiment

/-- The steady flow gets its three packets through, and the shaper has counted the four packets of both flows. -/
theorem Simulation.report_balances_of_two : ∃ report state, (run scenario).1 = .ok report ∧
    sendAll scenario config.options times (.empty 1) = .ok state ∧
    (report.sampleOf 0 0).admittedBytes.toNat + (report.sampleOf 1 0).admittedBytes.toNat = 3000 ∧
    (state.shaper.lane .ingress).counters.packetsTotal.toNat =
      (report.sampleOf 0 0).sent.toNat + (report.sampleOf 1 0).sent.toNat +
        ((report.sampleOf 0 1).sent.toNat + (report.sampleOf 1 1).sent.toNat) := by
  obtain ⟨report, hreport⟩ := exists_report (by decide) rfl checked loaded timetable taken (by decide)
  obtain ⟨config', shaper, times', state, turns', hexperiment, hoffers, -, -, -, hbytes, hcounters⟩ :=
    report_balances hreport
  obtain ⟨notes, hcheck⟩ := hexperiment.checked
  cases checked.symm.trans hcheck
  cases loaded.symm.trans hexperiment.loaded
  cases timetable.symm.trans hexperiment.timetable
  cases hoffers.unique (offers_of_taken timetable taken)
  have hintervals : intervalCount scenario = 2 := by decide
  have hflows : scenario.flowsIn .ingress = Finset.range 2 := by decide
  refine ⟨report, state, hreport, hexperiment.carriedOut, ?_, ?_⟩
  · have hsum := (hbytes 0 flow rfl).2
    rw [Pipeline.countP_of_blank config.options (fun key => OpenTable.get?_empty 1 key)
      (fun d => by cases d <;> rfl), hintervals, Finset.sum_range_succ, Finset.sum_range_one] at hsum
    exact hsum.trans (by decide)
  · have hcounted := (hcounters .ingress .sent).2 (by decide)
    rwa [hflows, hintervals, Finset.sum_range_succ, Finset.sum_range_one, Finset.sum_range_succ,
      Finset.sum_range_one, Finset.sum_range_succ, Finset.sum_range_one] at hcounted

end

end Shaping
