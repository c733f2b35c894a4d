import Shaping.Proofs.Control.Configured
import Shaping.Proofs.Packet.Headers
import Shaping.Proofs.Simulation.Course
import Shaping.Proofs.Simulation.Turns
import Mathlib.Algebra.Order.BigOperators.Group.List
import Mathlib.Data.Set.Card

/-!
# What an experiment offers

A scenario says which packets are offered to the shaper: every flow sends its packets one gap after the
other from its start on, until it stops or the experiment ends (`Flow.Sends`).  This does not depend on what
becomes of the packets, nor on the other flows.

An experiment that comes to a report has offered just these packets, in the order of times and, at the same
time, in the order of flows (`Scenario.Offers`).  So the packets that the report counts as sent can be
computed without running anything, and the caps that it gives for an interval are the ones after the packets
that come before the end of the interval (`Simulation.offers_the_schedule`).

What is counted as sent of a flow could be found by following the report through the run, but there the
flows come by turns.  It is easier to know the list of turns and to count in it.  The list is given by the
scenario, up to its order, and the order is strict, so there is only one such list
(`Scenario.Offers.unique`).  Whatever is counted of a flow is then the size of a set of numbers, those of
the packets that it sends, which has nothing to do with lists or with words (`Scenario.Offers.encard_eq`).
-/

set_option autoImplicit false

namespace Shaping

/-! ## Scenarios and experiments

An experiment has come to its report through several steps, each of which could have ended it.  They are
taken apart once, and their results kept together, so that the theorem can speak of the configuration, the
shaper and the timetable without computing them again. -/

namespace Scenario

variable (s : Scenario)

/-- The nanoseconds of an interval. -/
def intervalLength : Nat := s.interval.toNat * millisecond.toNat

/-- When an interval begins. -/
def boundary (i : Nat) : Nat := Schedule.origin.toNat + i * s.intervalLength

variable {s} in
theorem toNat_interval_pos (h : s.interval ≠ 0) : 0 < s.interval.toNat :=
  Nat.pos_of_ne_zero fun hzero => h (UInt64.toNat_inj.mp hzero)

variable {s} in
theorem intervalLength_pos (h : s.interval ≠ 0) : 0 < s.intervalLength :=
  Nat.mul_pos (toNat_interval_pos h) (by decide)

/-- The turns of a scenario: every packet that a flow sends, in the order of times, and at the same time in the
order of flows. -/
structure Offers (turns : List Turn) : Prop where
  sorted : turns.Pairwise fun a b => a.time < b.time ∨ a.time = b.time ∧ a.index < b.index
  mem_iff : ∀ t, t ∈ turns ↔ ∃ k, s.flows[t.index]? = some t.flow ∧ t.flow.Sends s.duration k ∧
    t.time.toNat = t.flow.sendTime k

end Scenario

namespace Simulation

/-- How an experiment came to its report. -/
structure Experiment (s : Scenario) (report : SimulationReport) (config : Config) (shaper : Shaper)
    (times : Timetable) (state : State) : Prop where
  checked : ∃ notes, s.config.check = (.ok (), config, notes)
  loaded : config.load.1 = .ok shaper
  timetable : Timetable.of s = .ok times
  carriedOut : sendAll s config.options times shaper = .ok state
  report_eq : report = Simulation.report s state
  interval_ne_zero : s.interval ≠ 0

theorem exists_experiment {s : Scenario} {report : SimulationReport} (h : (run s).1 = .ok report) :
    ∃ config shaper times state, Experiment s report config shaper times state := by
  rw [run] at h
  split at h
  · cases h
  rename_i hinterval
  split at h
  · cases h
  cases htimes : Timetable.of s with
  | error trap =>
    rw [htimes] at h
    split at h
    · cases h
    · split at h
      · cases h
      · cases h
  | ok times =>
    rw [htimes] at h
    split at h
    · cases h
    · rename_i config notes hcheck
      split at h
      · cases h
      · rename_i shaper more hload
        dsimp only at h
        split at h
        · cases h
        · rename_i state hsend
          cases h
          exact ⟨config, shaper, times, state, ⟨notes, hcheck⟩, by rw [hload], htimes, hsend, rfl,
            hinterval⟩

/-! ## The timetable

The turns that are taken were described by the schedule that they come from.  Here the schedule is that of a
scenario, whose first turns are the starts of its flows, and so a turn that follows one of them by some gaps
is a packet that the flow sends. -/

/-- The times of a scenario as numbers. -/
theorem timetable_eq_ok {s : Scenario} {times : Timetable} (h : Timetable.of s = .ok times) :
    times.intervalLength.toNat = s.intervalLength ∧
      times.stop.toNat = Schedule.instant s.duration ∧
      Schedule.ofFlows 0 s.flows = .ok times.schedule := by
  rw [Timetable.of] at h
  cases hlength : Word.mul s.interval millisecond with
  | error trap =>
    rw [hlength] at h
    cases h
  | ok length =>
    rw [hlength] at h
    cases hstop : Schedule.timeOf s.duration with
    | error trap =>
      rw [hstop] at h
      cases h
    | ok stop =>
      rw [hstop] at h
      cases hschedule : Schedule.ofFlows 0 s.flows with
      | error trap =>
        rw [hschedule] at h
        cases h
      | ok schedule =>
        rw [hschedule] at h
        cases h
        rw [Word.mul, Word.exact_eq_ok_iff] at hlength
        exact ⟨by rw [hlength, Scenario.intervalLength], Schedule.timeOf_eq_ok_iff.mp hstop, rfl⟩

/-- **The turns that are taken are those of the scenario.** -/
theorem offers_of_taken {s : Scenario} {times : Timetable} (h : Timetable.of s = .ok times)
    {turns : List Turn} (htaken : Schedule.Taken times.stop times.schedule turns) :
    s.Offers turns := by
  obtain ⟨-, hstop, hschedule⟩ := timetable_eq_ok h
  obtain ⟨hordered, hfirst⟩ := Schedule.ofFlows_eq_ok hschedule
  refine ⟨(htaken.sorted hordered).imp fun {a b} hbefore => ?_, fun t => ?_⟩
  · simpa [Turn.before] using hbefore
  · rw [htaken.mem_iff hordered]
    constructor
    · rintro ⟨hdue, u, hu, k, hindex, hflow, htime⟩
      obtain ⟨-, hflow', htime'⟩ := (hfirst u).mp hu
      have hsent : t.time.toNat = t.flow.sendTime k := by
        rw [htime, htime', hflow, Flow.sendTime_zero, Flow.sendTime]
      refine ⟨k, ?_, ⟨?_, fun ms hms => ?_⟩, hsent⟩
      · rw [hindex, hflow]
        exact hflow'
      · rw [← hsent, ← hstop]
        exact hdue.1
      · rw [← hsent]
        exact hdue.2 ms hms
    · rintro ⟨k, hflow, hsends, htime⟩
      -- the flow is there, and so its first turn was scheduled
      obtain ⟨first, hfirst'⟩ : ∃ first : UInt64, first.toNat = t.flow.sendTime 0 := by
        refine ⟨.ofNat _, UInt64.toNat_ofNat_of_lt' ?_⟩
        have hend := times.stop.toNat_lt_size
        have hlt := hsends.1
        rw [Flow.sendTime] at hlt
        rw [Flow.sendTime_zero]
        omega
      refine ⟨⟨by rw [htime, hstop]; exact hsends.1, fun ms hms => by rw [htime]; exact hsends.2 ms hms⟩,
        ⟨first, t.index, t.flow⟩, (hfirst _).mpr ⟨Nat.zero_le _, hflow, hfirst'⟩, k, rfl, rfl, ?_⟩
      rw [htime, hfirst', Flow.sendTime_zero, Flow.sendTime]

end Simulation

/-! ## Counting turns

To compare a list of turns with a set of packets one maps both to times.  Different packets of a flow are
sent at different times, as its gap is at least one nanosecond, and so are different turns.  Times are words
before the end; hence there are fewer turns of a flow than words, and a count of them never wraps
(`countP_lt`). -/

namespace Scenario.Offers

variable {s : Scenario} {turns : List Turn}

/-- **The turns are determined by the scenario.** -/
theorem unique {turns' : List Turn} (h : s.Offers turns) (h' : s.Offers turns') : turns = turns' := by
  have hnodup : ∀ {l : List Turn}, s.Offers l → l.Nodup := fun hl => hl.sorted.imp fun {a b} hbefore heq => by
    subst heq
    exact hbefore.elim (UInt64.lt_irrefl _) fun hindex => Nat.lt_irrefl _ hindex.2
  have hperm : turns.Perm turns' := (List.perm_ext_iff_of_nodup (hnodup h) (hnodup h')).mpr fun t => by
    rw [h.mem_iff, h'.mem_iff]
  refine hperm.eq_of_pairwise (fun a b _ _ hab hba => ?_) h.sorted h'.sorted
  rw [UInt64.lt_iff_toNat_lt, ← UInt64.toNat_inj] at hab hba
  omega

/-- A flow has no two turns at the same time. -/
theorem nodup_times (h : s.Offers turns) (g : Nat) :
    ((turns.filter fun t => t.index = g).map (·.time.toNat)).Nodup := by
  rw [List.Nodup, List.pairwise_map, List.pairwise_filter]
  refine h.sorted.imp fun {a b} hbefore ha hb heq => ?_
  simp only [decide_eq_true_eq] at ha hb
  rw [UInt64.lt_iff_toNat_lt] at hbefore
  omega

/-- Turns are before the end. -/
theorem time_lt (h : s.Offers turns) {t : Turn} (ht : t ∈ turns) :
    Schedule.origin.toNat ≤ t.time.toNat ∧ t.time.toNat < Schedule.instant s.duration := by
  obtain ⟨k, -, hsends, htime⟩ := (h.mem_iff t).mp ht
  refine ⟨?_, htime ▸ hsends.1⟩
  rw [htime, Flow.sendTime, Schedule.instant]
  omega

/-- A flow gets a turn for every packet. -/
theorem exists_turn (h : s.Offers turns) (hend : Schedule.instant s.duration < UInt64.size) {g : Nat}
    {f : Flow} (hf : s.flows[g]? = some f) {k : Nat} (hsends : f.Sends s.duration k) :
    ∃ t ∈ turns, t.index = g ∧ t.time.toNat = f.sendTime k := by
  obtain ⟨time, htime⟩ : ∃ time : UInt64, time.toNat = f.sendTime k :=
    ⟨.ofNat _, UInt64.toNat_ofNat_of_lt' (Nat.lt_trans hsends.1 hend)⟩
  exact ⟨⟨time, g, f⟩, (h.mem_iff _).mpr ⟨k, hf, hsends, htime⟩, rfl, htime⟩

/-- **The turns of a flow are the packets that it sends.** -/
theorem encard_eq (h : s.Offers turns) (hend : Schedule.instant s.duration < UInt64.size) {g : Nat}
    {f : Flow} (hf : s.flows[g]? = some f) (p : Nat → Bool) :
    {k | f.Sends s.duration k ∧ p (f.sendTime k) = true}.encard
      = turns.countP fun t => p t.time.toNat && t.index = g := by
  have himage : f.sendTime '' {k | f.Sends s.duration k ∧ p (f.sendTime k) = true}
      = ↑(((turns.filter fun t => t.index = g).map (·.time.toNat)).filter p).toFinset := by
    ext time
    simp only [Set.mem_image, Set.mem_ofPred_eq, List.coe_toFinset, List.mem_filter, List.mem_map,
      decide_eq_true_eq]
    constructor
    · rintro ⟨k, ⟨hsends, hp⟩, rfl⟩
      obtain ⟨t, ht, hindex, htime⟩ := h.exists_turn hend hf hsends
      exact ⟨⟨t, ⟨ht, hindex⟩, htime⟩, hp⟩
    · rintro ⟨⟨t, ⟨ht, rfl⟩, rfl⟩, hp⟩
      obtain ⟨k, hflow, hsends, htime⟩ := (h.mem_iff t).mp ht
      rw [hf, Option.some_inj] at hflow
      subst hflow
      exact ⟨k, ⟨hsends, htime ▸ hp⟩, htime.symm⟩
  rw [← f.sendTime_injective.encard_image, himage, Set.encard_coe_eq_coe_finsetCard,
    List.toFinset_card_of_nodup ((h.nodup_times g).filter p), List.filter_map, List.length_map,
    List.filter_filter, ← List.countP_eq_length_filter]
  rfl

/-- There are no more turns of a flow than there are words. -/
theorem countP_lt (h : s.Offers turns) (hend : Schedule.instant s.duration < UInt64.size) (g : Nat)
    (p : Turn → Bool) : (turns.countP fun t => p t && t.index = g) < UInt64.size := by
  have hsub : ((turns.filter fun t => t.index = g).map (·.time.toNat)).toFinset
      ⊆ Finset.range (Schedule.instant s.duration) := by
    intro time htime
    simp only [List.mem_toFinset, List.mem_map, List.mem_filter] at htime
    obtain ⟨t, ⟨ht, -⟩, rfl⟩ := htime
    exact Finset.mem_range.mpr (h.time_lt ht).2
  have hcard := Finset.card_le_card hsub
  rw [List.toFinset_card_of_nodup (h.nodup_times g), List.length_map, Finset.card_range,
    ← List.countP_eq_length_filter] at hcard
  refine Nat.lt_of_le_of_lt (Nat.le_trans ?_ hcard) hend
  exact List.countP_mono_left fun t _ ht => by simp_all

end Scenario.Offers

/-! ## Reports

The blank report is what `State.Reports` says of no turns.  From there the run is that of the theory of
courses, and the last thing done is to close what is still open, which takes caps only.

Two facts about numbers are needed for this, both about the place of a time.  It is the quotient of what has
gone by since the beginning and the length of an interval, as words and as numbers.  And as the number of
intervals is rounded up, all times before the end have a place that is reported. -/

namespace Simulation

variable {s : Scenario} {report : SimulationReport} {config : Config} {shaper : Shaper}
  {times : Timetable} {state : State}

/-- The place of an interval is a quotient of numbers. -/
theorem placeOf_eq {length time : UInt64} (h : Schedule.origin.toNat ≤ time.toNat) :
    placeOf length time = (time.toNat - Schedule.origin.toNat) / length.toNat := by
  rw [placeOf, UInt64.toNat_div, UInt64.toNat_sub_of_le _ _ (UInt64.le_iff_toNat_le.mpr h)]

/-- The blank report has a sample of nothing for each flow in each interval. -/
theorem frame_blankIntervals (s : Scenario) :
    (frame (blankIntervals s)).length = intervalCount s ∧
      ∀ i ∈ frame (blankIntervals s), i.2 = s.flows.length := by
  refine ⟨by simp [frame, blankIntervals], fun i hi => ?_⟩
  simp only [frame, blankIntervals, List.mem_map, Array.mem_toList_iff, Array.mem_map] at hi
  obtain ⟨r, ⟨j, -, rfl⟩, rfl⟩ := hi
  simp

theorem sampleAt_blankIntervals {j g : Nat} {sample : FlowSample}
    (h : sampleAt (blankIntervals s) j g = some sample) : sample = .zero := by
  rw [sampleAt, Option.bind_eq_some_iff] at h
  obtain ⟨r, hr, hsample⟩ := h
  simp only [blankIntervals, Array.getElem?_map, Option.map_eq_some_iff] at hr
  obtain ⟨i, -, rfl⟩ := hr
  simp only [Array.getElem?_replicate] at hsample
  split at hsample
  · exact (Option.some_inj.mp hsample).symm
  · cases hsample

/-- Nothing is reported before anything is sent. -/
theorem State.reports_blank (s : Scenario) (shaper : Shaper) (u : Pipeline) (length : UInt64) :
    (⟨shaper, blankIntervals s, 0⟩ : State).Reports u length shaper (frame (blankIntervals s)) [] where
  shaper := rfl
  frame := rfl
  reached _ ht := absurd ht List.not_mem_nil
  ended_le _ _ := Nat.zero_le _
  caps _ hj := absurd hj (Nat.not_lt_zero _)
  samples j g sample h := by
    rw [sampleAt_blankIntervals h]
    exact FlowSample.counts_zero

/-- Turns before the end fall into one of the intervals. -/
theorem placeOf_lt {length time : UInt64} (hlength : length.toNat = s.intervalLength)
    (hinterval : s.interval ≠ 0)
    (htime : Schedule.origin.toNat ≤ time.toNat ∧ time.toNat < Schedule.instant s.duration) :
    placeOf length time < intervalCount s := by
  have hpos := Scenario.toNat_interval_pos hinterval
  have hdivide := Nat.div_add_mod (s.duration.toNat + s.interval.toNat - 1) s.interval.toNat
  have hrest := Nat.mod_lt (s.duration.toNat + s.interval.toNat - 1) hpos
  -- the intervals cover the experiment
  have hcovered : s.duration.toNat ≤ intervalCount s * s.interval.toNat := by
    rw [intervalCount, Nat.mul_comm]
    omega
  have hend := Nat.mul_le_mul_right millisecond.toNat hcovered
  rw [placeOf_eq htime.1, hlength, Nat.div_lt_iff_lt_mul (Scenario.intervalLength_pos hinterval),
    Scenario.intervalLength, ← Nat.mul_assoc]
  rw [Schedule.instant] at htime
  omega

/-- A turn is in an interval or an earlier one if it comes before the interval ends. -/
theorem placeOf_le_iff {length time : UInt64} (hlength : length.toNat = s.intervalLength)
    (hpos : 0 < s.intervalLength) (htime : Schedule.origin.toNat ≤ time.toNat) (i : Nat) :
    placeOf length time ≤ i ↔ time.toNat < s.boundary (i + 1) := by
  rw [placeOf_eq htime, hlength, ← Nat.lt_add_one_iff, Nat.div_lt_iff_lt_mul hpos, Scenario.boundary]
  omega

/-- Turns come in the order of their intervals, and before the end. -/
theorem places_of_offers {turns : List Turn} {length : UInt64} (h : s.Offers turns)
    (hlength : length.toNat = s.intervalLength) (hinterval : s.interval ≠ 0) :
    (turns.Pairwise fun a b => placeOf length a.time ≤ placeOf length b.time) ∧
      ∀ t ∈ turns, placeOf length t.time < (frame (blankIntervals s)).length := by
  refine ⟨h.sorted.imp_of_mem fun {a b} ha hb hbefore => ?_, fun t ht => ?_⟩
  · rw [placeOf_eq (h.time_lt ha).1, placeOf_eq (h.time_lt hb).1]
    refine Nat.div_le_div_right (Nat.sub_le_sub_right ?_ _)
    rcases hbefore with hlt | ⟨heq, -⟩
    · exact Nat.le_of_lt (UInt64.lt_iff_toNat_lt.mp hlt)
    · exact Nat.le_of_eq (congrArg UInt64.toNat heq)
  · rw [(frame_blankIntervals s).1]
    exact placeOf_lt hlength hinterval (h.time_lt ht)

/-- At the end the rest of the intervals is over. -/
theorem State.Reports.close {st : State} {u : Pipeline} {length : UInt64} {start : Shaper}
    {blank : List (UInt64 × Nat)} {turns : List Turn} (h : st.Reports u length start blank turns) :
    let closed := closeBefore st.intervals.size st
    closed.shaper = u.after start (turns.map (·.event)) ∧
      Simulation.frame closed.intervals = blank ∧
      (∀ j g sample, sampleAt closed.intervals j g = some sample →
        sample.Counts u length j g (u.sendings start turns)) ∧
      ∀ j caps, capsAt closed.intervals j = some caps → caps = currentCaps
        (u.after start ((turns.filter fun t => placeOf length t.time ≤ j).map (·.event))) := by
  obtain ⟨hshaper, -, hframe, hsamples, hcaps⟩ := closeBefore_spec st.intervals.size st
  refine ⟨hshaper.trans h.shaper, hframe.trans h.frame, fun j g sample hsample =>
    h.samples j g sample (hsamples j g ▸ hsample), fun j caps hj => ?_⟩
  rw [hcaps] at hj
  split at hj
  · rename_i hopen
    obtain ⟨-, -, rfl⟩ := Option.map_eq_some_iff.mp hj
    rw [List.filter_eq_self.mpr fun t ht =>
      decide_eq_true (Nat.le_trans (h.reached t ht) hopen.1), h.shaper]
  · rename_i hclosed
    have hlt : j < st.intervals.size := by
      obtain ⟨r, hr, -⟩ := Option.map_eq_some_iff.mp hj
      exact (Array.getElem?_eq_some_iff.mp hr).1
    exact h.caps j (by omega) caps hj

/-- What is known of an experiment that came to its report. -/
structure Concluded (s : Scenario) (u : Pipeline) (length : UInt64) (start : Shaper)
    (turns : List Turn) (state : State) : Prop where
  offers : s.Offers turns
  instant_lt : Schedule.instant s.duration < UInt64.size
  length_eq : length.toNat = s.intervalLength
  length_pos : 0 < s.intervalLength
  placeOf_lt : ∀ t ∈ turns, placeOf length t.time < intervalCount s
  shaper : state.shaper = u.after start (turns.map (·.event))
  frame : Simulation.frame state.intervals = Simulation.frame (blankIntervals s)
  samples : ∀ j g sample, sampleAt state.intervals j g = some sample →
    sample.Counts u length j g (u.sendings start turns)
  caps : ∀ j caps, capsAt state.intervals j = some caps → caps = currentCaps
    (u.after start ((turns.filter fun t => placeOf length t.time ≤ j).map (·.event)))

section

variable {u : Pipeline} {length : UInt64} {start : Shaper} {turns : List Turn} {i g : Nat}
  {sample : FlowSample}

/-- Nothing is counted more often than can be counted. -/
theorem Concluded.toNat_read (h : Concluded s u length start turns state)
    (hsample : sampleAt state.intervals i g = some sample) (c : Column) :
    (sample.read c).toNat = (u.sendings start turns).countP fun x =>
      x.sentIn length i g && c.counts (x.ending u) := by
  have hsent := h.offers.countP_lt h.instant_lt g fun t => decide (placeOf length t.time = i)
  rw [← u.countP_sentIn start] at hsent
  rw [(h.samples i g sample hsample).counts c]
  refine UInt64.toNat_ofNat_of_lt' (Nat.lt_of_le_of_lt (List.countP_mono_left fun x _ hx => ?_) hsent)
  exact (Bool.and_eq_true_iff.mp hx).1

/-- The packets that are counted as sent are turns of the flow in the interval. -/
theorem Concluded.sent_eq (h : Concluded s u length start turns state)
    (hsample : sampleAt state.intervals i g = some sample) :
    sample.sent.toNat = turns.countP fun t =>
      (t.time.toNat - Schedule.origin.toNat) / length.toNat = i && t.index = g := by
  have hread := h.toNat_read hsample .sent
  simp only [Column.counts, Bool.and_true] at hread
  rw [u.countP_sentIn] at hread
  refine hread.trans (List.countP_congr fun t ht => ?_)
  rw [placeOf_eq (h.offers.time_lt ht).1]

end

/-- **Every experiment with a report took its turns**, and its report is about them. -/
theorem Experiment.concluded (h : Experiment s report config shaper times state) :
    ∃ turns, Schedule.Taken times.stop times.schedule turns ∧
      Concluded s ⟨config.options, .directory⟩ times.intervalLength shaper turns state := by
  have hrun := h.carriedOut
  obtain ⟨hlength, hstop, -⟩ := timetable_eq_ok h.timetable
  rw [sendAll] at hrun
  cases hfold : times.schedule.foldUntil times.stop (step config.options times.intervalLength)
      ⟨shaper, blankIntervals s, 0⟩ with
  | error trap =>
    rw [hfold] at hrun
    cases hrun
  | ok last =>
    rw [hfold] at hrun
    cases hrun
    obtain ⟨turns, htaken⟩ := Schedule.exists_taken hfold
    rw [Schedule.foldUntil_of_taken htaken] at hfold
    have hoffers := offers_of_taken h.timetable htaken
    obtain ⟨hsorted, hplace⟩ := places_of_offers hoffers hlength h.interval_ne_zero
    have hreports := (State.reports_blank s shaper ⟨config.options, .directory⟩
      times.intervalLength).run hfold hsorted hplace
    rw [(frame_blankIntervals s).1] at hplace
    obtain ⟨hshaper, hframe, hsamples, hcaps⟩ := hreports.close
    exact ⟨turns, htaken, hoffers, hstop ▸ times.stop.toNat_lt_size, hlength,
      Scenario.intervalLength_pos h.interval_ne_zero, hplace, hshaper, hframe, hsamples, hcaps⟩

/-! ## Experiments that come to a report

A turn traps only where bytes are added up.  What the sample has so far is at most what the flow has
offered, and with the packet it is still no more than what the flow offers altogether.  So nothing has to be
known about where bytes are credited, or how many packets are dropped. -/

/-- The bytes that a flow offers in some turns. -/
def offeredBytes (turns : List Turn) (g : Nat) : Nat :=
  ((turns.filter fun t => t.index = g).map (·.flow.packetSize.toNat)).sum

theorem offeredBytes_append (turns later : List Turn) (g : Nat) :
    offeredBytes (turns ++ later) g = offeredBytes turns g + offeredBytes later g := by
  rw [offeredBytes, List.filter_append, List.map_append, List.sum_append]
  rfl

theorem offeredBytes_le (turns : List Turn) (g : Nat) :
    offeredBytes turns g ≤ (turns.map (·.flow.packetSize.toNat)).sum :=
  (List.filter_sublist.map _).sum_le_sum fun _ _ => Nat.zero_le _

/-- No sample has more bytes than its flow offers. -/
theorem bytes_le_of_counts {sample : FlowSample} {u : Pipeline} {length : UInt64} {j g : Nat}
    {start : Shaper} {turns : List Turn}
    (h : sample.Counts u length j g (u.sendings start turns)) :
    sample.admittedBytes.toNat ≤ offeredBytes turns g := by
  rw [h.bytes, offeredBytes]
  conv_rhs => rw [← u.turn_sendings start turns, List.filter_map, List.map_map]
  refine (List.Sublist.map _ ?_).sum_le_sum fun _ _ => Nat.zero_le _
  refine List.monotone_filter_right _ fun x hx => ?_
  simp only [Sending.leavesIn, decide_eq_true_eq] at hx
  simp [hx.2.2]

/-- A packet can be sent as long as the bytes that its flow has offered so far can be counted. -/
theorem exists_step {options : ShapingOptions} {length : UInt64} {st : State} {start : Shaper}
    {blank : List (UInt64 × Nat)} {turns : List Turn} {t : Turn}
    (h : st.Reports ⟨options, .directory⟩ length start blank turns)
    (hbytes : offeredBytes (turns ++ [t]) t.index < UInt64.size) :
    ∃ st', step options length st t = .ok st' := by
  have hsize : offeredBytes [t] t.index = t.flow.packetSize.toNat := by simp [offeredBytes]
  rw [offeredBytes_append, hsize] at hbytes
  rw [step_eq]
  dsimp only
  split
  · exact ⟨_, rfl⟩
  rw [credit]
  split
  · rw [creditedBytes_eq, Word.add_of_lt]
    · exact ⟨_, rfl⟩
    cases hcounted : sampleAt (modifySample (closeBefore (placeOf length t.time) st).intervals
        (placeOf length t.time) t.index
        (·.count (Sending.ending ⟨options, .directory⟩ ⟨t, st.shaper⟩)))
        (placeOf length (Sending.leaves ⟨options, .directory⟩ ⟨t, st.shaper⟩)) t.index with
    | none =>
      rw [Option.elim_none, UInt64.toNat_zero]
      omega
    | some counted =>
      obtain ⟨before, hbefore, -, hsame⟩ := sampleAt_counted (x := ⟨t, st.shaper⟩) hcounted
      rw [(closeBefore_spec (placeOf length t.time) st).2.2.2.1] at hbefore
      have hle := bytes_le_of_counts (h.samples _ _ _ hbefore)
      rw [Option.elim_some, hsame]
      omega
  · exact ⟨_, rfl⟩

/-- **All packets can be sent** if the bytes of each flow can be counted. -/
theorem exists_run {options : ShapingOptions} {length : UInt64} {st : State} {start : Shaper}
    {blank : List (UInt64 × Nat)} {turns later : List Turn}
    (h : st.Reports ⟨options, .directory⟩ length start blank turns)
    (hsorted : (turns ++ later).Pairwise fun a b => placeOf length a.time ≤ placeOf length b.time)
    (hplace : ∀ t ∈ later, placeOf length t.time < blank.length)
    (hbytes : ∀ g, offeredBytes (turns ++ later) g < UInt64.size) :
    ∃ st', later.foldlM (step options length) st = .ok st' := by
  induction later generalizing turns st with
  | nil => exact ⟨st, rfl⟩
  | cons t later ih =>
    rw [List.forall_mem_cons] at hplace
    have hlast := (List.pairwise_append.mp hsorted).2.2
    rw [List.append_cons] at hsorted hbytes
    have hsofar : offeredBytes (turns ++ [t]) t.index < UInt64.size := by
      have hall := hbytes t.index
      rw [offeredBytes_append] at hall
      omega
    obtain ⟨next, hnext⟩ := exists_step h hsofar
    obtain ⟨st', hst'⟩ := ih (h.step (step_eq_ok hnext)
      (fun t' ht' => hlast t' ht' t List.mem_cons_self) hplace.1) hsorted hplace.2 hbytes
    refine ⟨st', ?_⟩
    rw [List.foldlM_cons, hnext]
    exact hst'

/-- **An experiment sends all of its packets**, if the bytes of each flow can be counted. -/
theorem exists_sendAll {options : ShapingOptions} {turns : List Turn} (hinterval : s.interval ≠ 0)
    (htimes : Timetable.of s = .ok times) (htaken : Schedule.Taken times.stop times.schedule turns)
    (hbytes : ∀ g, offeredBytes turns g < UInt64.size) :
    ∃ state, sendAll s options times shaper = .ok state := by
  obtain ⟨hsorted, hplace⟩ := places_of_offers (offers_of_taken htimes htaken)
    (timetable_eq_ok htimes).1 hinterval
  obtain ⟨last, hlast⟩ := exists_run (State.reports_blank s shaper ⟨options, .directory⟩
    times.intervalLength) hsorted hplace hbytes
  rw [sendAll, Schedule.foldUntil_of_taken htaken, hlast]
  exact ⟨_, rfl⟩

/-- **A scenario that is in order comes to a report**, if all its bytes can be counted. -/
theorem exists_report {notes : List Note} {turns : List Turn} (hinterval : s.interval ≠ 0)
    (hbusy : idleFlow? s = none) (hcheck : s.config.check = (.ok (), config, notes))
    (hload : config.load.1 = .ok shaper) (htimes : Timetable.of s = .ok times)
    (htaken : Schedule.Taken times.stop times.schedule turns)
    (hbytes : (turns.map (·.flow.packetSize.toNat)).sum < UInt64.size) :
    ∃ report, (run s).1 = .ok report := by
  obtain ⟨more, hmore⟩ : ∃ more, config.load = (.ok shaper, more) := ⟨_, Prod.ext hload rfl⟩
  obtain ⟨state, hsend⟩ := exists_sendAll hinterval htimes htaken
    fun g => Nat.lt_of_le_of_lt (offeredBytes_le turns g) hbytes
  rw [run, if_neg hinterval, hbusy, htimes, hcheck]
  dsimp only
  rw [hmore]
  dsimp only
  rw [hsend]
  exact ⟨_, rfl⟩

/-! ## The packets

Which packet comes at a turn depends on the flow alone.  It is described by what can be asked of a packet,
such as the address at its local end, and not by how it is made; the ends are the same in both directions,
while the source of an incoming packet is the other end and that of an outgoing one the local end. -/

end Simulation

/-- The packet is one that the flow sends: between its two ends, in its direction, of its size and its class, and
without a wish when to leave. -/
structure Flow.Emits (f : Flow) (p : Packet) : Prop where
  length : p.length = f.packetSize
  direction : p.direction = f.direction
  departure : p.departure = 0
  classId : p.classId = f.classId
  localEnd : p.localAddress? = some f.localEnd
  otherEnd : p.remoteAddress? = some f.remoteEnd

/-- **A flow sends the same packet again and again**, and what it says of the packet leaves nothing open. -/
theorem Flow.emits_iff {f : Flow} {p : Packet} : f.Emits p ↔ p = f.packet := by
  constructor
  · intro h
    obtain ⟨length, direction, departure, headers, classId⟩ := p
    obtain ⟨rfl, rfl, rfl, rfl, hlocal, hother⟩ := h
    obtain ⟨⟨source, destination⟩, rfl, hend⟩ := Option.map_eq_some_iff.mp hlocal
    obtain ⟨_, heq, hend'⟩ := Option.map_eq_some_iff.mp hother
    cases heq
    rw [Flow.packet, ← hend, ← hend']
    -- which end is the source is a matter of the direction
    cases f.direction <;> rfl
  · rintro rfl
    refine ⟨rfl, rfl, rfl, rfl, ?_, ?_⟩
    · rw [Packet.localAddress?, Flow.packet]
      cases f.direction <;> rfl
    · rw [Packet.remoteAddress?, Flow.packet]
      cases f.direction <;> rfl

/-- **What comes to the shaper at a turn** is a packet of the flow whose turn it is, at the time of the turn. -/
theorem Scenario.Offers.exists_packet {s : Scenario} {turns : List Turn} (h : s.Offers turns) {t : Turn}
    (ht : t ∈ turns) :
    ∃ f p, s.flows[t.index]? = some f ∧ f.Emits p ∧ t.event = .packet p t.time := by
  obtain ⟨-, hflow, -⟩ := (h.mem_iff t).mp ht
  exact ⟨t.flow, t.flow.packet, hflow, Flow.emits_iff.mpr rfl, rfl⟩

/-! ## The schedule

Everything is in the conclusion of the run (`Concluded`), and what is left is to translate places of
intervals into times. -/

namespace Simulation

variable {s : Scenario} {report : SimulationReport}

/-- **An experiment offers the packets of its scenario**, whatever becomes of them.  It comes to an end after a
list of turns, one for each packet that a flow sends, in the order of times and then of flows, and its shaper
has met just these packets.  So what is counted as sent of a flow in an interval is the number of packets that
the flow sends in it by its own rate, start and stop, and the caps of the interval are the ones after the packets
that are sent before its end. -/
theorem offers_the_schedule (h : (run s).1 = .ok report) :
    ∃ config shaper times state turns, Experiment s report config shaper times state ∧
      s.Offers turns ∧
      (∀ (σ : Type) (f : σ → Turn → Except Trap σ) (init : σ),
        times.schedule.foldUntil times.stop f init = turns.foldlM f init) ∧
      state.shaper = (⟨config.options, .directory⟩ : Pipeline).after shaper (turns.map (·.event)) ∧
      report.intervals.length = intervalCount s ∧
      ∀ i interval, report.intervals[i]? = some interval →
        interval.caps = currentCaps ((⟨config.options, .directory⟩ : Pipeline).after shaper
          ((turns.filter fun t => t.time.toNat < s.boundary (i + 1)).map (·.event))) ∧
        interval.flows.size = s.flows.length ∧
        ∀ (g : Nat) (f : Flow) (sample : FlowSample), s.flows[g]? = some f → interval.flows[g]? = some sample →
          sample.sent.toNat = {k | f.Sends s.duration k ∧
            (f.sendTime k - Schedule.origin.toNat) / s.intervalLength = i}.encard := by
  obtain ⟨config, shaper, times, state, hexperiment⟩ := exists_experiment h
  obtain ⟨turns, htaken, hend⟩ := hexperiment.concluded
  have hreport : report.intervals = state.intervals.toList := by
    rw [hexperiment.report_eq, Simulation.report]
  have hframe := frame_blankIntervals s
  rw [← hend.frame] at hframe
  refine ⟨config, shaper, times, state, turns, hexperiment, hend.offers,
    fun σ f init => Schedule.foldUntil_of_taken htaken f init, hend.shaper, ?_, fun i interval hi => ?_⟩
  · rw [hreport, ← hframe.1, frame, List.length_map]
  rw [hreport, Array.getElem?_toList] at hi
  refine ⟨?_, ?_, fun g f sample hf hsample => ?_⟩
  · have hcaps := hend.caps i interval.caps (by rw [capsAt, hi, Option.map_some])
    rw [hcaps, List.filter_congr fun t ht => decide_eq_decide.mpr
      (placeOf_le_iff hend.length_eq hend.length_pos (hend.offers.time_lt ht).1 i)]
  · refine hframe.2 (interval.stop, interval.flows.size) (List.mem_map.mpr ⟨interval, ?_, rfl⟩)
    exact List.mem_of_getElem? (Array.getElem?_toList.trans hi)
  · rw [hend.sent_eq (by rw [sampleAt, hi, Option.bind_some, hsample]), ← hend.length_eq,
      ← hend.offers.encard_eq hend.instant_lt hf fun time =>
        (time - Schedule.origin.toNat) / times.intervalLength.toNat = i]
    simp only [decide_eq_true_eq]

end Simulation

/-! ## Cases

Two flows that send their packets at the same times, one of them only once. -/

namespace ShortExperiment

open Simulation

/-- A packet every millisecond. -/
def flow : Flow := { Flow.blank with name := "steady", packetSize := 1000, rate := 1000000 }

/-- The same, which stops after a millisecond. -/
def brief : Flow := { flow with name := "brief", stop := some 1 }

/-- Nobody is limited. -/
def config : Config := ⟨.const .unset, [], { ShapingOptions.standard with maxEntries := 1 }⟩

/-- Three milliseconds, reported in two intervals. -/
def scenario : Scenario := ⟨config, 3, 2, [flow, brief]⟩

/-- There is no second turn of the flow that has stopped. -/
def turns : List Turn :=
  [⟨1000000000, 0, flow⟩, ⟨1000000000, 1, brief⟩, ⟨1001000000, 0, flow⟩, ⟨1002000000, 0, flow⟩]

def times : Timetable := ⟨2000000, 1003000000, [⟨1000000000, 0, flow⟩, ⟨1000000000, 1, brief⟩]⟩

theorem timetable : Timetable.of scenario = .ok times := rfl

theorem taken : Schedule.Taken times.stop times.schedule turns :=
  .turn (by decide) rfl (.turn (by decide) rfl (.turn (by decide) rfl
    (.stopped (by decide) rfl (.turn (by decide) rfl (.ended (by decide))))))

theorem checked : config.check = (.ok (), config, []) := rfl

theorem loaded : config.load.1 = .ok (.empty 1) := rfl

end ShortExperiment

section

open Simulation ShortExperiment

/-- In the first two milliseconds, the steady flow sends two packets and the brief one a single one. -/
theorem Simulation.offers_the_schedule_of_two : ∃ report interval steady brief',
    (run scenario).1 = .ok report ∧ report.intervals[0]? = some interval ∧
      interval.flows[0]? = some steady ∧ interval.flows[1]? = some brief' ∧
      steady.sent.toNat = 2 ∧ brief'.sent.toNat = 1 := by
  obtain ⟨report, hreport⟩ := exists_report (by decide) rfl checked loaded timetable taken (by decide)
  obtain ⟨_, _, _, _, _, -, -, -, -, hlength, hintervals⟩ := offers_the_schedule hreport
  have hcount : intervalCount scenario = 2 := by decide
  obtain ⟨interval, hinterval⟩ : ∃ interval, report.intervals[0]? = some interval :=
    ⟨_, List.getElem?_eq_getElem (by omega)⟩
  obtain ⟨-, hsize, hsent⟩ := hintervals 0 interval hinterval
  have hflows : interval.flows.size = 2 := hsize
  obtain ⟨steady, hsteady⟩ : ∃ sample, interval.flows[0]? = some sample :=
    ⟨_, Array.getElem?_eq_getElem (by omega)⟩
  obtain ⟨brief', hbrief⟩ : ∃ sample, interval.flows[1]? = some sample :=
    ⟨_, Array.getElem?_eq_getElem (by omega)⟩
  have hsteady' := hsent 0 flow steady rfl hsteady
  have hbrief' := hsent 1 brief brief' rfl hbrief
  have hends : Schedule.instant scenario.duration = 1003000000 := rfl
  have hstop : Schedule.instant 1 = 1001000000 := rfl
  have horigin : Schedule.origin.toNat = 1000000000 := rfl
  have hinterval' : scenario.intervalLength = 2000000 := rfl
  have htwo : {k | flow.Sends scenario.duration k ∧
      (flow.sendTime k - Schedule.origin.toNat) / scenario.intervalLength = 0} = {0, 1} := by
    have htime : ∀ k, flow.sendTime k = 1000000000 + k * 1000000 := fun _ => rfl
    have hnever : flow.stop = none := rfl
    ext k
    simp only [Flow.Sends, htime, hends, hnever, reduceCtorEq, IsEmpty.forall_iff, implies_true, and_true,
      horigin, Nat.add_sub_cancel_left, hinterval', Set.mem_ofPred_eq, Set.mem_insert_iff,
      Set.mem_singleton_iff]
    omega
  have hone : {k | brief.Sends scenario.duration k ∧
      (brief.sendTime k - Schedule.origin.toNat) / scenario.intervalLength = 0} = {0} := by
    have htime : ∀ k, brief.sendTime k = 1000000000 + k * 1000000 := fun _ => rfl
    have hstops : brief.stop = some 1 := rfl
    ext k
    simp only [Flow.Sends, htime, hends, hstops, Option.some.injEq, forall_eq', hstop, horigin,
      Nat.add_sub_cancel_left, hinterval', Set.mem_ofPred_eq, Set.mem_singleton_iff]
    omega
  rw [htwo, Set.encard_pair (by decide)] at hsteady'
  rw [hone, Set.encard_singleton] at hbrief'
  exact ⟨report, interval, steady, brief', hreport, hinterval, hsteady, hbrief,
    Nat.cast_injective hsteady', Nat.cast_injective hbrief'⟩

end

end Shaping
