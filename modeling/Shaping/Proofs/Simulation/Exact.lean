import Shaping.Proofs.Control.Checking
import Shaping.Proofs.Control.Exact
import Shaping.Proofs.Simulation.ExactTurns
import Shaping.Proofs.Simulation.Offered

/-!
# Experiments in exact arithmetic

An experiment once more, with exact arithmetic all along and an access by place wherever a flow is looked
up.  If its times and the bytes of each flow can be counted (`Scenario.Countable`), it never traps: it is
refused before a packet is sent, or it comes to its report (`Simulation.never_traps`).

The turns that are taken do not depend on what is done at them, and what has to be known of them is read off
the scenario.  None is before the beginning or past the end, so all fall into intervals that are reported.
No two turns of a flow are at the same time, so there are fewer of them than words
(`Scenario.Offers.countP_lt`).  And what a flow offers is its size times the number of its packets
(`Scenario.Countable.offeredBytes_lt`), which no sample can exceed.

Both versions refuse a scenario at the same places, in the same order.  What could trap next is the
timetable, and it does not, since all times are words (`Scenario.Countable.exists_timetable`); and after
that the sending of packets.  Whether there is memory for the tables is no question of arithmetic.  So the
exact version leaves it aside, and it is a condition where the two are compared.
-/

set_option autoImplicit false

namespace Shaping

/-! ## Gaps -/

namespace Flow

/-- `gap` in exact arithmetic. -/
def gapExact (f : Flow) : Except Trap { gap : UInt64 // 1 ≤ gap.toNat } := do
  let time ← Pacer.transmissionTimeExact f.packetSize f.rate
  return ⟨max time 1, by rw [Word.toNat_max]; exact Nat.le_max_right _ _⟩

theorem gapExact_eq {f : Flow} (h : f.rate ≠ 0) :
    f.gapExact = pure ⟨f.gap, Schedule.one_le_gap f⟩ := by
  rw [gapExact, Pacer.transmissionTimeExact_eq _ h, pure_bind]
  rfl

end Flow

/-! ## Schedules

The exact version looks a flow up by its place at each turn, where the plain one has it in the turn, and its
gap may trap.  They are the same if the turn belongs to the scenario, which the next turn of the flow then
does too.  It is enough to know the turns that are taken: the exact version goes through the same ones. -/

namespace Schedule

/-- What comes after a gap leaves less time to its flow. -/
theorem remaining_insert_lt {stop : UInt64} {t : Turn} (flow : Flow) (rest : Schedule) {gap : UInt64}
    (hgap : 1 ≤ gap.toNat) (h : ¬ stop ≤ t.time) :
    remaining stop (insert ⟨Word.addSat t.time gap, t.index, flow⟩ rest)
      < remaining stop (t :: rest) := by
  have hstop := stop.toNat_lt_size
  rw [UInt64.le_iff_toNat_le] at h
  rw [remaining_insert, remaining_cons, Word.toNat_addSat]
  omega

/-- `foldUntil` in exact arithmetic.  Flows are looked up by their places, and intervals also for turns of flows
that have stopped. -/
def foldUntilExact {σ : Type} (flows : Array Flow) (stop length : UInt64)
    (f : Nat → σ → Turn → Except Trap σ) (s : Schedule) (init : σ) : Except Trap σ :=
  match s with
  | [] => .ok init
  | t :: rest =>
    if _h : stop ≤ t.time then .ok init
    else do
      let place ← Simulation.placeOfExact length t.time
      let flow ← element flows t.index
      if ← isOver ⟨t.time, t.index, flow⟩ then foldUntilExact flows stop length f rest init
      else
        let next ← f place init ⟨t.time, t.index, flow⟩
        let ⟨gap, _hgap⟩ ← flow.gapExact
        foldUntilExact flows stop length f (insert ⟨Word.addSat t.time gap, t.index, flow⟩ rest) next
termination_by remaining stop s
decreasing_by
  · have hs := stop.toNat_lt
    rw [remaining_cons]
    rw [UInt64.le_iff_toNat_le] at _h
    omega
  · exact remaining_insert_lt flow rest _hgap _h

end Schedule

/-- What a turn presupposes of the scenario. -/
structure Turn.Belongs (flows : Array Flow) (t : Turn) : Prop where
  flow : flows[t.index]? = some t.flow
  rate : t.flow.rate ≠ 0
  began : Schedule.origin ≤ t.time

theorem Turn.Belongs.following {flows : Array Flow} {t : Turn} (h : t.Belongs flows) :
    t.following.Belongs flows := by
  refine ⟨?_, ?_, ?_⟩
  · rw [Turn.index_following, Turn.flow_following]
    exact h.flow
  · rw [Turn.flow_following]
    exact h.rate
  · have hbegan := h.began
    have htime := t.time.toNat_lt_size
    rw [UInt64.le_iff_toNat_le] at hbegan ⊢
    rw [Turn.toNat_time_following]
    omega

/-- **To work off a schedule is the same.** -/
theorem Schedule.foldUntilExact_of_taken {σ : Type} {flows : Array Flow} {stop length : UInt64} {s : Schedule}
    {turns : List Turn} (h : Taken stop s turns) (hlength : length ≠ 0) (hs : ∀ t ∈ s, t.Belongs flows)
    (f : Nat → σ → Turn → Except Trap σ) (init : σ) :
    s.foldUntilExact flows stop length f init
      = turns.foldlM (fun st t => f (Simulation.placeOf length t.time) st t) init := by
  induction h generalizing init with
  | empty => rw [foldUntilExact]; rfl
  | ended hlate => rw [foldUntilExact, dif_pos hlate]; rfl
  | @stopped t rest turns hearly hover _ ih =>
    obtain ⟨hfirst, hrest⟩ := List.forall_mem_cons.mp hs
    rw [foldUntilExact, dif_neg hearly, Simulation.placeOfExact_eq hlength hfirst.began, pure_bind,
      element_of_some hfirst.flow, pure_bind, hover]
    exact ih hrest init
  | @turn t rest turns hearly hover _ ih =>
    obtain ⟨hfirst, hrest⟩ := List.forall_mem_cons.mp hs
    rw [foldUntilExact, dif_neg hearly, Simulation.placeOfExact_eq hlength hfirst.began, pure_bind,
      element_of_some hfirst.flow, pure_bind, hover, List.foldlM_cons]
    show (f (Simulation.placeOf length t.time) init t >>= _) = _
    refine congrArg _ (funext fun next => ?_)
    rw [Flow.gapExact_eq hfirst.rate, pure_bind]
    refine ih (fun u hu => ?_) next
    rcases mem_insert.mp hu with rfl | hu
    · exact hfirst.following
    · exact hrest u hu

/-! ## Scenarios that can be counted

Bytes are bounded flow by flow, and only for flows that have a rate.  A flow without one is refused, and of
the packets that it would send nothing is to be presupposed. -/

/-- All times of a scenario are words, and so are the bytes of each flow.  Of a flow without a rate it is not
known how many packets it sends. -/
structure Scenario.Countable (s : Scenario) : Prop where
  ends : 10 ^ 9 + 10 ^ 6 * (s.duration.toNat + s.interval.toNat) < 2 ^ 64
  starts : ∀ f ∈ s.flows, 10 ^ 9 + 10 ^ 6 * f.start.toNat < 2 ^ 64
  stops : ∀ f ∈ s.flows, ∀ stop, f.stop = some stop → 10 ^ 9 + 10 ^ 6 * stop.toNat < 2 ^ 64
  bytes : ∀ f ∈ s.flows, f.rate ≠ 0 →
    f.packetSize.toNat * {k | f.Sends s.duration k}.encard < 2 ^ 64
  entries : s.config.options.maxEntries.toNat ≤ 2 ^ 62

theorem Schedule.instant_eq (milliseconds : UInt64) :
    instant milliseconds = 10 ^ 9 + 10 ^ 6 * milliseconds.toNat := by
  have horigin : origin.toNat = 10 ^ 9 := rfl
  have hmillisecond : millisecond.toNat = 10 ^ 6 := rfl
  rw [instant, horigin, hmillisecond, Nat.mul_comm]

namespace Scenario.Countable

variable {s : Scenario} {turns : List Turn}

theorem instant_lt (h : s.Countable) : Schedule.instant s.duration < UInt64.size := by
  have hsize : UInt64.size = 2 ^ 64 := rfl
  have hends := h.ends
  rw [Schedule.instant_eq]
  omega

theorem duration_add_interval_lt (h : s.Countable) :
    s.duration.toNat + s.interval.toNat < UInt64.size := by
  have hsize : UInt64.size = 2 ^ 64 := rfl
  have hends := h.ends
  omega

theorem slots_lt (h : s.Countable) :
    OpenTable.slotCount (max s.config.options.maxEntries.toNat 1) < UInt64.size :=
  OpenTable.slotCount_lt h.entries

theorem exists_timetable (h : s.Countable) : ∃ times, Simulation.Timetable.of s = .ok times := by
  have hsize : UInt64.size = 2 ^ 64 := rfl
  have hlength : s.interval.toNat * millisecond.toNat < UInt64.size := by
    have hmillisecond : millisecond.toNat = 10 ^ 6 := rfl
    have hends := h.ends
    rw [hmillisecond]
    omega
  obtain ⟨stop, hstop⟩ := Schedule.exists_timeOf h.instant_lt
  obtain ⟨schedule, hschedule⟩ := Schedule.exists_ofFlows
    (fun f hf => Schedule.instant_eq f.start ▸ h.starts f hf) 0
  rw [Simulation.Timetable.of, Word.mul_of_lt hlength, pure_bind, hstop, hschedule]
  exact ⟨_, rfl⟩

/-- The bytes of each flow can be added up. -/
theorem offeredBytes_lt (h : s.Countable) (hrates : ∀ f ∈ s.flows, f.rate ≠ 0) (hoffers : s.Offers turns)
    (g : Nat) : Simulation.offeredBytes turns g < UInt64.size := by
  have hsize : UInt64.size = 2 ^ 64 := rfl
  cases hf : s.flows[g]? with
  | none =>
    have hnone : (turns.filter fun t => t.index = g) = [] := by
      refine List.filter_eq_nil_iff.mpr fun t ht hindex => ?_
      obtain ⟨k, hflow, -⟩ := (hoffers.mem_iff t).mp ht
      rw [of_decide_eq_true hindex, hf] at hflow
      cases hflow
    rw [Simulation.offeredBytes, hnone]
    decide
  | some f =>
    -- all turns of the flow are of the same size
    have hbytes : Simulation.offeredBytes turns g
        = f.packetSize.toNat * turns.countP fun t => t.index = g := by
      have hsame : ∀ t ∈ turns.filter fun t => t.index = g, t.flow.packetSize.toNat = f.packetSize.toNat := by
        intro t ht
        obtain ⟨hmem, hindex⟩ := List.mem_filter.mp ht
        obtain ⟨k, hflow, -⟩ := (hoffers.mem_iff t).mp hmem
        rw [of_decide_eq_true hindex, hf, Option.some_inj] at hflow
        rw [hflow]
      rw [Simulation.offeredBytes, List.map_congr_left hsame, List.map_const', List.sum_replicate_nat,
        Nat.mul_comm, List.countP_eq_length_filter]
    have hcount := hoffers.encard_eq h.instant_lt hf fun _ => true
    simp only [and_true, Bool.true_and] at hcount
    have hlt := h.bytes f (List.mem_of_getElem? hf) (hrates f (List.mem_of_getElem? hf))
    rw [hcount] at hlt
    rw [hbytes]
    exact_mod_cast hlt

end Scenario.Countable

namespace Simulation

variable {s : Scenario} {times : Timetable} {shaper : Shaper}

/-! ## Blank reports

The number of intervals is a quotient that is rounded up.  The plain version adds before it divides, in
numbers, and the exact one divides first and adds one if there is a remainder. -/

/-- `intervalCount`, as a quotient rounded up. -/
def intervalCountExact (s : Scenario) : Except Trap Nat := do
  let whole ← Word.div s.duration s.interval
  let rest ← Word.rem s.duration s.interval
  if 0 < rest then return (← Word.add whole 1).toNat
  else return whole.toNat

/-- The blank report of an interval in exact arithmetic. -/
def blankIntervalExact (s : Scenario) (i : Nat) : Except Trap IntervalReport := do
  let stop ← Word.mul (← Word.add (.ofNat i) 1) s.interval
  return ⟨min stop s.duration, .const (.const 0), Array.replicate s.flows.length .zero⟩

/-- `blankIntervals` in exact arithmetic. -/
def blankIntervalsExact (s : Scenario) : Except Trap (Array IntervalReport) := do
  return (← (List.range (← intervalCountExact s)).mapM (blankIntervalExact s)).toArray

theorem intervalCountExact_eq (hinterval : s.interval ≠ 0)
    (h : s.duration.toNat + s.interval.toNat < UInt64.size) :
    intervalCountExact s = pure (intervalCount s) := by
  have hpos := Scenario.toNat_interval_pos hinterval
  have hdivide := Nat.div_add_mod s.duration.toNat s.interval.toNat
  have hrest := Nat.mod_lt s.duration.toNat hpos
  have hwhole := Nat.div_le_self s.duration.toNat s.interval.toNat
  have hcount : intervalCount s = s.duration.toNat / s.interval.toNat +
      if 0 < s.duration.toNat % s.interval.toNat then 1 else 0 := by
    rw [Nat.mul_comm] at hdivide
    refine Nat.div_eq_of_lt_le ?_ ?_
    · rw [Nat.add_mul]
      split <;> omega
    · rw [Nat.add_mul, Nat.add_mul]
      split <;> omega
  rw [intervalCountExact, Word.div_of_ne_zero _ hinterval, pure_bind, Word.rem_of_ne_zero _ hinterval, pure_bind,
    hcount]
  simp only [UInt64.lt_iff_toNat_lt, UInt64.toNat_mod, UInt64.toNat_zero]
  split
  · have hadd : (s.duration / s.interval).toNat + (1 : UInt64).toNat < UInt64.size := by
      rw [UInt64.toNat_div, UInt64.toNat_one]
      omega
    rw [Word.add_of_lt hadd, pure_bind, UInt64.toNat_add, Nat.mod_eq_of_lt hadd, UInt64.toNat_div]
    rfl
  · rw [UInt64.toNat_div, Nat.add_zero]

/-- The end of an interval can be counted, as it is not much later than the end of the experiment. -/
theorem blankIntervalExact_eq (hinterval : s.interval ≠ 0)
    (h : s.duration.toNat + s.interval.toNat < UInt64.size) {i : Nat} (hi : i < intervalCount s) :
    blankIntervalExact s i =
      pure ⟨Word.clamp (min ((i + 1) * s.interval.toNat) s.duration.toNat), .const (.const 0),
        Array.replicate s.flows.length .zero⟩ := by
  have hpos := Scenario.toNat_interval_pos hinterval
  have hend : (i + 1) * s.interval.toNat < UInt64.size := by
    have hle := (Nat.le_div_iff_mul_le hpos).mp hi
    rw [Nat.succ_eq_add_one] at hle
    omega
  have hcount : i + 1 < UInt64.size := Nat.lt_of_le_of_lt (Nat.le_mul_of_pos_right _ hpos) hend
  have hplace : (UInt64.ofNat i).toNat = i := UInt64.toNat_ofNat_of_lt' (by omega)
  have hnext : (UInt64.ofNat i + 1).toNat = i + 1 := by
    rw [UInt64.toNat_add, hplace, UInt64.toNat_one, Nat.mod_eq_of_lt hcount]
  have hstop : min ((UInt64.ofNat i + 1) * s.interval) s.duration
      = Word.clamp (min ((i + 1) * s.interval.toNat) s.duration.toNat) := by
    rw [← UInt64.toNat_inj, Word.toNat_min, UInt64.toNat_mul, hnext, Nat.mod_eq_of_lt hend,
      Word.toNat_clamp]
    omega
  rw [blankIntervalExact, Word.add_of_lt (by rw [hplace, UInt64.toNat_one]; exact hcount), pure_bind,
    Word.mul_of_lt (by rw [hnext]; exact hend), pure_bind, hstop]

theorem mapM_eq_pure {α β : Type} {f : α → Except Trap β} {g : α → β} {xs : List α}
    (h : ∀ x ∈ xs, f x = pure (g x)) : xs.mapM f = pure (xs.map g) := by
  induction xs with
  | nil => rfl
  | cons x xs ih =>
    rw [List.forall_mem_cons] at h
    rw [List.mapM_cons, h.1, pure_bind, ih h.2, pure_bind]
    rfl

/-- **The blank report can be written down.** -/
theorem blankIntervalsExact_eq (hinterval : s.interval ≠ 0)
    (h : s.duration.toNat + s.interval.toNat < UInt64.size) :
    blankIntervalsExact s = pure (blankIntervals s) := by
  rw [blankIntervalsExact, intervalCountExact_eq hinterval h, pure_bind,
    mapM_eq_pure fun i hi => blankIntervalExact_eq hinterval h (List.mem_range.mp hi), pure_bind]
  refine congrArg pure (Array.ext' ?_)
  rw [blankIntervals, Array.toList_map, Array.toList_range]

/-! ## Sending

Everything that a turn must be ready for is a fact about the turns of the scenario.  So the facts are
collected here from `Scenario.Offers`, and the run is that of the exact turns. -/

/-- `sendAll` in exact arithmetic. -/
def sendAllExact (s : Scenario) (options : ShapingOptions) (times : Timetable) (shaper : Shaper) :
    Except Trap State := do
  let intervals ← blankIntervalsExact s
  let state ← times.schedule.foldUntilExact s.flows.toArray times.stop times.intervalLength
    (stepExact options times.intervalLength) ⟨shaper, intervals, 0⟩
  closeBeforeExact state.intervals.size state

/-- The turns of a scenario that can be counted are known. -/
theorem exists_taken (h : s.Countable) (htimes : Timetable.of s = .ok times) :
    ∃ turns, Schedule.Taken times.stop times.schedule turns := by
  obtain ⟨-, -, hschedule⟩ := timetable_eq_ok htimes
  refine Schedule.exists_taken_of_timely fun t ht ms hms => ?_
  have hflow := (((Schedule.ofFlows_eq_ok hschedule).2 t).mp ht).flow
  exact Schedule.instant_eq ms ▸ h.stops t.flow (List.mem_of_getElem? hflow) ms hms

/-- The first turns are turns of the scenario. -/
theorem belongs_of_timetable (hrates : ∀ f ∈ s.flows, f.rate ≠ 0) (htimes : Timetable.of s = .ok times) :
    ∀ t ∈ times.schedule, t.Belongs s.flows.toArray := by
  obtain ⟨-, -, hschedule⟩ := timetable_eq_ok htimes
  intro t ht
  obtain ⟨-, hflow, htime⟩ := ((Schedule.ofFlows_eq_ok hschedule).2 t).mp ht
  refine ⟨by rw [List.getElem?_toArray]; exact hflow, hrates _ (List.mem_of_getElem? hflow), ?_⟩
  rw [UInt64.le_iff_toNat_le, htime, Flow.sendTime_zero, Schedule.instant]
  omega

/-- **All packets of a scenario can be sent in exact arithmetic.** -/
theorem sendAllExact_eq (h : s.Countable) (hinterval : s.interval ≠ 0) (hrates : ∀ f ∈ s.flows, f.rate ≠ 0)
    (hshaper : shaper.Addressable) (htimes : Timetable.of s = .ok times) (options : ShapingOptions) :
    sendAllExact s options times shaper = sendAll s options times shaper := by
  have hcounted := h.duration_add_interval_lt
  obtain ⟨hlength, -⟩ := timetable_eq_ok htimes
  have hpos : times.intervalLength ≠ 0 := by
    have hpos := Scenario.intervalLength_pos hinterval
    intro hzero
    rw [hzero, UInt64.toNat_zero] at hlength
    omega
  obtain ⟨turns, htaken⟩ := exists_taken h htimes
  have hoffers := offers_of_taken htimes htaken
  obtain ⟨hsorted, hplace⟩ := places_of_offers hoffers hlength hinterval
  have hframe := frame_blankIntervals s
  have hintervals : (frame (blankIntervals s)).length < UInt64.size := by
    rw [hframe.1, intervalCount]
    exact Nat.lt_of_le_of_lt (Nat.div_le_self _ _) (by omega)
  have hindex : ∀ t ∈ turns, ∀ i ∈ frame (blankIntervals s), t.index < i.2 := by
    intro t ht i hi
    obtain ⟨k, hflow, -⟩ := (hoffers.mem_iff t).mp ht
    rw [hframe.2 i hi]
    exact (List.getElem?_eq_some_iff.mp hflow).1
  have hblank := State.reports_blank s shaper ⟨options, .directory⟩ times.intervalLength
  have hturns := foldlM_stepExact hpos hblank hshaper hintervals hsorted hplace
    (fun t ht => UInt64.le_iff_toNat_le.mpr (hoffers.time_lt ht).1) hindex
    (fun j g => hoffers.countP_lt h.instant_lt g fun t => decide (placeOf times.intervalLength t.time = j))
  rw [sendAllExact, blankIntervalsExact_eq hinterval hcounted, pure_bind,
    Schedule.foldUntilExact_of_taken htaken hpos (belongs_of_timetable hrates htimes), hturns, sendAll,
    Schedule.foldUntil_of_taken htaken]
  cases hlast : turns.foldlM (step options times.intervalLength) ⟨shaper, blankIntervals s, 0⟩ with
  | error trap => rfl
  | ok last => exact closeBeforeExact_eq _ ((hblank.run hlast hsorted hplace).size_eq ▸ hintervals)

/-- **A scenario that can be counted is carried out.** -/
theorem exists_state (h : s.Countable) (hinterval : s.interval ≠ 0) (hrates : ∀ f ∈ s.flows, f.rate ≠ 0)
    (htimes : Timetable.of s = .ok times) (options : ShapingOptions) :
    ∃ state, sendAll s options times shaper = .ok state := by
  obtain ⟨turns, htaken⟩ := exists_taken h htimes
  exact exists_sendAll hinterval htimes htaken
    (h.offeredBytes_lt hrates (offers_of_taken htimes htaken))

end Simulation

/-! ## Configurations that were checked -/

namespace Config

variable {c config : Config} {notes : List Note}

/-- **A configuration that was checked is put into force, or it is refused**, whether the check has changed it
or not. -/
theorem loadExact_of_check (hcheck : c.check = (.ok (), config, notes))
    (hslots : OpenTable.slotCount (max c.options.maxEntries.toNat 1) < UInt64.size) :
    (∃ s, (Shaper.empty c.options.maxEntries.toNat).call (.apply c) = (.ok (), s) ∧ s.Addressable ∧
        config.loadExact = .ok s) ∨
      (((Shaper.empty c.options.maxEntries.toNat).call (.apply c)).1 ≠ .ok () ∧
        ∃ f, config.loadExact = .error (.failed f)) := by
  have hconfig : c.check.2.1 = config := by rw [hcheck]
  have hacceptable : config.Acceptable :=
    hconfig ▸ (c.check_eq_ok_iff.mp (congrArg Prod.fst hcheck)).1.check
  have hoptions : config.options = c.options := hconfig ▸ c.options_check
  have hcall : ∀ s : Shaper, s.call (.apply config) = s.call (.apply c) := fun s => by
    rw [Shaper.call, Shaper.call, Call.control, Call.control, ← hconfig, apply_check]
  rw [← hoptions] at hslots
  have hcases := loadExact_cases hacceptable hslots
  rwa [hoptions, hcall] at hcases

/-- If there is enough memory, it makes no difference. -/
theorem load_eq_of_check (hcheck : c.check = (.ok (), config, notes))
    (hcapacity : OpenTable.checkCapacity c.options.maxEntries.toNat = .ok ())
    (hslots : OpenTable.slotCount (max c.options.maxEntries.toNat 1) < UInt64.size) :
    ∃ more, config.load = (config.loadExact, more) := by
  have hoptions : config.options = c.options := by
    rw [← c.options_check, hcheck]
  rw [← hoptions] at hcapacity hslots
  exact ⟨_, Prod.ext (load_eq_loadExact hcapacity hslots) rfl⟩

end Config

/-! ## Experiments

The cases of the theorem are the places at which an experiment may end, in their order.  Up to the
configuration both versions compute the same by definition. -/

namespace Simulation

/-- `run` in exact arithmetic, given that there is enough memory. -/
def runExact (s : Scenario) : Except Stop SimulationReport :=
  if s.interval = 0 then .error (.failed (.of .noInterval))
  else
    match idleFlow? s with
    | some f => .error (.failed (.of (.idleFlow f.name)))
    | none =>
      match s.config.check with
      | (.error f, _) => .error (.failed f)
      | (.ok _, config, _) =>
        match config.loadExact with
        | .error e => .error e
        | .ok shaper =>
          match Timetable.of s with
          | .error t => .error (.trapped t)
          | .ok times =>
            match sendAllExact s config.options times shaper with
            | .error t => .error (.trapped t)
            | .ok state => .ok (report s state)

variable {s : Scenario} {config : Config} {notes : List Note} {shaper : Shaper}

theorem idleFlow?_eq_none_iff : idleFlow? s = none ↔ ¬ ∃ f ∈ s.flows, f.rate = 0 ∨ f.packetSize = 0 := by
  simp [idleFlow?]

/-- Once the configuration is in force, the experiment comes to its report. -/
theorem exists_report_of_loadExact (h : s.Countable) (hinterval : s.interval ≠ 0) (hidle : idleFlow? s = none)
    (hcheck : s.config.check = (.ok (), config, notes)) (hload : config.loadExact = .ok shaper)
    (hshaper : shaper.Addressable) : ∃ report, runExact s = .ok report ∧
      ∀ more, config.load = (.ok shaper, more) → (run s).1 = .ok report := by
  have hrates : ∀ f ∈ s.flows, f.rate ≠ 0 := fun f hf hzero =>
    idleFlow?_eq_none_iff.mp hidle ⟨f, hf, .inl hzero⟩
  obtain ⟨times, htimes⟩ := h.exists_timetable
  obtain ⟨state, hstate⟩ := exists_state h hinterval hrates htimes config.options
  refine ⟨report s state, ?_, fun more hmore => ?_⟩
  · rw [runExact, if_neg hinterval, hidle, hcheck]
    dsimp only
    rw [hload, htimes]
    dsimp only
    rw [sendAllExact_eq h hinterval hrates hshaper htimes, hstate]
  · rw [run, if_neg hinterval, hidle, htimes, hcheck]
    dsimp only
    rw [hmore]
    dsimp only
    rw [hstate]

end Simulation

/-- The scenario is refused before a packet is sent: for what it says, or because its configuration cannot be put
into force. -/
inductive Scenario.Refused (s : Scenario) : Prop
  | interval (h : s.interval = 0)
  | flow (f : Flow) (hf : f ∈ s.flows) (h : f.rate = 0 ∨ f.packetSize = 0)
  | check (h : s.config.check.1 ≠ .ok ())
  | apply (h : ((Shaper.empty s.config.options.maxEntries.toNat).call (.apply s.config)).1 ≠ .ok ())

namespace Simulation

/-- **An experiment never traps.**  If all times of a scenario are words, and so are the bytes that each of its
flows offers, then the scenario is either refused before a packet is sent, which is so for an interval, a rate or
a size of zero and for a configuration that cannot be put into force, or it comes to its report in exact
arithmetic.  And if there is enough memory for its tables, that is the outcome of the experiment. -/
theorem never_traps (s : Scenario) (h : s.Countable) :
    (s.Refused → ∃ f, runExact s = .error (.failed f)) ∧
    (¬ s.Refused → ∃ report, runExact s = .ok report) ∧
    (OpenTable.checkCapacity s.config.options.maxEntries.toNat = .ok () → (run s).1 = runExact s) := by
  by_cases hinterval : s.interval = 0
  · rw [run, runExact, if_pos hinterval, if_pos hinterval]
    exact ⟨fun _ => ⟨_, rfl⟩, fun hnot => absurd (.interval hinterval) hnot, fun _ => rfl⟩
  cases hidle : idleFlow? s with
  | some f =>
    have hf : f.rate = 0 ∨ f.packetSize = 0 := by simpa using List.find?_some hidle
    rw [run, runExact, if_neg hinterval, if_neg hinterval, hidle]
    exact ⟨fun _ => ⟨_, rfl⟩,
      fun hnot => absurd (.flow f (List.mem_of_find?_eq_some hidle) hf) hnot, fun _ => rfl⟩
  | none =>
    rcases hcheck : s.config.check with ⟨f | _, config, notes⟩
    · have hrefused : s.config.check.1 ≠ .ok () := by
        rw [hcheck]
        exact fun h => by cases h
      rw [run, runExact, if_neg hinterval, if_neg hinterval, hidle, hcheck]
      exact ⟨fun _ => ⟨_, rfl⟩, fun hnot => absurd (.check hrefused) hnot, fun _ => rfl⟩
    · rcases Config.loadExact_of_check hcheck h.slots_lt with
        ⟨shaper, hcall, hshaper, hload⟩ | ⟨hcall, f, hload⟩
      · obtain ⟨report, hexact, hrun⟩ :=
          exists_report_of_loadExact h hinterval hidle hcheck hload hshaper
        refine ⟨fun hrefused => ?_, fun _ => ⟨report, hexact⟩, fun hcapacity => ?_⟩
        · cases hrefused with
          | interval hzero => exact absurd hzero hinterval
          | flow f hf hzero => exact absurd ⟨f, hf, hzero⟩ (idleFlow?_eq_none_iff.mp hidle)
          | check hnot => exact absurd (congrArg Prod.fst hcheck) hnot
          | apply hnot => exact absurd (congrArg Prod.fst hcall) hnot
        · obtain ⟨more, hmore⟩ := Config.load_eq_of_check hcheck hcapacity h.slots_lt
          rw [hexact, hrun more (hload ▸ hmore)]
      · have hstuck : runExact s = .error (.failed f) := by
          rw [runExact, if_neg hinterval, hidle, hcheck]
          dsimp only
          rw [hload]
        refine ⟨fun _ => ⟨f, hstuck⟩, fun hnot => absurd (.apply hcall) hnot, fun hcapacity => ?_⟩
        obtain ⟨more, hmore⟩ := Config.load_eq_of_check hcheck hcapacity h.slots_lt
        obtain ⟨times, htimes⟩ := h.exists_timetable
        rw [hstuck, run, if_neg hinterval, hidle, htimes, hcheck]
        dsimp only
        rw [hmore, hload]

end Simulation

/-! ## Cases

Two flows that send three packets and a single one. -/

namespace ShortExperiment

theorem offers : scenario.Offers turns := Simulation.offers_of_taken timetable taken

theorem countable : scenario.Countable where
  ends := by decide
  starts := by decide
  stops f hf stop hstop := by
    rcases List.mem_pair.mp hf with rfl | rfl
    · cases hstop
    · cases hstop
      decide
  bytes f hf _ := by
    have hend : Schedule.instant scenario.duration < UInt64.size := by decide
    have hcount := fun (g : Nat) (hg : scenario.flows[g]? = some f) => offers.encard_eq hend hg fun _ => true
    simp only [and_true, Bool.true_and] at hcount
    rcases List.mem_pair.mp hf with rfl | rfl
    · rw [hcount 0 rfl]
      exact_mod_cast (by decide : 1000 * 3 < 2 ^ 64)
    · rw [hcount 1 rfl]
      exact_mod_cast (by decide : 1000 * 1 < 2 ^ 64)
  entries := by decide

end ShortExperiment

section

open Simulation ShortExperiment

/-- They are carried out. -/
theorem Simulation.never_traps_in_three_milliseconds :
    scenario.Countable ∧ ∃ report, runExact scenario = .ok report ∧ (run scenario).1 = .ok report := by
  obtain ⟨-, hreport, hrun⟩ := never_traps scenario countable
  have haccepted : ¬ scenario.Refused := by
    intro hrefused
    cases hrefused with
    | interval h => exact absurd h (by decide)
    | flow f hf h => exact idleFlow?_eq_none_iff.mp rfl ⟨f, hf, h⟩
    | check h => exact h rfl
    | apply h => exact h rfl
  obtain ⟨report, hexact⟩ := hreport haccepted
  exact ⟨countable, report, hexact, (hrun rfl).trans hexact⟩

end

end Shaping
