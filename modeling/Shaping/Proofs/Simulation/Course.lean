import Shaping.Simulation
import Shaping.Proofs.Shaper.Account

/-!
# The course of an experiment

An experiment takes turns, and a turn is a `Sending`: its packet meets the shaper that the turns before it
have left.  What the report says is about these sendings and nothing else.  A sample counts those of its
flow in its interval, and adds up the bytes of those that leave in its interval; the caps of an interval are
the ones that all sendings up to the end of it have led to (`Simulation.State.Reports`).

The report is written while the turns are taken.  One turn closes the intervals that are over, counts its
packet in one place and its bytes maybe in another (`Simulation.Stepped`, `Simulation.step_eq_ok`), which is
what a report of one turn more needs, as long as turns come in the order of their intervals
(`Simulation.State.Reports.step`).  So all turns lead to a report of all turns
(`Simulation.State.Reports.run`).

Since the report is an array of arrays that is changed at one place at a time, nothing is said about it as a
whole.  It is known by what can be looked up in it: the sample at two places, the caps at one, and its
frame, which never changes.  For each of these there is an equation for each operation, and a turn is three
operations.
-/

set_option autoImplicit false

namespace Shaping

/-! ## Sendings

A sending is a passage with its turn.  The turn is needed because a sample is that of a flow, and the flow
cannot be seen from the packet. -/

/-- The packet of a turn comes. -/
def Turn.event (t : Turn) : Event := .packet t.flow.packet t.time

/-- A turn that is taken, with the shaper that its packet meets. -/
structure Sending where
  turn : Turn
  shaper : Shaper

/-- The sendings that some turns are. -/
def Pipeline.sendings (u : Pipeline) : Shaper → List Turn → List Sending
  | _, [] => []
  | s, t :: turns => ⟨t, s⟩ :: sendings u (u.step s t.event) turns

namespace Sending

variable (u : Pipeline) (x : Sending)

/-- The packet that is sent. -/
def passage : Passage := ⟨x.shaper, x.turn.flow.packet, x.turn.time⟩

/-- How it ends with the packet. -/
def ending : Ending := (x.passage.outcome u).ending x.turn.time

/-- When the packet leaves, if it is let go. -/
def leaves : UInt64 := x.passage.leaves u

/-- The packet is one of that flow, and sent in that interval. -/
def sentIn (length : UInt64) (interval flow : Nat) : Bool :=
  Simulation.placeOf length x.turn.time = interval ∧ x.turn.index = flow

/-- The packet is one of that flow, and leaves in that interval. -/
def leavesIn (length : UInt64) (interval flow : Nat) : Bool :=
  x.ending u ≠ .dropped ∧ Simulation.placeOf length (x.leaves u) = interval ∧ x.turn.index = flow

end Sending

namespace Pipeline

variable (u : Pipeline)

theorem sendings_append (s : Shaper) (earlier later : List Turn) :
    u.sendings s (earlier ++ later)
      = u.sendings s earlier ++ u.sendings (u.after s (earlier.map (·.event))) later := by
  induction earlier generalizing s with
  | nil => rfl
  | cons t earlier ih => exact congrArg _ (ih _)

theorem passages_eq (s : Shaper) (turns : List Turn) :
    u.passages s (turns.map (·.event)) = (u.sendings s turns).map (·.passage) := by
  induction turns generalizing s with
  | nil => rfl
  | cons t turns ih => exact congrArg _ (ih _)

theorem turn_sendings (s : Shaper) (turns : List Turn) :
    (u.sendings s turns).map (·.turn) = turns := by
  induction turns generalizing s with
  | nil => rfl
  | cons t turns ih => exact congrArg _ (ih _)

theorem countP_sendings (s : Shaper) (turns : List Turn) (p : Turn → Bool) :
    ((u.sendings s turns).countP fun x => p x.turn) = turns.countP p := by
  conv_rhs => rw [← u.turn_sendings s turns, List.countP_map]
  rfl

/-- The packets that are sent in an interval are its turns. -/
theorem countP_sentIn (s : Shaper) (turns : List Turn) (length : UInt64) (interval flow : Nat) :
    (u.sendings s turns).countP (·.sentIn length interval flow)
      = turns.countP fun t => Simulation.placeOf length t.time = interval && t.index = flow := by
  rw [← u.countP_sendings s turns]
  refine List.countP_congr fun x _ => ?_
  rw [Sending.sentIn, Bool.decide_and]

end Pipeline

/-! ## Columns

As with the counters of the shaper, the three counts of a sample are read by their column, so that they are
treated alike.  Bytes are different: they may be counted in another interval than the packet, and they are
counted exactly, since otherwise adding them up traps. -/

/-- What a report counts. -/
inductive Column where
  | sent
  | dropped
  | paced

/-- Is a packet counted that ended this way? -/
def Column.counts : Column → Ending → Bool
  | .sent, _ => true
  | .dropped, ending => ending = .dropped
  | .paced, ending => ending = .paced

/-- The count in a column. -/
def FlowSample.read (sample : FlowSample) : Column → UInt64
  | .sent => sample.sent
  | .dropped => sample.dropped
  | .paced => sample.paced

/-- A packet is counted. -/
def FlowSample.count (sample : FlowSample) (ending : Ending) : FlowSample where
  admittedBytes := sample.admittedBytes
  sent := sample.sent + 1
  dropped := if ending = .dropped then sample.dropped + 1 else sample.dropped
  paced := if ending = .paced then sample.paced + 1 else sample.paced

theorem FlowSample.read_count (sample : FlowSample) (ending : Ending) (c : Column) :
    (sample.count ending).read c = sample.read c + .ofNat (if c.counts ending then 1 else 0) := by
  cases c <;> cases ending <;> simp [read, count, Column.counts]

/-- What one packet makes of the sample of a flow in an interval. -/
structure Sending.Books (x : Sending) (u : Pipeline) (length : UInt64) (interval flow : Nat)
    (before after : FlowSample) : Prop where
  counts : ∀ c : Column, after.read c = before.read c +
    .ofNat (if x.sentIn length interval flow && c.counts (x.ending u) then 1 else 0)
  bytes : after.admittedBytes.toNat = before.admittedBytes.toNat +
    if x.leavesIn u length interval flow then x.turn.flow.packetSize.toNat else 0

/-- What packets amount to in the sample of a flow in an interval. -/
structure FlowSample.Counts (sample : FlowSample) (u : Pipeline) (length : UInt64)
    (interval flow : Nat) (xs : List Sending) : Prop where
  counts : ∀ c : Column, sample.read c
    = .ofNat (xs.countP fun x => x.sentIn length interval flow && c.counts (x.ending u))
  bytes : sample.admittedBytes.toNat
    = ((xs.filter (·.leavesIn u length interval flow)).map (·.turn.flow.packetSize.toNat)).sum

namespace FlowSample

variable {u : Pipeline} {length : UInt64} {interval flow : Nat}

theorem counts_zero : zero.Counts u length interval flow [] :=
  ⟨fun c => by cases c <;> rfl, rfl⟩

/-- One packet more. -/
theorem Counts.append {before after : FlowSample} {xs : List Sending} {x : Sending}
    (h : before.Counts u length interval flow xs) (hx : x.Books u length interval flow before after) :
    after.Counts u length interval flow (xs ++ [x]) := by
  refine ⟨fun c => ?_, ?_⟩
  · rw [hx.counts, h.counts, List.countP_append, List.countP_singleton, UInt64.ofNat_add]
  · rw [hx.bytes, h.bytes, List.filter_append, List.map_append, List.sum_append]
    by_cases hleaves : x.leavesIn u length interval flow = true <;> simp [hleaves]

end FlowSample

namespace Simulation

/-! ## What is in a report

Bytes that fall behind the last interval are not credited at all.  In terms of what can be looked up that is
no exception, since there is no sample for such an interval. -/

/-- The sample of a flow in an interval, if there are such. -/
def sampleAt (intervals : Array IntervalReport) (interval flow : Nat) : Option FlowSample :=
  intervals[interval]?.bind fun i => i.flows[flow]?

/-- The caps that are reported of an interval. -/
def capsAt (intervals : Array IntervalReport) (interval : Nat) :
    Option (PerDirection (PerTier UInt64)) :=
  intervals[interval]?.map (·.caps)

/-- The ends of the intervals, and of how many flows there are samples. -/
def frame (intervals : Array IntervalReport) : List (UInt64 × Nat) :=
  intervals.toList.map fun i => (i.stop, i.flows.size)

theorem size_eq_of_frame_eq {intervals intervals' : Array IntervalReport}
    (h : frame intervals' = frame intervals) : intervals'.size = intervals.size := by
  simpa [frame] using congrArg List.length h

section

variable (intervals : Array IntervalReport) (interval flow : Nat)

theorem frame_modify (f : IntervalReport → IntervalReport)
    (h : ∀ i, (f i).stop = i.stop ∧ (f i).flows.size = i.flows.size) :
    frame (intervals.modify interval f) = frame intervals := by
  refine List.ext_getElem? fun j => ?_
  simp only [frame, List.getElem?_map, Array.getElem?_toList, Array.getElem?_modify]
  split
  · cases intervals[j]? <;> simp [h]
  · rfl

theorem frame_modifySample (f : FlowSample → FlowSample) :
    frame (modifySample intervals interval flow f) = frame intervals :=
  frame_modify intervals interval _ fun i => ⟨rfl, by simp⟩

theorem capsAt_modifySample (f : FlowSample → FlowSample) (j : Nat) :
    capsAt (modifySample intervals interval flow f) j = capsAt intervals j := by
  rw [capsAt, modifySample, Array.getElem?_modify]
  split
  · cases hj : intervals[j]? <;> simp [capsAt, hj]
  · rfl

theorem sampleAt_modifySample (f : FlowSample → FlowSample) (j g : Nat) :
    sampleAt (modifySample intervals interval flow f) j g =
      if interval = j ∧ flow = g then (sampleAt intervals j g).map f else sampleAt intervals j g := by
  rw [sampleAt, modifySample, Array.getElem?_modify]
  by_cases hj : interval = j
  · simp only [hj, if_true, true_and, sampleAt]
    cases intervals[j]? with
    | none => simp
    | some i =>
      simp only [Option.map_some, Option.bind_some, Array.getElem?_modify]
  · simp [hj, sampleAt]

theorem modifySample_modifySample (f g : FlowSample → FlowSample) :
    modifySample (modifySample intervals interval flow f) interval flow g
      = modifySample intervals interval flow fun s => g (f s) := by
  have hflows : ∀ flows : Array FlowSample,
      (flows.modify flow f).modify flow g = flows.modify flow fun s => g (f s) := by
    intro flows
    refine Array.ext_getElem? fun j => ?_
    simp only [Array.getElem?_modify]
    split
    · rw [Option.map_map]
      rfl
    · rfl
  refine Array.ext_getElem? fun j => ?_
  simp only [modifySample, Array.getElem?_modify]
  split
  · rw [Option.map_map]
    refine congrArg (Option.map · _) (funext fun i => ?_)
    simp [hflows]
  · rfl

theorem creditedBytes_eq :
    creditedBytes intervals interval flow
      = (sampleAt intervals interval flow).elim 0 (·.admittedBytes) := by
  rw [creditedBytes, sampleAt]
  cases intervals[interval]? with
  | none => rfl
  | some i => cases hflow : i.flows[flow]? <;> simp [hflow]

end

/-- Bytes that were credited are in the sample of the flow in the interval, if there is one. -/
structure Credited (interval flow : Nat) (size : UInt64) (intervals credited : Array IntervalReport) :
    Prop where
  frame : frame credited = frame intervals
  caps : ∀ j, capsAt credited j = capsAt intervals j
  samples : ∀ j g after, sampleAt credited j g = some after →
    ∃ before, sampleAt intervals j g = some before ∧ (∀ c, after.read c = before.read c) ∧
      after.admittedBytes.toNat = before.admittedBytes.toNat +
        if interval = j ∧ flow = g then size.toNat else 0

theorem credit_eq_ok {intervals credited : Array IntervalReport} {interval flow : Nat} {size : UInt64}
    (h : credit intervals interval flow size = .ok credited) :
    Credited interval flow size intervals credited := by
  rw [credit] at h
  split at h
  · cases hsum : Word.add (creditedBytes intervals interval flow) size with
    | error trap =>
      rw [hsum] at h
      cases h
    | ok bytes =>
      rw [hsum] at h
      cases h
      rw [Word.add, Word.exact_eq_ok_iff, creditedBytes_eq] at hsum
      refine ⟨frame_modifySample _ _ _ _, capsAt_modifySample _ _ _ _, fun j g after hafter => ?_⟩
      rw [sampleAt_modifySample] at hafter
      split at hafter
      · rename_i hplace
        obtain ⟨before, hbefore, rfl⟩ := Option.map_eq_some_iff.mp hafter
        rw [hplace.1, hplace.2, hbefore, Option.elim_some] at hsum
        refine ⟨before, hbefore, fun c => by cases c <;> rfl, ?_⟩
        rw [if_pos hplace]
        exact hsum
      · rename_i hplace
        exact ⟨after, hafter, fun _ => rfl, by rw [if_neg hplace, Nat.add_zero]⟩
  · rename_i hpast
    cases h
    refine ⟨rfl, fun _ => rfl, fun j g after hafter => ⟨after, hafter, fun _ => rfl, ?_⟩⟩
    rw [if_neg, Nat.add_zero]
    rintro ⟨rfl, -⟩
    rw [sampleAt, Array.getElem?_eq_none (Nat.le_of_not_lt hpast)] at hafter
    cases hafter

/-! ## Intervals that are over

Intervals are closed in front of a turn, and so the caps that are noted are those of the shaper before it.
The induction is that of the code, one interval at a time, and what it says is where the count of closed
intervals gets to and which caps are noted on the way. -/

/-- The caps of the intervals that are over are noted, and that is all. -/
theorem closeBefore_spec (target : Nat) (st : State) :
    (closeBefore target st).shaper = st.shaper ∧
    (closeBefore target st).ended = max st.ended (min target st.intervals.size) ∧
    frame (closeBefore target st).intervals = frame st.intervals ∧
    (∀ j g, sampleAt (closeBefore target st).intervals j g = sampleAt st.intervals j g) ∧
    ∀ j, capsAt (closeBefore target st).intervals j =
      if st.ended ≤ j ∧ j < target then
        (capsAt st.intervals j).map fun _ => currentCaps st.shaper
      else capsAt st.intervals j := by
  induction st using closeBefore.induct target with
  | case1 shaper intervals ended hopen caps ih =>
    have hframe := frame_modify intervals ended (fun i => { i with caps }) fun i => ⟨rfl, rfl⟩
    have hsize := size_eq_of_frame_eq hframe
    rw [closeBefore, if_pos hopen]
    obtain ⟨hshaper, hended, hframe', hsamples, hcaps⟩ := ih
    dsimp only at hended hcaps hsamples ⊢
    refine ⟨hshaper, ?_, hframe'.trans hframe, fun j g => ?_, fun j => ?_⟩
    · rw [hended, hsize]
      omega
    · rw [hsamples, sampleAt, sampleAt, Array.getElem?_modify]
      split
      · cases intervals[j]? <;> rfl
      · rfl
    · have hcapsAt : capsAt (intervals.modify ended fun i => { i with caps }) j
          = if ended = j then (capsAt intervals j).map fun _ => caps else capsAt intervals j := by
        rw [capsAt, capsAt, Array.getElem?_modify]
        split
        · cases intervals[j]? <;> rfl
        · rfl
      rw [hcaps, hcapsAt]
      by_cases hj : ended = j
      · subst hj
        rw [if_neg (by omega), if_pos rfl, if_pos ⟨Nat.le_refl _, hopen.1⟩]
      · rw [if_neg hj]
        exact if_congr (by omega) rfl rfl
  | case2 shaper intervals ended hclosed =>
    rw [closeBefore, if_neg hclosed]
    refine ⟨rfl, ?_, rfl, fun _ _ => rfl, fun j => ?_⟩
    · dsimp only
      omega
    · split
      · rename_i hj
        have hpast : intervals.size ≤ j := by
          dsimp only at hj
          omega
        simp [capsAt, Array.getElem?_eq_none hpast]
      · rfl

/-! ## Turns

The code counts a packet as sent first, and then once more if it is dropped or paced.  It is put together to
one change of the sample (`FlowSample.count`) before anything is said about it, for in between the sample
says what is not so. -/

/-- What is done at a turn. -/
structure Stepped (u : Pipeline) (length : UInt64) (t : Turn) (st st' : State) : Prop where
  shaper : st'.shaper = u.step st.shaper t.event
  /-- Intervals before the one of the turn are over. -/
  ended : st'.ended = max st.ended (min (placeOf length t.time) st.intervals.size)
  frame : frame st'.intervals = frame st.intervals
  caps : ∀ j, capsAt st'.intervals j =
    if st.ended ≤ j ∧ j < placeOf length t.time then
      (capsAt st.intervals j).map fun _ => currentCaps st.shaper
    else capsAt st.intervals j
  samples : ∀ j g after, sampleAt st'.intervals j g = some after →
    ∃ before, sampleAt st.intervals j g = some before ∧
      (⟨t, st.shaper⟩ : Sending).Books u length j g before after

/-- A packet that does not ask for a time asks for now. -/
theorem max_zero (w : UInt64) : max 0 w = w := if_pos UInt64.zero_le

/-- **A turn in terms of what becomes of its packet.** -/
theorem step_eq (options : ShapingOptions) (length : UInt64) (st : State) (t : Turn) :
    let u : Pipeline := ⟨options, .directory⟩
    let x : Sending := ⟨t, st.shaper⟩
    let closed := closeBefore (placeOf length t.time) st
    let counted := modifySample closed.intervals (placeOf length t.time) t.index (·.count (x.ending u))
    step options length st t = do
      let intervals ←
        if x.ending u = .dropped then pure counted
        else credit counted (placeOf length (x.leaves u)) t.index t.flow.packetSize
      return ⟨u.step st.shaper t.event, intervals, closed.ended⟩ := by
  intro u x closed counted
  have hshaper : (closeBefore (placeOf length t.time) st).shaper = st.shaper :=
    (closeBefore_spec _ st).1
  have hending : x.ending u = Outcome.ending t.time
      ⟨(x.passage.decision u).1, (x.passage.decision u).2.1.departure⟩ := rfl
  have hleaves : x.leaves u = max (x.passage.decision u).2.1.departure t.time := rfl
  have hafter : u.step st.shaper t.event = (x.passage.decision u).2.2 := rfl
  have hdecision : st.shaper.process options .directory t.flow.packet t.time = x.passage.decision u :=
    rfl
  rw [hafter]
  simp only [counted, hending, hleaves]
  rw [step]
  dsimp only
  rw [hshaper, hdecision]
  generalize x.passage.decision u = decision
  obtain ⟨verdict, packet, shaper'⟩ := decision
  have hlater : t.time < max packet.departure t.time ↔ t.time < packet.departure := by
    rw [UInt64.lt_iff_toNat_lt, UInt64.lt_iff_toNat_lt, Word.toNat_max]
    omega
  cases verdict with
  | drop =>
    rw [modifySample_modifySample]
    rfl
  | pass =>
    simp only [Outcome.ending, hlater]
    by_cases hpaced : t.time < packet.departure
    · simp only [if_pos hpaced, modifySample_modifySample]
      rfl
    · simp only [if_neg hpaced]
      rfl

/-- A packet is counted where it is sent. -/
theorem sampleAt_counted {intervals : Array IntervalReport} {u : Pipeline} {length : UInt64}
    {x : Sending} {j g : Nat} {after : FlowSample}
    (h : sampleAt (modifySample intervals (placeOf length x.turn.time) x.turn.index
      (·.count (x.ending u))) j g = some after) :
    ∃ before, sampleAt intervals j g = some before ∧
      (∀ c : Column, after.read c = before.read c +
        .ofNat (if x.sentIn length j g && c.counts (x.ending u) then 1 else 0)) ∧
      after.admittedBytes = before.admittedBytes := by
  rw [sampleAt_modifySample] at h
  split at h
  · rename_i hplace
    obtain ⟨before, hbefore, rfl⟩ := Option.map_eq_some_iff.mp h
    have hsent : x.sentIn length j g = true := decide_eq_true hplace
    exact ⟨before, hbefore, fun c => by rw [FlowSample.read_count, hsent, Bool.true_and], rfl⟩
  · rename_i hplace
    have hsent : x.sentIn length j g = false := decide_eq_false hplace
    exact ⟨after, h, fun c => by simp [hsent], rfl⟩

/-- **What is done at a turn**: the intervals that are over are closed, and the packet is decided about and
counted. -/
theorem step_eq_ok {options : ShapingOptions} {length : UInt64} {st st' : State} {t : Turn}
    (h : step options length st t = .ok st') : Stepped ⟨options, .directory⟩ length t st st' := by
  obtain ⟨-, hended, hframe, hsamples, hcaps⟩ := closeBefore_spec (placeOf length t.time) st
  rw [step_eq] at h
  dsimp only at h
  generalize closeBefore (placeOf length t.time) st = closed at *
  split at h
  · rename_i hending
    cases h
    refine ⟨rfl, hended, ?_, fun j => ?_, fun j g after hafter => ?_⟩
    · rw [frame_modifySample, hframe]
    · rw [capsAt_modifySample, hcaps]
    · obtain ⟨before, hbefore, hcounts, hbytes⟩ :=
        sampleAt_counted (x := ⟨t, st.shaper⟩) hafter
      exact ⟨before, hsamples j g ▸ hbefore, hcounts, by simp [Sending.leavesIn, hending, hbytes]⟩
  · rename_i hending
    cases hcredit : credit (modifySample closed.intervals (placeOf length t.time) t.index
        (·.count (Sending.ending ⟨options, .directory⟩ ⟨t, st.shaper⟩)))
        (placeOf length (Sending.leaves ⟨options, .directory⟩ ⟨t, st.shaper⟩)) t.index
        t.flow.packetSize with
    | error trap =>
      rw [hcredit] at h
      cases h
    | ok credited =>
      rw [hcredit] at h
      cases h
      have hcredited := credit_eq_ok hcredit
      refine ⟨rfl, hended, ?_, fun j => ?_, fun j g after hafter => ?_⟩
      · rw [hcredited.frame, frame_modifySample, hframe]
      · rw [hcredited.caps, capsAt_modifySample, hcaps]
      · obtain ⟨middle, hmiddle, hsame, hbytes⟩ := hcredited.samples j g after hafter
        obtain ⟨before, hbefore, hcounts, hbytes'⟩ :=
          sampleAt_counted (x := ⟨t, st.shaper⟩) hmiddle
        refine ⟨before, hsamples j g ▸ hbefore, fun c => (hsame c).trans (hcounts c), ?_⟩
        rw [hbytes, hbytes', Sending.leavesIn]
        simp [hending]

/-! ## Runs

The invariant carries more than the theorem wants.  When a turn closes intervals, their caps have to be
those after all turns up to their ends, and for this it has to be known that no turn before was later
(`reached`) and that no interval was closed too early (`ended_le`).  Both are about places of turns, and
that is where the order of turns comes in. -/

/-- The report after some turns, if it was blank before them. -/
structure State.Reports (st : State) (u : Pipeline) (length : UInt64) (start : Shaper)
    (blank : List (UInt64 × Nat)) (turns : List Turn) : Prop where
  shaper : st.shaper = u.after start (turns.map (·.event))
  frame : frame st.intervals = blank
  /-- What is over does not come back. -/
  reached : ∀ t ∈ turns, placeOf length t.time ≤ st.ended
  /-- Nothing is over until there is a turn after it. -/
  ended_le : ∀ place, (∀ t ∈ turns, placeOf length t.time ≤ place) → st.ended ≤ place
  /-- The caps of an interval that is over are those after the turns up to its end. -/
  caps : ∀ j < st.ended, ∀ caps, capsAt st.intervals j = some caps → caps = currentCaps
    (u.after start ((turns.filter fun t => placeOf length t.time ≤ j).map (·.event)))
  samples : ∀ j g sample, sampleAt st.intervals j g = some sample →
    sample.Counts u length j g (u.sendings start turns)

namespace State.Reports

variable {u : Pipeline} {length : UInt64} {start : Shaper} {blank : List (UInt64 × Nat)}
  {turns : List Turn} {st st' : State} {t : Turn}

theorem size_eq (h : st.Reports u length start blank turns) : st.intervals.size = blank.length := by
  simp [← h.frame, Simulation.frame]

/-- **A turn more**, in the same interval or a later one. -/
theorem step (h : st.Reports u length start blank turns) (hstep : Stepped u length t st st')
    (hlast : ∀ t' ∈ turns, placeOf length t'.time ≤ placeOf length t.time)
    (hplace : placeOf length t.time < blank.length) :
    st'.Reports u length start blank (turns ++ [t]) := by
  have hle : st.ended ≤ placeOf length t.time := h.ended_le _ hlast
  have hended : st'.ended = placeOf length t.time := by
    rw [hstep.ended, h.size_eq]
    omega
  refine ⟨?_, hstep.frame.trans h.frame, fun t' ht' => ?_, fun place hall => ?_,
    fun j hj caps hcaps => ?_, fun j g after hafter => ?_⟩
  · rw [hstep.shaper, h.shaper, List.map_append, Pipeline.after_append]
    rfl
  · rw [hended]
    rcases List.mem_append.mp ht' with ht' | ht'
    · exact hlast t' ht'
    · rw [List.mem_singleton.mp ht']
  · rw [hended]
    exact hall t (List.mem_append_right _ List.mem_cons_self)
  · rw [hended] at hj
    have hlate : ¬ placeOf length t.time ≤ j := by omega
    rw [List.filter_append, List.filter_singleton, decide_eq_false hlate, Bool.cond_false,
      List.append_nil]
    rw [hstep.caps] at hcaps
    split at hcaps
    · rename_i hopen
      obtain ⟨-, -, rfl⟩ := Option.map_eq_some_iff.mp hcaps
      rw [List.filter_eq_self.mpr fun t' ht' =>
        decide_eq_true (Nat.le_trans (h.reached t' ht') hopen.1), h.shaper]
    · rename_i hclosed
      exact h.caps j (by omega) caps hcaps
  · obtain ⟨before, hbefore, hbooks⟩ := hstep.samples j g after hafter
    rw [Pipeline.sendings_append, ← h.shaper]
    exact (h.samples j g before hbefore).append hbooks

/-- **All turns.** -/
theorem run {options : ShapingOptions} {later : List Turn}
    (h : st.Reports ⟨options, .directory⟩ length start blank turns)
    (hrun : later.foldlM (Simulation.step options length) st = .ok st')
    (hsorted : (turns ++ later).Pairwise fun a b => placeOf length a.time ≤ placeOf length b.time)
    (hplace : ∀ t ∈ later, placeOf length t.time < blank.length) :
    st'.Reports ⟨options, .directory⟩ length start blank (turns ++ later) := by
  induction later generalizing turns st with
  | nil =>
    cases hrun
    rwa [List.append_nil]
  | cons t later ih =>
    rw [List.foldlM_cons] at hrun
    cases hstep : Simulation.step options length st t with
    | error trap =>
      rw [hstep] at hrun
      cases hrun
    | ok next =>
      rw [hstep] at hrun
      rw [List.forall_mem_cons] at hplace
      have hlast := (List.pairwise_append.mp hsorted).2.2
      rw [List.append_cons] at hsorted ⊢
      exact ih (h.step (step_eq_ok hstep) (fun t' ht' => hlast t' ht' t List.mem_cons_self) hplace.1)
        hrun hsorted hplace.2

end State.Reports

end Simulation

end Shaping
