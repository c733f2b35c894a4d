import Shaping.Proofs.Shaper.Exact
import Shaping.Proofs.Simulation.Course

/-!
# Turns in exact arithmetic

What is done at a turn once more, with exact arithmetic and an access by place wherever the report or a cap
is looked up.  Three things have to be known for it to come to the same end (`Simulation.Ready`).

The turn is not before the beginning, and so neither is the packet when it leaves: an interval can be
computed for both of them.  The one of the turn is reported; the other one need not be, and then no bytes
are credited.  In every interval that is reported the flow has a sample.  And the sample of the turn has not
been counted to the end of a word.

While turns are taken, all of this stays so.  A turn leaves the frame of the report as it is, and a sample
does not count more than the turns of its flow in its interval (`Simulation.toNat_read_le`).  So all turns
come to the same end if no flow has more of them in an interval than can be counted
(`Simulation.foldlM_stepExact`).  Whether credited bytes can be added up is of no concern here, because
`Simulation.credit` is exact itself.
-/

set_option autoImplicit false

namespace Shaping

namespace Simulation

/-! ## Intervals

The count of closed intervals is a word in the exact version and a number in the other one.  That makes no
difference as long as there are no more intervals than words. -/

/-- `placeOf` in exact arithmetic. -/
def placeOfExact (length time : UInt64) : Except Trap Nat := do
  return (← Word.div (← Word.sub time Schedule.origin) length).toNat

theorem placeOfExact_eq {length time : UInt64} (hlength : length ≠ 0) (h : Schedule.origin ≤ time) :
    placeOfExact length time = pure (placeOf length time) := by
  rw [placeOfExact, Word.sub_of_le h, pure_bind, Word.div_of_ne_zero _ hlength, pure_bind]
  rfl

/-- `currentCaps` by the places of directions and tiers. -/
def currentCapsExact (s : Shaper) : Except Trap (PerDirection (PerTier UInt64)) := do
  let caps (d : Direction) : Except Trap (PerTier UInt64) := do
    let lane ← s.lanes.getExact d
    (PerTier.const 0).fillExact fun t => return (← lane.caps.limiters.getExact t).rate
  return ⟨← caps .ingress, ← caps .egress⟩

/-- `closeBefore` in exact arithmetic. -/
def closeBeforeExact (target : Nat) : State → Except Trap State
  | ⟨shaper, intervals, ended⟩ =>
    if _h : ended < target ∧ ended < intervals.size then do
      let _ ← element intervals ended
      let caps ← currentCapsExact shaper
      let _ ← Word.add (.ofNat ended) 1
      closeBeforeExact target ⟨shaper, intervals.modify ended fun i => { i with caps }, ended + 1⟩
    else return ⟨shaper, intervals, ended⟩
termination_by s => target - s.ended

theorem currentCapsExact_eq (s : Shaper) : currentCapsExact s = pure (currentCaps s) := by
  have hcaps : ∀ d, ((PerTier.const 0).fillExact fun t => do
      return (← (s.lanes.get d).caps.limiters.getExact t).rate) =
        (pure ((s.lane d).caps.limiters.map (·.rate)) : Except Trap (PerTier UInt64)) := by
    intro d
    rw [PerTier.fillExact_eq (g := fun t => ((s.lane d).caps.limiters.get t).rate) _ fun t => by
      rw [PerTier.getExact_eq, pure_bind]; rfl]
    rfl
  rw [currentCapsExact]
  simp only [PerDirection.getExact_eq, pure_bind, hcaps]
  rfl

theorem closeBeforeExact_eq (target : Nat) {st : State} (h : st.intervals.size < UInt64.size) :
    closeBeforeExact target st = pure (closeBefore target st) := by
  induction st using closeBefore.induct target with
  | case1 shaper intervals ended hopen caps ih =>
    dsimp only at h
    have hcount : (UInt64.ofNat ended).toNat + (1 : UInt64).toNat < UInt64.size := by
      rw [UInt64.toNat_ofNat_of_lt' (by omega), UInt64.toNat_one]
      omega
    rw [closeBeforeExact, dif_pos hopen, element_of_some (Array.getElem?_eq_getElem hopen.2), pure_bind,
      currentCapsExact_eq, pure_bind, Word.add_of_lt hcount, pure_bind, closeBefore, if_pos hopen]
    exact ih (by simpa using h)
  | case2 shaper intervals ended hclosed =>
    rw [closeBeforeExact, dif_neg hclosed, closeBefore, if_neg hclosed]

/-! ## Samples

Exact arithmetic makes a change of a sample that may fail, and the plain one may not.  They agree on the
sample that is there, and what they would do to others is of no concern (`modifySample_congr`).  So the
sample is looked up first, and it is this one that must not be at the end of its range. -/

/-- `modifySample` by the places of the interval and of the flow, with a change in exact arithmetic. -/
def modifySampleExact (intervals : Array IntervalReport) (interval flow : Nat)
    (f : FlowSample → Except Trap FlowSample) : Except Trap (Array IntervalReport) := do
  let sample ← f (← element (← element intervals interval).flows flow)
  return modifySample intervals interval flow fun _ => sample

/-- A packet more in a column. -/
def increment (c : Column) (s : FlowSample) : FlowSample :=
  match c with
  | .sent => { s with sent := s.sent + 1 }
  | .dropped => { s with dropped := s.dropped + 1 }
  | .paced => { s with paced := s.paced + 1 }

/-- `increment` in exact arithmetic. -/
def incrementExact (c : Column) (s : FlowSample) : Except Trap FlowSample :=
  match c with
  | .sent => return { s with sent := ← Word.add s.sent 1 }
  | .dropped => return { s with dropped := ← Word.add s.dropped 1 }
  | .paced => return { s with paced := ← Word.add s.paced 1 }

/-- `credit` by the places of the interval and of the flow. -/
def creditExact (intervals : Array IntervalReport) (interval flow : Nat) (size : UInt64) :
    Except Trap (Array IntervalReport) :=
  if interval < intervals.size then
    modifySampleExact intervals interval flow fun s => do
      return { s with admittedBytes := ← Word.add s.admittedBytes size }
  else return intervals

section

variable {intervals : Array IntervalReport} {interval flow : Nat} {sample : FlowSample}

theorem modifySample_congr {f g : FlowSample → FlowSample}
    (h : ∀ sample, sampleAt intervals interval flow = some sample → f sample = g sample) :
    modifySample intervals interval flow f = modifySample intervals interval flow g := by
  refine Array.ext_getElem? fun j => ?_
  simp only [modifySample, Array.getElem?_modify]
  split
  · rename_i hj
    refine Option.map_congr fun i hi => congrArg (IntervalReport.mk _ _) (Array.ext_getElem? fun k => ?_)
    simp only [Array.getElem?_modify]
    split
    · rename_i hk
      refine Option.map_congr fun sample hsample => h sample ?_
      rw [sampleAt, hj, hi, Option.bind_some, hk, hsample]
    · rfl
  · rfl

/-- A sample that is there can be changed. -/
theorem modifySampleExact_eq (h : sampleAt intervals interval flow = some sample)
    {exact : FlowSample → Except Trap FlowSample} {f : FlowSample → FlowSample}
    (hf : exact sample = pure (f sample)) :
    modifySampleExact intervals interval flow exact = pure (modifySample intervals interval flow f) := by
  obtain ⟨i, hi, hflow⟩ := Option.bind_eq_some_iff.mp h
  rw [modifySampleExact, element_of_some hi, pure_bind, element_of_some hflow, pure_bind, hf, pure_bind,
    modifySample_congr fun other hother => ?_]
  rw [h, Option.some_inj] at hother
  rw [hother]

/-- A packet more can be counted. -/
theorem modifySampleExact_increment (h : sampleAt intervals interval flow = some sample) (c : Column)
    (hcount : (sample.read c).toNat + 1 < UInt64.size) :
    modifySampleExact intervals interval flow (incrementExact c)
      = pure (modifySample intervals interval flow (increment c)) := by
  refine modifySampleExact_eq h ?_
  have hadd : Word.add (sample.read c) 1 = pure (sample.read c + 1) := Word.add_of_lt hcount
  cases c <;> rw [FlowSample.read] at hadd <;> rw [incrementExact, hadd, pure_bind] <;> rfl

/-- Bytes that can be added up are credited, if there is a sample for them. -/
theorem creditExact_eq (h : interval < intervals.size → ∃ sample, sampleAt intervals interval flow = some sample)
    (size : UInt64) : creditExact intervals interval flow size = credit intervals interval flow size := by
  rw [creditExact, credit]
  split
  · rename_i hplace
    obtain ⟨sample, hsample⟩ := h hplace
    obtain ⟨i, hi, hflow⟩ := Option.bind_eq_some_iff.mp hsample
    rw [modifySampleExact, element_of_some hi, pure_bind, element_of_some hflow, pure_bind, creditedBytes_eq,
      hsample, Option.elim_some]
    cases Word.add sample.admittedBytes size with
    | error trap => rfl
    | ok bytes =>
      refine congrArg Except.ok (modifySample_congr fun other hother => ?_)
      rw [hsample, Option.some_inj] at hother
      rw [hother]
  · rfl

theorem exists_sampleAt (hframe : ∀ i ∈ frame intervals, flow < i.2) (h : interval < intervals.size) :
    ∃ sample, sampleAt intervals interval flow = some sample := by
  have hflow := hframe (intervals[interval].stop, intervals[interval].flows.size)
    (List.mem_map.mpr ⟨intervals[interval], Array.getElem_mem_toList h, rfl⟩)
  rw [sampleAt, Array.getElem?_eq_getElem h, Option.bind_some]
  exact ⟨_, Array.getElem?_eq_getElem hflow⟩

end

/-- No sample counts more than the turns of its flow in its interval. -/
theorem toNat_read_le {sample : FlowSample} {u : Pipeline} {length : UInt64} {j g : Nat} {start : Shaper}
    {turns : List Turn} (h : sample.Counts u length j g (u.sendings start turns)) (c : Column) :
    (sample.read c).toNat ≤ turns.countP fun t => placeOf length t.time = j && t.index = g := by
  rw [h.counts c, UInt64.toNat_ofNat', ← u.countP_sentIn start]
  refine Nat.le_trans (Nat.mod_le _ _) (List.countP_mono_left fun x _ hx => ?_)
  exact (Bool.and_eq_true_iff.mp hx).1

/-! ## Turns

Here the code is followed as it stands, with its two increments one after the other.  For the second one it
is needed that the sample has its old count in the other column, which the first one has not touched. -/

/-- `step` in exact arithmetic, given the interval of the turn. -/
def stepExact (options : ShapingOptions) (length : UInt64) (place : Nat) (s : State) (t : Turn) :
    Except Trap State := do
  let ⟨shaper, intervals, ended⟩ ← closeBeforeExact place s
  let (verdict, packet, shaper) ← shaper.processExact options .directory t.flow.packet t.time
  let intervals ← modifySampleExact intervals place t.index (incrementExact .sent)
  match verdict with
  | .drop =>
    let intervals ← modifySampleExact intervals place t.index (incrementExact .dropped)
    return ⟨shaper, intervals, ended⟩
  | .pass =>
    let departure := max packet.departure t.time
    let intervals ←
      if t.time < departure then
        modifySampleExact intervals place t.index (incrementExact .paced)
      else pure intervals
    let leaving ← placeOfExact length departure
    let intervals ← creditExact intervals leaving t.index t.flow.packetSize
    return ⟨shaper, intervals, ended⟩

/-- What a turn presupposes of the report. -/
structure Ready (length : UInt64) (st : State) (t : Turn) : Prop where
  began : Schedule.origin ≤ t.time
  place : placeOf length t.time < st.intervals.size
  size : st.intervals.size < UInt64.size
  addressable : st.shaper.Addressable
  /-- The flow has a sample in every interval. -/
  samples : ∀ i ∈ frame st.intervals, t.index < i.2
  /-- One packet more can be counted. -/
  counts : ∀ sample, sampleAt st.intervals (placeOf length t.time) t.index = some sample →
    ∀ c, (sample.read c).toNat + 1 < UInt64.size

/-- **A turn comes to the same end.** -/
theorem stepExact_eq (options : ShapingOptions) {length : UInt64} (hlength : length ≠ 0) {st : State} {t : Turn}
    (h : Ready length st t) :
    stepExact options length (placeOf length t.time) st t = step options length st t := by
  obtain ⟨hshaper, -, hframe, hsame, -⟩ := closeBefore_spec (placeOf length t.time) st
  have haddressable := h.addressable
  have hsamples := h.samples
  obtain ⟨sample, hsample⟩ := exists_sampleAt hsamples h.place
  have hcounts := h.counts sample hsample
  rw [← hsame] at hsample
  rw [← hshaper] at haddressable
  rw [← hframe] at hsamples
  rw [stepExact, step, closeBeforeExact_eq _ h.size, pure_bind]
  generalize closeBefore (placeOf length t.time) st = closed at *
  obtain ⟨shaper, intervals, ended⟩ := closed
  dsimp only at *
  rw [Shaper.processExact_eq haddressable options t.flow.packet t.time
    (ExactResolver.directory_eq haddressable.directory _), pure_bind]
  generalize shaper.process options .directory t.flow.packet t.time = decision
  obtain ⟨verdict, packet, shaper'⟩ := decision
  dsimp only
  rw [modifySampleExact_increment hsample .sent (hcounts .sent), pure_bind]
  -- the packet is counted as sent by now, and nothing else is changed about the sample
  have hsent : sampleAt (modifySample intervals (placeOf length t.time) t.index (increment .sent))
      (placeOf length t.time) t.index = some (increment .sent sample) := by
    rw [sampleAt_modifySample, if_pos ⟨rfl, rfl⟩, hsample, Option.map_some]
  cases verdict with
  | drop =>
    dsimp only
    rw [modifySampleExact_increment hsent .dropped (hcounts .dropped), pure_bind]
    rfl
  | pass =>
    have hdeparture : Schedule.origin ≤ max packet.departure t.time := by
      have hbegan := h.began
      rw [UInt64.le_iff_toNat_le] at hbegan ⊢
      rw [Word.toNat_max]
      omega
    dsimp only
    split
    · rw [modifySampleExact_increment hsent .paced (hcounts .paced), pure_bind, placeOfExact_eq hlength hdeparture,
        pure_bind, creditExact_eq fun hplace =>
          exists_sampleAt (by rwa [frame_modifySample, frame_modifySample]) hplace]
      rfl
    · rw [pure_bind, placeOfExact_eq hlength hdeparture, pure_bind, creditExact_eq fun hplace =>
        exists_sampleAt (by rwa [frame_modifySample]) hplace]
      rfl

end Simulation

/-- Packets keep tables that can be addressed. -/
theorem Pipeline.addressable_after (u : Pipeline) {s : Shaper} (h : s.Addressable) (events : List Event) :
    (u.after s events).Addressable := by
  induction events generalizing s with
  | nil => exact h
  | cons e events ih => exact ih (u.inTables_step OpenTable.kept_addressable OpenTable.kept_addressable h e)

namespace Simulation

/-! ## Runs

Whether a turn is ready depends on the report so far, and `State.Reports` says what that is.  The plain run
is known to keep it; and as the exact turn is equal to the plain one, the exact run does not have to be
followed on its own. -/

section

variable {options : ShapingOptions} {length : UInt64} {st : State} {start : Shaper}
  {blank : List (UInt64 × Nat)} {turns later : List Turn} {t : Turn}

theorem State.Reports.ready (h : st.Reports ⟨options, .directory⟩ length start blank turns)
    (hstart : start.Addressable) (hsize : blank.length < UInt64.size) (hbegan : Schedule.origin ≤ t.time)
    (hplace : placeOf length t.time < blank.length) (hindex : ∀ i ∈ blank, t.index < i.2)
    (hcount : ((turns ++ [t]).countP fun x => placeOf length x.time = placeOf length t.time
      && x.index = t.index) < UInt64.size) : Ready length st t where
  began := hbegan
  place := h.size_eq ▸ hplace
  size := h.size_eq ▸ hsize
  addressable := by
    rw [h.shaper]
    exact Pipeline.addressable_after _ hstart _
  samples := h.frame ▸ hindex
  counts sample hsample c := by
    have hle := toNat_read_le (h.samples _ _ sample hsample) c
    rw [List.countP_append, List.countP_singleton, decide_eq_true rfl, decide_eq_true rfl] at hcount
    simp only [Bool.and_self, if_true] at hcount
    omega

/-- **All turns come to the same end.** -/
theorem foldlM_stepExact (hlength : length ≠ 0)
    (h : st.Reports ⟨options, .directory⟩ length start blank turns) (hstart : start.Addressable)
    (hsize : blank.length < UInt64.size)
    (hsorted : (turns ++ later).Pairwise fun a b => placeOf length a.time ≤ placeOf length b.time)
    (hplace : ∀ t ∈ later, placeOf length t.time < blank.length)
    (hbegan : ∀ t ∈ later, Schedule.origin ≤ t.time) (hindex : ∀ t ∈ later, ∀ i ∈ blank, t.index < i.2)
    (hcount : ∀ j g, ((turns ++ later).countP fun t => placeOf length t.time = j && t.index = g)
      < UInt64.size) :
    later.foldlM (fun st t => stepExact options length (placeOf length t.time) st t) st
      = later.foldlM (step options length) st := by
  induction later generalizing turns st with
  | nil => rfl
  | cons t later ih =>
    rw [List.forall_mem_cons] at hplace hbegan hindex
    have hlast := (List.pairwise_append.mp hsorted).2.2
    rw [List.append_cons] at hsorted
    simp only [List.append_cons turns t later] at hcount
    have hsofar := hcount (placeOf length t.time) t.index
    rw [List.countP_append] at hsofar
    rw [List.foldlM_cons, List.foldlM_cons, stepExact_eq options hlength
      (h.ready hstart hsize hbegan.1 hplace.1 hindex.1 (by omega))]
    cases hstep : step options length st t with
    | error trap => rfl
    | ok next =>
      exact ih (h.step (step_eq_ok hstep) (fun t' ht' => hlast t' ht' t List.mem_cons_self) hplace.1)
        hsorted hplace.2 hbegan.2 hindex.2 hcount

end

end Simulation

end Shaping
