import Shaping.Schedule
import Mathlib.Data.List.Nodup

/-!
# The turns that are taken

A schedule is worked off turn by turn, and what is done at a turn has no influence on which turn comes next.
So there is one list of turns that are `Schedule.Taken`, and to work a schedule off is to go through that
list (`Schedule.foldUntil_of_taken`), whatever is done on the way.

The list is known without working anything off.  A schedule has one turn of each flow and has them in order
(`Schedule.Ordered`), which stays true when a turn gives way to the next one of its flow.  So what is taken
is every turn of every flow before the end and before the flow stops (`Schedule.Taken.mem_iff`), in the
order of times, and at the same time in the order of flows (`Schedule.Taken.sorted`).

Times of turns saturate.  That is of no consequence, because the largest word is not before any end.

A proof about the schedule itself would have to be an induction over `Schedule.foldUntil`, with the state in
it that is carried through and may trap at any turn.  Taking the turns out of it separates the two: what is
taken is a derivation of `Schedule.Taken`, which has no state, and whatever else is proved about an
experiment is an induction over a list.

To say which turns are taken one has to say of which turn of a schedule they are later ones
(`Turn.Follows`).  The number of gaps between the two goes down by one when a turn gives way to the next one
of its flow (`Turn.follows_following_iff`), and it is zero when the later turn is taken itself.
-/

set_option autoImplicit false

namespace Shaping

/-! ## Times

Times are words, and scenarios have them in milliseconds.  From here on they are numbers.  Only where there
has to be a word for a number that number has to be small enough. -/

/-- The number of nanoseconds that is so many milliseconds after the beginning. -/
def Schedule.instant (milliseconds : UInt64) : Nat :=
  origin.toNat + milliseconds.toNat * millisecond.toNat

theorem Schedule.timeOf_eq_ok_iff {milliseconds time : UInt64} :
    timeOf milliseconds = .ok time ↔ time.toNat = instant milliseconds := by
  have htime := time.toNat_lt_size
  rw [timeOf, instant]
  cases hmul : Word.mul milliseconds millisecond with
  | error trap =>
    have hlarge : ¬ milliseconds.toNat * millisecond.toNat < UInt64.size := by
      intro hsmall
      rw [Word.mul, Word.exact, if_pos hsmall] at hmul
      cases hmul
    simp only [bind, Except.bind, reduceCtorEq, false_iff]
    omega
  | ok w =>
    rw [Word.mul, Word.exact_eq_ok_iff] at hmul
    simp only [bind, Except.bind]
    rw [Word.add, Word.exact_eq_ok_iff, hmul]

theorem Schedule.exists_timeOf {milliseconds : UInt64} (h : instant milliseconds < UInt64.size) :
    ∃ time, timeOf milliseconds = .ok time :=
  ⟨.ofNat _, timeOf_eq_ok_iff.mpr (UInt64.toNat_ofNat_of_lt' h)⟩

namespace Flow

/-- When the flow sends a packet, as long as it has not stopped. -/
def sendTime (f : Flow) (k : Nat) : Nat := Schedule.instant f.start + k * f.gap.toNat

/-- The flow sends the packet, in an experiment that lasts so many milliseconds. -/
def Sends (f : Flow) (duration : UInt64) (k : Nat) : Prop :=
  f.sendTime k < Schedule.instant duration ∧
    ∀ stop, f.stop = some stop → f.sendTime k < Schedule.instant stop

theorem sendTime_zero (f : Flow) : f.sendTime 0 = Schedule.instant f.start := by
  rw [sendTime, Nat.zero_mul, Nat.add_zero]

/-- No two packets of a flow are sent at the same time. -/
theorem sendTime_injective (f : Flow) : Function.Injective f.sendTime := by
  intro j k h
  have hgap := Schedule.one_le_gap f
  rw [sendTime, sendTime, Nat.add_left_cancel_iff] at h
  exact Nat.eq_of_mul_eq_mul_right hgap h

end Flow

/-! ## The order of turns

`Turn.before` is the order in which the code inserts.  Two turns of different flows are always ordered,
which is all that inserting needs, since a flow has one turn at a time.  Turns of one flow are only ever
compared with the next one. -/

namespace Turn

variable {a b c t u : Turn} {stop : UInt64} {k : Nat}

theorem before_iff : a.before b = true ↔
    a.time.toNat < b.time.toNat ∨ a.time.toNat = b.time.toNat ∧ a.index < b.index := by
  simp [before, UInt64.lt_iff_toNat_lt, UInt64.toNat_inj]

theorem before_trans (hab : a.before b = true) (hbc : b.before c = true) : a.before c = true := by
  rw [before_iff] at *
  omega

/-- Of two flows one comes first. -/
theorem before_of_not_before (h : a.index ≠ b.index) (hab : ¬ a.before b = true) :
    b.before a = true := by
  rw [before_iff] at *
  omega

theorem time_le_of_before (h : a.before b = true) : a.time.toNat ≤ b.time.toNat := by
  rw [before_iff] at h
  omega

/-- One turn is so many turns of the same flow after another. -/
structure Follows (u : Turn) (k : Nat) (t : Turn) : Prop where
  index : t.index = u.index
  flow : t.flow = u.flow
  time : t.time.toNat = u.time.toNat + k * u.flow.gap.toNat

theorem follows_zero_iff : u.Follows 0 t ↔ t = u := by
  constructor
  · rintro ⟨hindex, hflow, htime⟩
    obtain ⟨time, index, flow⟩ := t
    obtain ⟨time', index', flow'⟩ := u
    rw [Nat.zero_mul, Nat.add_zero, UInt64.toNat_inj] at htime
    rw [show time = time' from htime, show index = index' from hindex, show flow = flow' from hflow]
  · rintro rfl
    exact ⟨rfl, rfl, by omega⟩

theorem Follows.time_le (h : u.Follows k t) : u.time.toNat ≤ t.time.toNat := by
  rw [h.time]
  omega

/-- What comes before a turn comes before all later ones. -/
theorem Follows.before (h : u.Follows k t) (hbefore : a.before u = true) : a.before t = true := by
  have htime := h.time_le
  rw [before_iff] at *
  rw [h.index]
  omega

/-- The turn comes before the end and before its flow stops. -/
def Due (stop : UInt64) (t : Turn) : Prop :=
  t.time.toNat < stop.toNat ∧ ∀ ms, t.flow.stop = some ms → t.time.toNat < Schedule.instant ms

/-- Of turns of the same flow, the earlier ones are due if a later one is. -/
theorem Follows.due (h : u.Follows k t) (hdue : t.Due stop) : u.Due stop := by
  have htime := h.time_le
  refine ⟨by have := hdue.1; omega, fun ms hms => ?_⟩
  have hlt := hdue.2 ms (h.flow ▸ hms)
  omega

@[simp]
theorem index_following (t : Turn) : t.following.index = t.index := by rw [following]

@[simp]
theorem flow_following (t : Turn) : t.following.flow = t.flow := by rw [following]

theorem toNat_time_following (t : Turn) :
    t.following.time.toNat = min (t.time.toNat + t.flow.gap.toNat) (UInt64.size - 1) := by
  rw [following, Word.toNat_addSat]

theorem before_following (h : t.time.toNat < stop.toNat) : t.before t.following = true := by
  have hgap := Schedule.one_le_gap t.flow
  have hstop := stop.toNat_lt_size
  have htime := t.toNat_time_following
  rw [before_iff]
  omega

/-- Before the end it makes no difference that times saturate. -/
theorem follows_following_iff (hdue : t.Due stop) :
    u.following.Follows k t ↔ u.Follows (k + 1) t := by
  have hlt := hdue.1
  have hstop := stop.toNat_lt_size
  have htime := u.toNat_time_following
  have hsum : (k + 1) * u.flow.gap.toNat = k * u.flow.gap.toNat + u.flow.gap.toNat :=
    Nat.succ_mul _ _
  constructor
  · rintro ⟨hindex, hflow, hlater⟩
    rw [index_following] at hindex
    rw [flow_following] at hflow hlater
    exact ⟨hindex, hflow, by omega⟩
  · rintro ⟨hindex, hflow, hlater⟩
    refine ⟨hindex.trans u.index_following.symm, hflow.trans u.flow_following.symm, ?_⟩
    rw [flow_following]
    omega

end Turn

/-! ## Schedules

A schedule begins with the first turns of all flows, and those are found by their places in the scenario.
The induction over the flows counts the place up, so a first turn is one of the flows from some place on
(`First`). -/

namespace Schedule

variable {stop : UInt64} {s : Schedule} {t u : Turn} {turns : List Turn}

theorem isOver_eq_ok {gone : Bool} (h : isOver t = .ok gone) :
    gone = false ↔ ∀ ms, t.flow.stop = some ms → t.time.toNat < instant ms := by
  rw [isOver] at h
  cases hstop : t.flow.stop with
  | none =>
    rw [hstop] at h
    cases h
    simp
  | some ms =>
    rw [hstop] at h
    dsimp only at h
    cases htime : timeOf ms with
    | error trap =>
      rw [htime] at h
      cases h
    | ok time =>
      rw [htime] at h
      cases h
      rw [timeOf_eq_ok_iff] at htime
      simp [UInt64.le_iff_toNat_le, htime]

/-- The turns are in order, and there is one of each flow. -/
structure Ordered (s : Schedule) : Prop where
  sorted : s.Pairwise fun a b => a.before b = true
  single : (s.map (·.index)).Nodup

theorem insert_perm (t : Turn) (s : Schedule) : (insert t s).Perm (t :: s) := by
  induction s with
  | nil => exact .refl _
  | cons u rest ih =>
    rw [insert]
    split
    · exact .refl _
    · exact (ih.cons u).trans (.swap t u rest)

theorem mem_insert {a : Turn} : a ∈ insert t s ↔ a = t ∨ a ∈ s := by
  rw [(insert_perm t s).mem_iff, List.mem_cons]

theorem ordered_nil : Ordered [] := ⟨.nil, .nil⟩

theorem pairwise_insert (hs : s.Pairwise fun a b => a.before b = true)
    (hnew : ∀ u ∈ s, t.index ≠ u.index) : (insert t s).Pairwise fun a b => a.before b = true := by
  induction s with
  | nil => exact List.pairwise_singleton _ _
  | cons u rest ih =>
    rw [List.pairwise_cons] at hs
    rw [List.forall_mem_cons] at hnew
    rw [insert]
    split
    · rename_i hbefore
      refine List.pairwise_cons.mpr ⟨?_, List.pairwise_cons.mpr hs⟩
      exact List.forall_mem_cons.mpr ⟨hbefore, fun a ha => Turn.before_trans hbefore (hs.1 a ha)⟩
    · rename_i hnot
      refine List.pairwise_cons.mpr ⟨fun a ha => ?_, ih hs.2 hnew.2⟩
      rcases mem_insert.mp ha with rfl | ha
      · exact Turn.before_of_not_before hnew.1 hnot
      · exact hs.1 a ha

/-- A turn of a flow that has none is put in its place. -/
theorem Ordered.insert (h : s.Ordered) (hnew : t.index ∉ s.map (·.index)) :
    (insert t s).Ordered := by
  refine ⟨pairwise_insert h.sorted fun u hu heq => hnew (heq ▸ List.mem_map_of_mem hu), ?_⟩
  rw [((insert_perm t s).map _).nodup_iff, List.map_cons, List.nodup_cons]
  exact ⟨hnew, h.single⟩

theorem Ordered.tail (h : Ordered (t :: s)) : s.Ordered :=
  ⟨(List.pairwise_cons.mp h.sorted).2, (List.nodup_cons.mp h.single).2⟩

/-- A turn gives way to the next one of its flow. -/
theorem Ordered.following (h : Ordered (t :: s)) : (Schedule.insert t.following s).Ordered :=
  h.tail.insert (by rw [Turn.index_following]; exact (List.nodup_cons.mp h.single).1)

/-- A flow is scheduled before those that come after it in the scenario, and put in its place then. -/
theorem ofFlows_cons_eq_ok {index : Nat} {f : Flow} {fs : List Flow}
    (h : ofFlows index (f :: fs) = .ok s) :
    ∃ time rest, time.toNat = f.sendTime 0 ∧ ofFlows (index + 1) fs = .ok rest ∧
      s = Schedule.insert ⟨time, index, f⟩ rest := by
  rw [ofFlows] at h
  cases htime : timeOf f.start with
  | error trap =>
    rw [htime] at h
    cases h
  | ok time =>
    rw [htime] at h
    cases hrest : ofFlows (index + 1) fs with
    | error trap =>
      rw [hrest] at h
      cases h
    | ok rest =>
      rw [hrest] at h
      cases h
      exact ⟨time, rest, by rw [timeOf_eq_ok_iff.mp htime, Flow.sendTime_zero], rfl, rfl⟩

/-- The first turn of a flow. -/
structure First (index : Nat) (fs : List Flow) (t : Turn) : Prop where
  le : index ≤ t.index
  flow : fs[t.index - index]? = some t.flow
  time : t.time.toNat = t.flow.sendTime 0

theorem first_cons_iff {index : Nat} {time : UInt64} {f : Flow} {fs : List Flow}
    (htime : time.toNat = f.sendTime 0) :
    First index (f :: fs) t ↔ t = ⟨time, index, f⟩ ∨ First (index + 1) fs t := by
  obtain ⟨time', index', flow⟩ := t
  constructor
  · rintro ⟨hle, hflow, hstart⟩
    by_cases heq : index' = index
    · subst heq
      simp only [Nat.sub_self, List.getElem?_cons_zero, Option.some_inj] at hflow
      subst hflow
      rw [← htime, UInt64.toNat_inj] at hstart
      exact .inl (by rw [show time' = time from hstart])
    · have hlt : index + 1 ≤ index' := by
        simp only at hle
        omega
      have hsucc : index' - index = index' - (index + 1) + 1 := by omega
      simp only [hsucc, List.getElem?_cons_succ] at hflow
      exact .inr ⟨hlt, hflow, hstart⟩
  · rintro (heq | ⟨hle, hflow, hstart⟩)
    · cases heq
      exact ⟨Nat.le_refl _, by simp, htime⟩
    · have hsucc : index' - index = index' - (index + 1) + 1 := by
        simp only at hle
        omega
      refine ⟨Nat.le_of_succ_le hle, ?_, hstart⟩
      simpa only [hsucc, List.getElem?_cons_succ] using hflow

/-- **What is scheduled at first**: the first turn of every flow. -/
theorem ofFlows_eq_ok {index : Nat} {fs : List Flow} (h : ofFlows index fs = .ok s) :
    s.Ordered ∧ ∀ t, t ∈ s ↔ First index fs t := by
  induction fs generalizing index s with
  | nil =>
    cases h
    exact ⟨ordered_nil, fun t => ⟨fun ht => absurd ht List.not_mem_nil, fun ht => by simpa using ht.flow⟩⟩
  | cons f fs ih =>
    obtain ⟨time, rest, htime, hrest, rfl⟩ := ofFlows_cons_eq_ok h
    obtain ⟨hordered, hmem⟩ := ih hrest
    refine ⟨hordered.insert fun hindex => ?_, fun t => ?_⟩
    · obtain ⟨u, hu, heq⟩ := List.mem_map.mp hindex
      have hle := ((hmem u).mp hu).le
      simp only at heq
      omega
    · rw [mem_insert, hmem, first_cons_iff htime]

/-- Flows can be scheduled if it can be counted when they start. -/
theorem exists_ofFlows {fs : List Flow} (h : ∀ f ∈ fs, instant f.start < UInt64.size) (index : Nat) :
    ∃ s, ofFlows index fs = .ok s := by
  induction fs generalizing index with
  | nil => exact ⟨[], rfl⟩
  | cons f fs ih =>
    rw [List.forall_mem_cons] at h
    obtain ⟨time, htime⟩ := exists_timeOf h.1
    obtain ⟨rest, hrest⟩ := ih h.2 (index + 1)
    rw [ofFlows, htime, hrest]
    exact ⟨_, rfl⟩

/-! ## What is taken

There is a derivation as soon as working off the schedule has come to an end, whatever was done
(`exists_taken`); and there is one anyway if it can always be told whether a flow has stopped
(`exists_taken_of_timely`).  Both follow the recursion of `foldUntil`, which ends because less and less time
is left.

What is taken is shown to be what is due before it is shown to be in order, for to see that the first turn
comes before the others one has to know where the others come from. -/

/-- The turns that are taken up to the end, if there is this schedule. -/
inductive Taken (stop : UInt64) : Schedule → List Turn → Prop
  /-- There are no flows left. -/
  | empty : Taken stop [] []
  /-- All turns left are too late. -/
  | ended {t : Turn} {rest : Schedule} (hlate : stop ≤ t.time) : Taken stop (t :: rest) []
  /-- A flow has stopped. -/
  | stopped {t : Turn} {rest : Schedule} {turns : List Turn} (hearly : ¬ stop ≤ t.time)
      (hover : isOver t = .ok true) (hrest : Taken stop rest turns) : Taken stop (t :: rest) turns
  /-- A turn is taken. -/
  | turn {t : Turn} {rest : Schedule} {turns : List Turn} (hearly : ¬ stop ≤ t.time)
      (hover : isOver t = .ok false) (hrest : Taken stop (Schedule.insert t.following rest) turns) :
      Taken stop (t :: rest) (t :: turns)

/-- **To work off a schedule is to go through the turns that are taken.** -/
theorem foldUntil_of_taken {σ : Type} (h : Taken stop s turns) (f : σ → Turn → Except Trap σ)
    (init : σ) : s.foldUntil stop f init = turns.foldlM f init := by
  induction h generalizing init with
  | empty => rw [foldUntil]; rfl
  | ended hlate => rw [foldUntil, dif_pos hlate]; rfl
  | stopped hearly hover _ ih => rw [foldUntil, dif_neg hearly, hover, ih]
  | @turn t rest turns hearly hover _ ih =>
    rw [foldUntil, dif_neg hearly, hover, List.foldlM_cons]
    cases hf : f init t with
    | error trap => rfl
    | ok next => exact ih next

/-- A schedule that was worked off has turns that were taken. -/
theorem exists_taken {σ : Type} {f : σ → Turn → Except Trap σ} {init final : σ}
    (h : s.foldUntil stop f init = .ok final) : ∃ turns, Taken stop s turns := by
  induction s, init using foldUntil.induct stop f with
  | case1 init => exact ⟨[], .empty⟩
  | case2 init t rest hlate => exact ⟨[], .ended hlate⟩
  | case3 init t rest hearly trap hover =>
    rw [foldUntil, dif_neg hearly, hover] at h
    cases h
  | case4 init t rest hearly hover ih =>
    rw [foldUntil, dif_neg hearly, hover] at h
    obtain ⟨turns, hturns⟩ := ih h
    exact ⟨turns, .stopped hearly hover hturns⟩
  | case5 init t rest hearly hover trap hf =>
    rw [foldUntil, dif_neg hearly, hover] at h
    simp only [hf] at h
    cases h
  | case6 init t rest hearly hover next hf ih =>
    rw [foldUntil, dif_neg hearly, hover] at h
    simp only [hf] at h
    obtain ⟨turns, hturns⟩ := ih h
    exact ⟨t :: turns, .turn hearly hover hturns⟩

/-- It can be told of each turn whether its flow has stopped. -/
def Timely (t : Turn) : Prop := ∀ ms, t.flow.stop = some ms → instant ms < UInt64.size

theorem Timely.exists_isOver (h : Timely t) : ∃ gone, isOver t = .ok gone := by
  rw [isOver]
  cases hstop : t.flow.stop with
  | none => exact ⟨false, rfl⟩
  | some ms =>
    obtain ⟨time, htime⟩ := exists_timeOf (h ms hstop)
    dsimp only
    rw [htime]
    exact ⟨_, rfl⟩

theorem Timely.following (h : Timely t) : Timely t.following := by
  rw [Timely, Turn.flow_following]
  exact h

/-- A schedule can be worked off if it can be counted when flows stop. -/
theorem exists_taken_of_timely (h : ∀ t ∈ s, Timely t) : ∃ turns, Taken stop s turns := by
  induction s, () using foldUntil.induct stop fun _ _ => .ok () with
  | case1 => exact ⟨[], .empty⟩
  | case2 _ t rest hlate => exact ⟨[], .ended hlate⟩
  | case3 _ t rest hearly trap hover =>
    obtain ⟨gone, hgone⟩ := (h t List.mem_cons_self).exists_isOver
    rw [hgone] at hover
    cases hover
  | case4 _ t rest hearly hover ih =>
    obtain ⟨turns, hturns⟩ := ih (List.forall_mem_cons.mp h).2
    exact ⟨turns, .stopped hearly hover hturns⟩
  | case5 _ t rest _ _ trap hf => cases hf
  | case6 _ t rest hearly hover _ _ ih =>
    obtain ⟨hfirst, hrest⟩ := List.forall_mem_cons.mp h
    obtain ⟨turns, hturns⟩ := ih fun u hu => by
      rcases mem_insert.mp hu with rfl | hu
      · exact hfirst.following
      · exact hrest u hu
    exact ⟨t :: turns, .turn hearly hover hturns⟩

namespace Taken

/-- **Exactly the turns are taken that are due.** -/
theorem mem_iff (h : Taken stop s turns) (hs : s.Ordered) (t : Turn) :
    t ∈ turns ↔ t.Due stop ∧ ∃ u ∈ s, ∃ k, u.Follows k t := by
  induction h with
  | empty => simp
  | @ended u rest hlate =>
    rw [UInt64.le_iff_toNat_le] at hlate
    refine ⟨fun h => absurd h List.not_mem_nil, ?_⟩
    rintro ⟨hdue, v, hv, k, hfollows⟩
    have hle : u.time.toNat ≤ v.time.toNat := by
      rcases List.mem_cons.mp hv with rfl | hv
      · exact Nat.le_refl _
      · exact Turn.time_le_of_before ((List.pairwise_cons.mp hs.sorted).1 v hv)
    have hlt := hdue.1
    have := hfollows.time_le
    omega
  | @stopped u rest turns hearly hover _ ih =>
    rw [ih hs.tail]
    simp only [List.exists_mem_cons_iff]
    refine and_congr_right fun hdue => (or_iff_right ?_).symm
    rintro ⟨k, hfollows⟩
    have hnot := mt (isOver_eq_ok hover).mpr (by decide)
    exact hnot (hfollows.due hdue).2
  | @turn u rest turns hearly hover _ ih =>
    rw [UInt64.le_iff_toNat_le, Nat.not_le] at hearly
    rw [List.mem_cons, ih hs.following]
    simp only [mem_insert, exists_eq_or_imp, List.exists_mem_cons_iff]
    constructor
    · rintro (rfl | ⟨hdue, hlater | hother⟩)
      · exact ⟨⟨hearly, (isOver_eq_ok hover).mp rfl⟩, .inl ⟨0, Turn.follows_zero_iff.mpr rfl⟩⟩
      · obtain ⟨k, hk⟩ := hlater
        exact ⟨hdue, .inl ⟨k + 1, (Turn.follows_following_iff hdue).mp hk⟩⟩
      · exact ⟨hdue, .inr hother⟩
    · rintro ⟨hdue, ⟨k, hk⟩ | hother⟩
      · cases k with
        | zero => exact .inl (Turn.follows_zero_iff.mp hk)
        | succ k => exact .inr ⟨hdue, .inl ⟨k, (Turn.follows_following_iff hdue).mpr hk⟩⟩
      · exact .inr ⟨hdue, .inr hother⟩

/-- **Turns are taken in order.** -/
theorem sorted (h : Taken stop s turns) (hs : s.Ordered) :
    turns.Pairwise fun a b => a.before b = true := by
  induction h with
  | empty => exact .nil
  | ended hlate => exact .nil
  | stopped hearly hover _ ih => exact ih hs.tail
  | @turn u rest turns hearly hover hrest ih =>
    rw [UInt64.le_iff_toNat_le, Nat.not_le] at hearly
    refine List.pairwise_cons.mpr ⟨fun t ht => ?_, ih hs.following⟩
    obtain ⟨-, v, hv, k, hfollows⟩ := (hrest.mem_iff hs.following t).mp ht
    refine hfollows.before ?_
    rcases mem_insert.mp hv with rfl | hv
    · exact Turn.before_following hearly
    · exact (List.pairwise_cons.mp hs.sorted).1 v hv

end Taken

end Schedule

end Shaping
