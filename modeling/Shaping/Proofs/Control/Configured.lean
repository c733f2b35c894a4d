import Shaping.Proofs.Control.Plans
import Shaping.Proofs.Control.Reading
import Shaping.Proofs.Control.Refused

/-!
# What a configuration makes of a shaper

A configuration is put into force by storing its plans and then doing the writes of its pods in turn
(`Config.writes`).  It can be refused for what it says, if it is not `Acceptable`; it can get `Stuck` at a
write that finds its table full; or all of it is done.  There is no other way (`Config.call_apply`,
`Config.acceptable_of_call_apply`).

What is there when all of it is done can be read off the configuration, and the order of the writes does not
matter for that beyond one thing: the last pod that names an address, or an entity, decides about it
(`Config.entryAt?`, `Config.rate?`).  What no pod names is as it was before (`Config.Installed`).

An operation of the control plane leaves notes, has a context for its failures, and is written with loops;
none of that can be folded over a list and taken apart again.  So what is done for a configuration is first
shown to be the fold of `Shaper.write` over a list of writes, and from there on it is a matter of lists: a
beginning of them was done, or all of them.
-/

set_option autoImplicit false

namespace Shaping

/-! ## The writes of a configuration

`Stuck` goes together with appending on either side (`Stuck.append`, `Stuck.after`), and this is what makes
one induction on pods enough.  The first pod gets stuck, and what comes after it does not matter; or it is
done, and what comes after goes on from there. -/

namespace Pod

/-- The writes that are done for a pod.  One that shares the network of the node is left out. -/
def entries (pod : Pod) : List Write := if pod.hostNetwork then [] else pod.writes

/-- A pod belongs to an entity, unless it is left out. -/
def Complete (pod : Pod) : Prop := pod.hostNetwork = false → pod.entity ≠ 0

instance (pod : Pod) : Decidable pod.Complete := inferInstanceAs (Decidable (_ → _))

end Pod

/-- The writes of a configuration, in the order in which they are done. -/
def Config.writes (c : Config) : List Write := c.pods.flatMap Pod.entries

namespace Config

variable {c : Config}

theorem address_mem_writes {pod : Pod} {a : Address} :
    .address pod a ∈ c.writes ↔ pod ∈ c.pods ∧ pod.hostNetwork = false ∧ a ∈ pod.addresses := by
  simp only [writes, Pod.entries, Pod.writes, rateWrites, List.mem_flatMap]
  constructor
  · rintro ⟨pod', hpod, hmem⟩
    split at hmem
    · cases hmem
    · rename_i hhost
      simp only [List.mem_append, List.mem_map, Write.address.injEq, reduceCtorEq, and_false, exists_false,
        or_false] at hmem
      obtain ⟨a', ha, rfl, rfl⟩ := hmem
      exact ⟨hpod, Bool.eq_false_iff.mpr hhost, ha⟩
  · rintro ⟨hpod, hhost, ha⟩
    refine ⟨pod, hpod, ?_⟩
    rw [hhost, if_neg Bool.false_ne_true]
    exact List.mem_append_left _ (List.mem_map_of_mem ha)

theorem rate_mem_writes {e : EntityId} {d : Direction} {limit : UInt64} :
    .rate e d limit ∈ c.writes ↔
      ∃ pod ∈ c.pods, pod.hostNetwork = false ∧ pod.entity = e ∧ pod.rate d = limit := by
  simp only [writes, Pod.entries, Pod.writes, rateWrites, List.mem_flatMap]
  refine exists_congr fun pod => and_congr_right fun _ => ?_
  cases pod.hostNetwork with
  | true => simp
  | false => cases d <;> simp [Direction.all, PerDirection.get, Pod.rate, eq_comm]

end Config

/-- The configuration is not refused for what it says. -/
structure Config.Acceptable (c : Config) : Prop where
  plans : ∀ d, (c.plans.get d).withDefaults.check = .ok ()
  pods : ∀ pod ∈ c.pods, pod.Complete

/-- Of some writes that are done in turn, the ones before `w` were done, and `w` found its table full. -/
structure Stuck (writes : List Write) (s : Shaper) (w : Write) (full : TableFull) (s' : Shaper) :
    Prop where
  cut : ∃ earlier left, writes = earlier ++ w :: left ∧ earlier.foldlM Shaper.write s = .ok s'
  refused : s'.write w = .error full

namespace Stuck

variable {writes : List Write} {s s' : Shaper} {w : Write} {full : TableFull}

theorem mem (h : Stuck writes s w full s') : w ∈ writes := by
  obtain ⟨earlier, left, rfl, -⟩ := h.cut
  simp

/-- Writes of which one is refused are not all done. -/
theorem foldlM_eq (h : Stuck writes s w full s') : writes.foldlM Shaper.write s = .error full := by
  obtain ⟨earlier, left, rfl, hdone⟩ := h.cut
  rw [List.foldlM_append, hdone]
  show (w :: left).foldlM Shaper.write s' = .error full
  rw [List.foldlM_cons, h.refused]
  rfl

/-- What would have come next does not matter. -/
theorem append (h : Stuck writes s w full s') (more : List Write) :
    Stuck (writes ++ more) s w full s' := by
  obtain ⟨earlier, left, hcut, hdone⟩ := h.cut
  exact ⟨⟨earlier, left ++ more, by rw [hcut, List.append_assoc, List.cons_append], hdone⟩, h.refused⟩

/-- What was done before has to be done. -/
theorem after {before : List Write} {s₀ : Shaper} (hbefore : before.foldlM Shaper.write s₀ = .ok s)
    (h : Stuck writes s w full s') : Stuck (before ++ writes) s₀ w full s' := by
  obtain ⟨earlier, left, hcut, hdone⟩ := h.cut
  refine ⟨⟨before ++ earlier, left, by rw [hcut, List.append_assoc], ?_⟩, h.refused⟩
  rw [List.foldlM_append, hbefore]
  exact hdone

/-- What was done is some of the writes, and nothing else was. -/
theorem writtenBy (h : Stuck writes s w full s') (hs : s.WellFormed) :
    ∃ earlier, (∀ x ∈ earlier, x ∈ writes) ∧ WrittenBy earlier s s' := by
  obtain ⟨earlier, left, rfl, hdone⟩ := h.cut
  exact ⟨earlier, fun x hx => List.mem_append_left _ hx, hs.writtenBy_all hdone⟩

end Stuck

namespace Control

/-! ### One pod

What a pod does is cut at the same places at which its writes are: between two writes there is nothing but
notes.  A pod that is left out does no writes, and one without an entity, of which nothing else is said
here, stops before its first one. -/

theorem run_writePod_of_incomplete {pod : Pod} (h : ¬ pod.Complete) (c : Controlled) :
    (writePod pod).run.run c = (.error (.of (.podWithoutEntity pod.id)), c) := by
  rw [Pod.Complete, Classical.not_imp, not_not] at h
  rw [writePod, h.1, if_neg Bool.false_ne_true, if_pos h.2, run_bind, run_throw]

/-- The writes of a pod are all done, or one of them gets stuck. -/
theorem run_writePod {pod : Pod} (h : pod.Complete) (c : Controlled) :
    (∃ s notes, pod.entries.foldlM Shaper.write c.shaper = .ok s ∧
        (writePod pod).run.run c = (.ok (), ⟨s, notes⟩)) ∨
      ∃ w full s notes, Stuck pod.entries c.shaper w full s ∧
        (writePod pod).run.run c = (.error ⟨[w.context], .tableFull full⟩, ⟨s, notes⟩) := by
  cases hhost : pod.hostNetwork with
  | true =>
    refine .inl ⟨c.shaper, c.notes.push (.debug s!"Skipping host-network pod {pod.id}"), ?_, ?_⟩
    · rw [Pod.entries, if_pos hhost]
      rfl
    · rw [writePod, if_pos hhost, run_note]
  | false =>
    rw [Pod.entries, hhost, if_neg Bool.false_ne_true, writePod_eq hhost (h hhost)]
    rcases run_writes pod.writes c with hdone | ⟨earlier, w, left, full, s, notes, hcut, hdone, hfull, hrun⟩
    · exact .inl hdone
    · exact .inr ⟨w, full, s, notes, ⟨⟨earlier, left, hcut, hdone⟩, hfull⟩, hrun⟩

/-! ### One pod after the other -/

/-- Enter the pods of a configuration. -/
def writePods (pods : List Pod) : Control Unit :=
  pods.forM fun pod => within (.applyingPod pod.id) (writePod pod)

theorem complete_of_run_writePods {pods : List Pod} {c : Controlled}
    (h : ((writePods pods).run.run c).1 = .ok ()) : ∀ pod ∈ pods, pod.Complete := by
  induction pods generalizing c with
  | nil => simp
  | cons pod pods ih =>
    rw [writePods, List.forM, run_bind, run_within] at h
    by_cases hcomplete : pod.Complete
    · rw [List.forall_mem_cons]
      refine ⟨hcomplete, ?_⟩
      cases hrun : (writePod pod).run.run c with
      | mk result c' =>
        rw [hrun] at h
        cases result with
        | ok _ => exact ih h
        | error f => cases h
    · rw [run_writePod_of_incomplete hcomplete] at h
      cases h

/-- The writes of all pods are done, or one of them gets stuck. -/
theorem run_writePods {pods : List Pod} (h : ∀ pod ∈ pods, pod.Complete) (c : Controlled) :
    (∃ s notes, (pods.flatMap Pod.entries).foldlM Shaper.write c.shaper = .ok s ∧
        (writePods pods).run.run c = (.ok (), ⟨s, notes⟩)) ∨
      ∃ pod ∈ pods, ∃ w ∈ pod.entries, ∃ full s notes,
        Stuck (pods.flatMap Pod.entries) c.shaper w full s ∧
        (writePods pods).run.run c
          = (.error ⟨[.applyingPod pod.id, w.context], .tableFull full⟩, ⟨s, notes⟩) := by
  induction pods generalizing c with
  | nil => exact .inl ⟨c.shaper, c.notes, rfl, rfl⟩
  | cons pod pods ih =>
    rw [List.forall_mem_cons] at h
    rw [List.flatMap_cons, writePods, List.forM, run_bind, run_within]
    rcases run_writePod h.1 c with ⟨s, notes, hdone, hrun⟩ | ⟨w, full, s, notes, hstuck, hrun⟩
    · rw [hrun]
      rcases ih h.2 ⟨s, notes⟩ with
        ⟨s', notes', hrest, hend⟩ | ⟨pod', hpod, w, hw, full, s', notes', hstuck, hend⟩
      · refine .inl ⟨s', notes', ?_, hend⟩
        rw [List.foldlM_append, hdone]
        exact hrest
      · exact .inr ⟨pod', List.mem_cons_of_mem _ hpod, w, hw, full, s', notes', hstuck.after hdone, hend⟩
    · rw [hrun]
      exact .inr ⟨pod, List.mem_cons_self, w, hstuck.mem, full, s, notes, hstuck.append _, rfl⟩

theorem apply_eq (config : Config) :
    apply config = (do writePlans config.plans; writePods config.pods) := rfl

/-! ### All of it -/

variable {config : Config}

/-- Pods are entered once the plans are in force. -/
theorem run_apply_of_plans (h : ∀ d, (config.plans.get d).withDefaults.check = .ok ()) (c : Controlled) :
    ∃ notes, (apply config).run.run c
      = (writePods config.pods).run.run ⟨c.shaper.install config.plans, notes⟩ := by
  obtain ⟨notes, hplans⟩ := run_writePlans_of_ok h c
  refine ⟨notes, ?_⟩
  rw [apply_eq, run_bind, hplans]

/-- **A configuration that was put into force was acceptable.** -/
theorem acceptable_of_run_apply {c : Controlled} (h : ((apply config).run.run c).1 = .ok ()) :
    config.Acceptable := by
  by_cases hplans : ∀ d, (config.plans.get d).withDefaults.check = .ok ()
  · obtain ⟨notes, hrun⟩ := run_apply_of_plans hplans c
    rw [hrun] at h
    exact ⟨hplans, complete_of_run_writePods h⟩
  · obtain ⟨f, notes, hrun⟩ := run_writePlans_of_refused hplans c
    rw [apply_eq, run_bind, hrun] at h
    cases h

/-- **An acceptable configuration is put into force, unless one of its writes gets stuck.** -/
theorem run_apply (h : config.Acceptable) (c : Controlled) :
    (∃ s notes, config.writes.foldlM Shaper.write (c.shaper.install config.plans) = .ok s ∧
        (apply config).run.run c = (.ok (), ⟨s, notes⟩)) ∨
      ∃ pod ∈ config.pods, ∃ w ∈ pod.entries, ∃ full s notes,
        Stuck config.writes (c.shaper.install config.plans) w full s ∧
        (apply config).run.run c
          = (.error ⟨[.applyingPod pod.id, w.context], .tableFull full⟩, ⟨s, notes⟩) := by
  obtain ⟨notes, hrun⟩ := run_apply_of_plans h.plans c
  rw [hrun]
  exact run_writePods h.pods ⟨c.shaper.install config.plans, notes⟩

end Control

namespace Config

variable {c : Config} {s s' : Shaper}

theorem acceptable_of_call_apply (h : s.call (.apply c) = (.ok (), s')) : c.Acceptable :=
  Control.acceptable_of_run_apply (congrArg Prod.fst h)

theorem call_apply (h : c.Acceptable) (s : Shaper) :
    (∃ s', c.writes.foldlM Shaper.write (s.install c.plans) = .ok s' ∧
        s.call (.apply c) = (.ok (), s')) ∨
      ∃ pod ∈ c.pods, ∃ w ∈ pod.entries, ∃ full s', Stuck c.writes (s.install c.plans) w full s' ∧
        s.call (.apply c) = (.error ⟨[.applyingPod pod.id, w.context], .tableFull full⟩, s') := by
  rw [Shaper.call, Call.control]
  rcases Control.run_apply h ⟨s, #[]⟩ with
    ⟨s', notes, hdone, hrun⟩ | ⟨pod, hpod, w, hw, full, s', notes, hstuck, hrun⟩
  · exact .inl ⟨s', hdone, by rw [hrun]⟩
  · exact .inr ⟨pod, hpod, w, hw, full, s', hstuck, by rw [hrun]⟩

/-- **To put a configuration into force is to do all of its writes.** -/
theorem call_apply_eq_ok_iff (h : c.Acceptable) :
    s.call (.apply c) = (.ok (), s') ↔
      c.writes.foldlM Shaper.write (s.install c.plans) = .ok s' := by
  rcases call_apply h s with ⟨s₁, hdone, hcall⟩ | ⟨pod, -, w, -, full, s₁, hstuck, hcall⟩
  · rw [hdone, hcall]
    simp
  · rw [hstuck.foldlM_eq, hcall]
    simp

/-- **To load a configuration is to put it into force in an empty shaper**, if there can be one of the size
that it asks for. -/
theorem load_eq_ok_iff (c : Config) :
    c.load.1 = .ok s ↔
      OpenTable.checkCapacity c.options.maxEntries.toNat = .ok () ∧
        (Shaper.empty c.options.maxEntries.toNat).call (.apply c) = (.ok (), s) := by
  rw [load, Shaper.create]
  cases OpenTable.checkCapacity c.options.maxEntries.toNat with
  | error t => simp [Except.map]
  | ok _ =>
    simp only [Except.map, true_and]
    generalize (#[.debug _] : Array Note) = notes
    by_cases h : c.Acceptable
    · rw [call_apply_eq_ok_iff h]
      rcases Control.run_apply h ⟨Shaper.empty c.options.maxEntries.toNat, notes⟩ with
        ⟨s₁, left, hdone, hrun⟩ | ⟨pod, -, w, -, full, s₁, left, hstuck, hrun⟩
      · rw [hrun, hdone]
        simp
      · rw [hrun, hstuck.foldlM_eq]
        simp
    · refine iff_of_false (fun hload => h ?_) fun hcall => h (acceptable_of_call_apply hcall)
      split at hload
      · rename_i hrun
        exact Control.acceptable_of_run_apply (congrArg Prod.fst hrun)
      · cases hload

end Config

/-! ## The last word

What the writes leave of one address or of one entity is a fold as well, with `Write.onAddress` and
`Write.onEntity`, and it does not depend on any other address or entity.  A pod that does not name it drops
out of the fold; one that does forgets everything before it.  So the fold is what the last of them says,
which is the first that is found in the reversed list.

For entities this is true of the rate only.  A limiter does depend on what comes before: one that is given
the rate that it has goes on, and one that is given another rate starts anew. -/

/-- The limit that is kept for a rate.  Rate zero is no limit. -/
def limitOf? (rate : UInt64) : Option UInt64 := if rate = 0 then none else some rate

namespace Pod

/-- What the directory says of the addresses of a pod. -/
def entry (pod : Pod) : PodEntry := ⟨pod.entity, pod.classId⟩

/-- Is one of the pod's addresses filed under the key? -/
def owns (pod : Pod) (key : AddressKey) : Bool :=
  !pod.hostNetwork && pod.addresses.any (·.key == key)

/-- Is the entity limited by the pod? -/
def limits (pod : Pod) (e : EntityId) : Bool := !pod.hostNetwork && pod.entity == e

theorem owns_iff {pod : Pod} {key : AddressKey} :
    pod.owns key = true ↔ pod.hostNetwork = false ∧ ∃ a ∈ pod.addresses, a.key = key := by
  simp [owns]

theorem limits_iff {pod : Pod} {e : EntityId} :
    pod.limits e = true ↔ pod.hostNetwork = false ∧ pod.entity = e := by
  simp [limits]

theorem foldl_onAddress (pod : Pod) (key : AddressKey) (entry : Option PodEntry) :
    pod.entries.foldl (Write.onAddress key) entry = if pod.owns key then some pod.entry else entry := by
  have haddresses : ∀ (as : List Address) (entry : Option PodEntry),
      (as.map (Write.address pod)).foldl (Write.onAddress key) entry
        = if as.any (·.key == key) then some pod.entry else entry := by
    intro as
    induction as with
    | nil => exact fun _ => rfl
    | cons a as ih =>
      intro entry
      rw [List.map_cons, List.foldl_cons, ih, Write.onAddress, List.any_cons]
      by_cases hkey : key = a.key
      · rw [if_pos hkey, hkey, beq_self_eq_true, Bool.true_or, if_pos rfl]
        exact ite_self _
      · rw [if_neg hkey, beq_false_of_ne (Ne.symm hkey), Bool.false_or]
  rw [entries, owns]
  cases pod.hostNetwork with
  | true => rfl
  | false =>
    -- limits are no business of the directory
    have hrates : ∀ entry, (rateWrites pod.entity ⟨pod.receiveRate, pod.sendRate⟩).foldl
        (Write.onAddress key) entry = entry := fun _ => rfl
    rw [if_neg Bool.false_ne_true, writes, List.foldl_append, hrates, haddresses, Bool.not_false,
      Bool.true_and]

theorem foldl_onEntity (pod : Pod) (d : Direction) (e : EntityId) (state : Option EntityState) :
    pod.entries.foldl (Write.onEntity d e) state
      = if pod.limits e then Write.limited (pod.rate d) state else state := by
  have haddresses : ∀ (as : List Address) (state : Option EntityState),
      (as.map (Write.address pod)).foldl (Write.onEntity d e) state = state := by
    intro as
    induction as with
    | nil => exact fun _ => rfl
    | cons a as ih => exact ih
  rw [entries, limits]
  cases pod.hostNetwork with
  | true => rfl
  | false =>
    rw [if_neg Bool.false_ne_true, writes, List.foldl_append, haddresses, Bool.not_false, Bool.true_and]
    by_cases he : e = pod.entity
    · subst he
      cases d <;> simp [rateWrites, Direction.all, Write.onEntity, PerDirection.get, rate]
    · cases d <;> simp [rateWrites, Direction.all, Write.onEntity, he, Ne.symm he]

end Pod

theorem Write.rate_limited (limit : UInt64) (state : Option EntityState) :
    (limited limit state).map (·.limiter.rate) = limitOf? limit := by
  rw [limited, limitOf?]
  split
  · rfl
  · split
    · assumption
    · rfl

namespace Config

/-- What a configuration says about a key of the directory. -/
def entryAt? (c : Config) (key : AddressKey) : Option PodEntry :=
  (c.pods.reverse.find? (·.owns key)).map Pod.entry

/-- The rate that a configuration sets an entity to. -/
def rate? (c : Config) (d : Direction) (e : EntityId) : Option UInt64 :=
  (c.pods.reverse.find? (·.limits e)).map (·.rate d)

/-- Of the pods of some kind, if there are any, one is the last. -/
theorem exists_last {c : Config} (kind : Pod → Bool) {pod : Pod} (hpod : pod ∈ c.pods)
    (hkind : kind pod = true) :
    ∃ last ∈ c.pods, kind last = true ∧ c.pods.reverse.find? kind = some last := by
  have hsome : (c.pods.reverse.find? kind).isSome = true :=
    List.find?_isSome.mpr ⟨pod, List.mem_reverse.mpr hpod, hkind⟩
  obtain ⟨last, hlast⟩ := Option.isSome_iff_exists.mp hsome
  exact ⟨last, List.mem_reverse.mp (List.mem_of_find?_eq_some hlast), List.find?_some hlast, hlast⟩

/-- If some pod owns a key, then one of those that do decides about it. -/
theorem exists_entryAt?_eq {c : Config} {pod : Pod} {key : AddressKey} (hpod : pod ∈ c.pods)
    (howns : pod.owns key = true) :
    ∃ last ∈ c.pods, last.owns key = true ∧ c.entryAt? key = some last.entry := by
  obtain ⟨last, hlast, hkind, hfind⟩ := exists_last (·.owns key) hpod howns
  exact ⟨last, hlast, hkind, by rw [entryAt?, hfind, Option.map_some]⟩

/-- If some pod limits an entity, then one of those that do decides about it. -/
theorem exists_rate?_eq {c : Config} {pod : Pod} {e : EntityId} (hpod : pod ∈ c.pods)
    (hlimits : pod.limits e = true) :
    ∃ last ∈ c.pods, last.limits e = true ∧ ∀ d, c.rate? d e = some (last.rate d) := by
  obtain ⟨last, hlast, hkind, hfind⟩ := exists_last (·.limits e) hpod hlimits
  exact ⟨last, hlast, hkind, fun d => by rw [rate?, hfind, Option.map_some]⟩

theorem foldl_onAddress (c : Config) (key : AddressKey) (entry : Option PodEntry) :
    c.writes.foldl (Write.onAddress key) entry = (c.entryAt? key).or entry := by
  rw [writes, entryAt?]
  induction c.pods generalizing entry with
  | nil => rfl
  | cons pod pods ih =>
    rw [List.flatMap_cons, List.foldl_append, ih, Pod.foldl_onAddress, List.reverse_cons,
      List.find?_append]
    -- a pod that comes later has the last word
    cases pods.reverse.find? (·.owns key) with
    | some later => rfl
    | none => by_cases howns : pod.owns key <;> simp [howns]

theorem rate_foldl_onEntity (c : Config) (d : Direction) (e : EntityId) (state : Option EntityState) :
    (c.writes.foldl (Write.onEntity d e) state).map (·.limiter.rate)
      = (c.rate? d e).elim (state.map (·.limiter.rate)) limitOf? := by
  rw [writes, rate?]
  induction c.pods generalizing state with
  | nil => rfl
  | cons pod pods ih =>
    rw [List.flatMap_cons, List.foldl_append, ih, Pod.foldl_onEntity, List.reverse_cons,
      List.find?_append]
    cases pods.reverse.find? (·.limits e) with
    | some later => rfl
    | none => by_cases hlimits : pod.limits e <;> simp [hlimits, Write.rate_limited]

/-- What a configuration makes of a shaper.  Its plans are in force, the last pod that names an address or an
entity decides about it, and what no pod names is as before. -/
structure Installed (c : Config) (s s' : Shaper) : Prop where
  wellFormed : s'.WellFormed
  plan : ∀ d, (s'.lane d).plan = (c.plans.get d).withDefaults.toRatePlan
  address : ∀ key, s'.directory.get? key = (c.entryAt? key).or (s.directory.get? key)
  rate : ∀ d e, s'.rate? d e = (c.rate? d e).elim (s.rate? d e) limitOf?

theorem wellFormed_install {s : Shaper} (hs : s.WellFormed) (plans : PerDirection BandwidthPlan) :
    (s.install plans).WellFormed :=
  ⟨hs.directory, fun d => by rw [s.lane_install plans d]; exact hs.entities d⟩

/-- **What a configuration makes of a shaper can be read off it.** -/
theorem installed {c : Config} {s s' : Shaper} (hs : s.WellFormed)
    (h : s.call (.apply c) = (.ok (), s')) : c.Installed s s' := by
  have hwritten := (wellFormed_install hs c.plans).writtenBy_all
    ((call_apply_eq_ok_iff (acceptable_of_call_apply h)).mp h)
  refine ⟨hwritten.wellFormed, fun d => ?_, fun key => ?_, fun d e => ?_⟩
  · rw [hwritten.rest d, s.lane_install c.plans d]
  · rw [hwritten.address, c.foldl_onAddress]
    rfl
  · have hbefore : (s.install c.plans).entity? d e = s.entity? d e := by
      rw [Shaper.entity?, s.lane_install c.plans d, Shaper.entity?]
    rw [Shaper.rate?, hwritten.entity, c.rate_foldl_onEntity, hbefore, Shaper.rate?]

end Config

end Shaping
