import Shaping.Proofs.Control.Configured
import Shaping.Proofs.Control.Listings

/-!
# Configurations that are put into force again

A configuration is put into force again whenever something about it may have changed, with traffic going on.
Where nothing has changed nothing should be disturbed, and least of all the bookkeeping of limiters.

What the configuration says is `InForce` once it was put into force, and traffic leaves it so.  Every write of
it then finds something to write to (`InForce.has`), so no table is asked for room.  A limit that is in force
already is not written at all.  An entry of the directory is, and need not be the same in between: if two pods
name an address, then the first one takes it back and the second one gets it again.  But these writes leave
each entry in its place (`Resembles`), and when all of them are done each entry is what it was, so the
directory is the same again, slot by slot.

All this needs the pods of an entity to say the same about its limits (`Config.Agreeing`).  Otherwise its
limiter starts anew with each of them, and what is listed is the same nevertheless
(`Config.repetition_changes_nothing`).

That the directory is the same slot by slot could be had more easily if entries with the value that they
should have were not written.  But they are, and for a while some of them say something else, so there is no
step of the repetition at which everything is as before.  Two things are kept in the meantime: the layout,
and what `WrittenBy` says of each entry.  They determine the directory in the end.
-/

set_option autoImplicit false

namespace Shaping

/-! ## Writes that change little -/

namespace Shaper

/-- The address of a write has an entry, and a limit is what it is to be. -/
def Has (s : Shaper) : Write → Prop
  | .address _ a => s.directory.get? a.key ≠ none
  | .rate e d limit => s.rate? d e = limitOf? limit

/-- The shaper is another one only in what the entries of the directory say. -/
structure Resembles (s s' : Shaper) : Prop where
  wellFormed : s'.WellFormed
  lanes : s'.lanes = s.lanes
  layout : s'.directory.map (fun _ => ()) = s.directory.map fun _ => ()

/-- A limit that is in force is not written. -/
theorem WellFormed.write_rate {s : Shaper} (h : s.WellFormed) {d : Direction} {e : EntityId}
    {limit : UInt64} (hrate : s.rate? d e = limitOf? limit) : s.write (.rate e d limit) = .ok s := by
  rw [limitOf?] at hrate
  rw [write]
  split
  · rename_i hzero
    rw [if_pos hzero, rate?, Option.map_eq_none_iff] at hrate
    rw [eraseEntity_eq, (h.entities d).erase_of_none hrate]
    cases d <;> rfl
  · rename_i hzero
    rw [if_neg hzero] at hrate
    exact if_pos hrate

namespace Resembles

variable {s s' : Shaper}

/-- The same addresses have entries. -/
theorem get?_eq_none_iff (h : s.Resembles s') (key : AddressKey) :
    s'.directory.get? key = none ↔ s.directory.get? key = none := by
  have hlayout := congrArg (OpenTable.get? · key) h.layout
  rw [OpenTable.get?_map, OpenTable.get?_map] at hlayout
  rw [← Option.map_eq_none_iff (f := fun _ => ()), hlayout, Option.map_eq_none_iff]

/-- **A write that has its place takes no room**, and changes one entry at most. -/
theorem write (h : s.Resembles s') {w : Write} (hw : s.Has w) :
    ∃ s'', s'.write w = .ok s'' ∧ s.Resembles s'' := by
  cases w with
  | address pod a =>
    obtain ⟨entry, hentry⟩ :=
      Option.ne_none_iff_exists'.mp fun hnone => hw ((h.get?_eq_none_iff a.key).mp hnone)
    refine ⟨s'.setAddress a.key ⟨pod.entity, pod.classId⟩, ?_, ?_, h.lanes, ?_⟩
    · rw [Shaper.write, claimAddress, h.wellFormed.directory.claim_of_some hentry]
      rfl
    · exact ⟨h.wellFormed.directory.visit a.key _, h.wellFormed.entities⟩
    · rw [← h.layout]
      exact s'.directory.map_visit fun _ _ => rfl
  | rate e d limit =>
    have hrate : s'.rate? d e = limitOf? limit := by
      rw [rate?, entity?, lane, h.lanes]
      exact hw
    exact ⟨s', h.wellFormed.write_rate hrate, h⟩

theorem writes (h : s.Resembles s') {writes : List Write} (hwrites : ∀ w ∈ writes, s.Has w) :
    ∃ s'', writes.foldlM Shaper.write s' = .ok s'' ∧ s.Resembles s'' := by
  induction writes generalizing s' with
  | nil => exact ⟨s', rfl, h⟩
  | cons w writes ih =>
    rw [List.forall_mem_cons] at hwrites
    obtain ⟨s₁, hw, h₁⟩ := h.write hwrites.1
    obtain ⟨s₂, hrest, h₂⟩ := ih h₁ hwrites.2
    refine ⟨s₂, ?_, h₂⟩
    rw [List.foldlM_cons, hw]
    exact hrest

/-- If the entries of the directory say the same as well, nothing is different. -/
theorem eq (h : s.Resembles s') (hs : s.WellFormed)
    (hget : ∀ key, s'.directory.get? key = s.directory.get? key) : s' = s := by
  have hdirectory := h.wellFormed.directory.eq_of_map_eq hs.directory h.layout hget
  obtain ⟨directory, lanes⟩ := s'
  exact (mk.injEq ..).mpr ⟨hdirectory, h.lanes⟩

end Resembles

end Shaper

/-! ## What is in force

`InForce` only speaks of what the configuration names, and does not mention the shaper that it was put into.
That is what makes it last through packets, and also what makes it enough: a repetition writes nothing else. -/

/-- Packets do not change the rate of an entity. -/
theorem Pipeline.rate?_packet (u : Pipeline) {s : Shaper} (hs : s.WellFormed) (p : Packet) (now : UInt64)
    (d : Direction) (e : EntityId) : (u.step s (.packet p now)).rate? d e = s.rate? d e := by
  have hentity := u.entity?_packet hs p now d e
  dsimp only at hentity
  rw [Shaper.rate?, Shaper.rate?, hentity]
  split
  · cases s.entity? d e with
    | none => rfl
    | some state => exact congrArg some (state.rate_gate _ _ _ _)
  · rfl

namespace Config

/-- Pods of the same entity say the same about its limits, unless they are left out. -/
def Agreeing (c : Config) : Prop :=
  ∀ pod ∈ c.pods, ∀ pod' ∈ c.pods, pod.hostNetwork = false → pod'.hostNetwork = false →
    pod.entity = pod'.entity → pod.receiveRate = pod'.receiveRate ∧ pod.sendRate = pod'.sendRate

instance (c : Config) : Decidable c.Agreeing :=
  inferInstanceAs (Decidable (∀ pod ∈ c.pods, ∀ pod' ∈ c.pods, _ → _ → _ → _))

/-- Pods that agree say the same about each direction. -/
theorem Agreeing.rate_eq {c : Config} (h : c.Agreeing) {pod pod' : Pod} {e : EntityId} (hpod : pod ∈ c.pods)
    (hpod' : pod' ∈ c.pods) (hlimits : pod.limits e = true) (hlimits' : pod'.limits e = true)
    (d : Direction) : pod.rate d = pod'.rate d := by
  obtain ⟨hhost, hentity⟩ := Pod.limits_iff.mp hlimits
  obtain ⟨hhost', hentity'⟩ := Pod.limits_iff.mp hlimits'
  obtain ⟨hreceive, hsend⟩ := h pod hpod pod' hpod' hhost hhost' (hentity.trans hentity'.symm)
  cases d with
  | ingress => exact hreceive
  | egress => exact hsend

/-- All that the configuration says is so. -/
structure InForce (c : Config) (s : Shaper) : Prop where
  plan : ∀ d, (s.lane d).plan = (c.plans.get d).withDefaults.toRatePlan
  address : ∀ key entry, c.entryAt? key = some entry → s.directory.get? key = some entry
  rate : ∀ d e limit, c.rate? d e = some limit → s.rate? d e = limitOf? limit

theorem Installed.inForce {c : Config} {s s' : Shaper} (h : c.Installed s s') : c.InForce s' where
  plan := h.plan
  address key entry hentry := by rw [h.address, hentry, Option.some_or]
  rate d e limit hlimit := by rw [h.rate, hlimit, Option.elim_some]

namespace InForce

variable {c : Config} {s s' : Shaper}

/-- Traffic leaves in force what is in force. -/
theorem packets (h : c.InForce s) (hs : s.WellFormed) (u : Pipeline) (packets : List (Packet × UInt64)) :
    c.InForce (u.after s (packets.map fun x => .packet x.1 x.2)) := by
  induction packets generalizing s with
  | nil => exact h
  | cons x packets ih =>
    refine ih ⟨fun d => ?_, fun key entry hentry => ?_, fun d e limit hlimit => ?_⟩
      (u.wellFormed_step hs (.packet x.1 x.2))
    · rw [u.plan_packet, h.plan]
    · rw [u.directory_packet, h.address key entry hentry]
    · rw [u.rate?_packet hs, h.rate d e limit hlimit]

/-- **What a configuration would write is there**, if its pods do not contradict each other. -/
theorem has (h : c.InForce s) (hagree : c.Agreeing) : ∀ w ∈ c.writes, s.Has w := by
  intro w hw
  cases w with
  | address pod a =>
    obtain ⟨hpod, hhost, ha⟩ := address_mem_writes.mp hw
    obtain ⟨last, -, -, hentry⟩ := exists_entryAt?_eq hpod (Pod.owns_iff.mpr ⟨hhost, a, ha, rfl⟩)
    exact Option.ne_none_iff_exists'.mpr ⟨_, h.address a.key _ hentry⟩
  | rate e d limit =>
    obtain ⟨pod, hpod, hhost, hentity, hlimit⟩ := rate_mem_writes.mp hw
    have hlimits := Pod.limits_iff.mpr ⟨hhost, hentity⟩
    obtain ⟨last, hlast, hlimits', hrate⟩ := exists_rate?_eq hpod hlimits
    have hsame : last.rate d = limit := (hagree.rate_eq hlast hpod hlimits' hlimits d).trans hlimit
    exact h.rate d e limit (hsame ▸ hrate d)

/-- To install plans that are in force changes nothing. -/
theorem install_eq (h : c.InForce s) : s.install c.plans = s := by
  have hingress : (s.lane .ingress).plan = c.plans.ingress.withDefaults.toRatePlan := h.plan .ingress
  have hegress : (s.lane .egress).plan = c.plans.egress.withDefaults.toRatePlan := h.plan .egress
  rw [Shaper.install, Shaper.setPlan_of_eq hingress, Shaper.setPlan_of_eq hegress]

/-- **What is in force and free of contradictions changes nothing.** -/
theorem call_apply (h : c.InForce s) (hs : s.WellFormed) (hc : c.Acceptable) (hagree : c.Agreeing) :
    s.call (.apply c) = (.ok (), s) := by
  obtain ⟨s', hdone, hresembles⟩ := Shaper.Resembles.writes ⟨hs, rfl, rfl⟩ (h.has hagree)
  have hget : ∀ key, s'.directory.get? key = s.directory.get? key := by
    intro key
    rw [(hs.writtenBy_all hdone).address, c.foldl_onAddress]
    cases hentry : c.entryAt? key with
    | none => exact Option.none_or
    | some entry => rw [h.address key entry hentry, Option.some_or]
  rw [call_apply_eq_ok_iff hc, h.install_eq, hdone, hresembles.eq hs hget]

/-- **What is in force is listed as before**, whether or not limiters start anew. -/
theorem unchanged (h : c.InForce s) (hinstalled : c.Installed s s') (hs : s.Reachable)
    (hs' : s'.Reachable) :
    s'.plans = s.plans ∧ s'.pods = s.pods ∧ s'.entityRates = s.entityRates := by
  obtain ⟨capacity, m, hm, hsound⟩ := hs.mirrors
  obtain ⟨capacity', m', hm', hsound'⟩ := hs'.mirrors
  refine ⟨?_, (hm'.pods_eq_iff hm).mpr fun key => ?_,
    (hm'.entityRates_eq_iff hm hsound' hsound).mpr fun d e => ?_⟩
  · have hplan : ∀ d, (s'.lane d).plan = (s.lane d).plan := fun d => by rw [hinstalled.plan, h.plan]
    exact congrArg₂ PerDirection.mk (congrArg BandwidthPlan.ofRatePlan (hplan .ingress))
      (congrArg BandwidthPlan.ofRatePlan (hplan .egress))
  · rw [hinstalled.address]
    cases hentry : c.entryAt? key with
    | none => exact Option.none_or
    | some entry => rw [h.address key entry hentry, Option.some_or]
  · rw [hinstalled.rate]
    cases hrate : c.rate? d e with
    | none => rfl
    | some limit => rw [h.rate d e limit hrate, Option.elim_some]

end InForce

/-! ## The whole -/

/-- **To put a configuration into force again changes nothing.**  If the pods of each entity agree about its
limits, it does not fail, and all is exactly as the packets in between left it.  If they do not agree and it
does not fail, then plans, addresses and limits are listed as before. -/
theorem repetition_changes_nothing {s s' : Shaper} (hs : s.Reachable) {c : Config}
    (h : s.call (.apply c) = (.ok (), s')) (u : Pipeline) (packets : List (Packet × UInt64)) :
    let t := u.after s' (packets.map fun x => .packet x.1 x.2)
    (c.Agreeing → t.call (.apply c) = (.ok (), t)) ∧
      ∀ t', t.call (.apply c) = (.ok (), t') →
        t'.plans = t.plans ∧ t'.pods = t.pods ∧ t'.entityRates = t.entityRates := by
  intro t
  have hs' : s'.Reachable := hs.of_call h
  have ht : t.Reachable := hs'.after u _
  have hforce : c.InForce t := (installed hs.wellFormed h).inForce.packets hs'.wellFormed u packets
  refine ⟨hforce.call_apply ht.wellFormed (acceptable_of_call_apply h), fun t' h' => ?_⟩
  exact hforce.unchanged (installed ht.wellFormed h') ht (ht.of_call h')

end Config

/-! ## Cases

Two pods of one entity, of which a packet comes by.  In one configuration they agree about its limit, and in
the other one they do not. -/

namespace SharedEntity

/-- A pod without addresses, of an entity that is limited in what it receives. -/
def pod (receiveRate : UInt64) : Pod := { Pod.blank with entity := 1, receiveRate }

def config (rate : UInt64) : Config := ⟨.const .unset, [pod 2000000, pod rate], .standard⟩

def shaper (rate : UInt64) : Shaper := ((Shaper.empty 1).call (.apply (config rate))).2

/-- All packets are those of the entity. -/
def pipeline : Pipeline := ⟨.standard, .constant (some ⟨1, none⟩)⟩

def packets : List (Packet × UInt64) := [(⟨1500, .ingress, 0, some ⟨.v4 0, .v4 0⟩, 0⟩, 0)]

/-- The shaper after the packet. -/
def shaperAfter (rate : UInt64) : Shaper :=
  pipeline.after (shaper rate) (packets.map fun x => .packet x.1 x.2)

theorem call_apply_agreeing :
    (Shaper.empty 1).call (.apply (config 2000000)) = (.ok (), shaper 2000000) := rfl

theorem call_apply_contradicting :
    (Shaper.empty 1).call (.apply (config 3000000)) = (.ok (), shaper 3000000) := rfl

/-- The shaper after the configuration was put into force again. -/
def shaperAgain : Shaper := ((shaperAfter 3000000).call (.apply (config 3000000))).2

theorem call_apply_again :
    (shaperAfter 3000000).call (.apply (config 3000000)) = (.ok (), shaperAgain) := rfl

end SharedEntity

section

open SharedEntity

/-- What the packet took out of the bucket stays out of it if the pods agree.  If they do not, the limit is
listed as before, but the bucket was not used yet. -/
theorem Config.repetition_changes_nothing_of_shared_entity :
    ((shaperAfter 2000000).call (.apply (config 2000000)) = (.ok (), shaperAfter 2000000) ∧
        ((shaperAfter 2000000).limiter? .ingress 1).map (·.tokens) = some 1998500) ∧
      shaperAgain.entityRates = (shaperAfter 3000000).entityRates ∧
        shaperAgain.limiter? .ingress 1 ≠ (shaperAfter 3000000).limiter? .ingress 1 := by
  have hagree : (config 2000000).Agreeing := by decide
  refine ⟨⟨?_, rfl⟩, ?_, by decide⟩
  · exact (repetition_changes_nothing (.empty 1) call_apply_agreeing pipeline packets).1 hagree
  · exact ((repetition_changes_nothing (.empty 1) call_apply_contradicting pipeline packets).2 _
      call_apply_again).2.2

end

end Shaping
