import Shaping.Proofs.Control.Plans

/-!
# Plans in force

What is in force in a shaper was accepted at some time, or is no plan at all (`Shaper.Reachable.accepted`).
Packets leave plans alone, and so does what is done with pods and rates; and plans that are written are
accepted first.

From this it follows that the plans of a shaper can be read and written back.  Defaults are only filled in
where there is nothing, and what they depend on they do not change, so that filling them in twice comes to
filling them in once (`BandwidthPlan.withDefaults_withDefaults`).  A plan in force therefore passes the check
that it passed before, and it is the plan that is in force already.

It would not be enough to remember that the plan in force passes the check.  For what is read to be written
back, filling in defaults must not change it, and a plan that passes may well have something left to fill
in.  So `Shaper.Accepted` says where the plan comes from: from another one by filling it in.
-/

set_option autoImplicit false

namespace Shaping

namespace BandwidthPlan

/-- What has a default has nothing left to fill in, unless the default is nothing. -/
theorem orDefault_orDefault (given default : UInt64) :
    orDefault (orDefault given default) default = orDefault given default := by
  by_cases h : given = 0
  · simp only [orDefault, if_pos h, ite_self]
  · simp only [orDefault, if_neg h]

/-- **Defaults are filled in once.**  The rates that defaults are taken from are left as they are given. -/
theorem withDefaults_withDefaults (plan : BandwidthPlan) :
    plan.withDefaults.withDefaults = plan.withDefaults := by
  simp only [withDefaults, orDefault_orDefault]

theorem configured_toRatePlan_iff (plan : BandwidthPlan) :
    plan.toRatePlan.configured = true ↔ plan ≠ unset := by
  simp [toRatePlan, isUnset]

end BandwidthPlan

namespace Shaper

/-! ## What is in force was accepted

Being accepted is stable under pods and rates but not `Stable`, for it does not survive the storing of just
any plan.  Therefore calls are gone through once more, and those that store plans are looked at with the two
cases of `Shaper.call_writePlans_cases`. -/

/-- In each direction a plan is in force that passed the check with everything filled in. -/
def Accepted (s : Shaper) : Prop :=
  ∀ d, ∃ plan : BandwidthPlan, plan.withDefaults.check = .ok () ∧
    (s.lane d).plan = plan.withDefaults.toRatePlan

theorem accepted_empty (n : Nat) : (empty n).Accepted :=
  fun d => ⟨.unset, rfl, by cases d <;> rfl⟩

theorem accepted_install (s : Shaper) {plans : PerDirection BandwidthPlan}
    (h : ∀ d, (plans.get d).withDefaults.check = .ok ()) : (s.install plans).Accepted :=
  fun d => ⟨plans.get d, h d, congrArg Lane.plan (s.lane_install plans d)⟩

/-- Pods and rates do not matter. -/
theorem stableInTables_accepted : StableInTables (fun _ _ => True) Accepted where
  claimAddress s key created s' h hs d :=
    (h d).imp fun _ hd => ⟨hd.1, (stableInTables_plan d _).claimAddress s key created s' hd.2 hs⟩
  setAddress _ _ _ h := h
  eraseAddress _ _ h := h
  claimEntity s d' e created s' ha h hs d :=
    (h d).imp fun _ hd => ⟨hd.1, (stableInTables_plan d _).claimEntity s d' e created s' ha hd.2 hs⟩
  modifyEntity s d' e f ha h d :=
    (h d).imp fun _ hd => ⟨hd.1, (stableInTables_plan d _).modifyEntity s d' e f ha hd.2⟩
  eraseEntity s d' e ha h d :=
    (h d).imp fun _ hd => ⟨hd.1, (stableInTables_plan d _).eraseEntity s d' e ha hd.2⟩

/-- Plans are accepted before they are stored. -/
theorem keeps_accepted_writePlans (plans : PerDirection BandwidthPlan) :
    Control.Keeps Accepted (Control.writePlans plans) := by
  intro c hc
  by_cases hcheck : ∀ d, (plans.get d).withDefaults.check = .ok ()
  · obtain ⟨notes, hrun⟩ := Control.run_writePlans_of_ok hcheck c
    rw [hrun]
    exact c.shaper.accepted_install hcheck
  · obtain ⟨f, notes, hrun⟩ := Control.run_writePlans_of_refused hcheck c
    rw [hrun]
    exact hc

theorem Accepted.call {s : Shaper} (h : s.Accepted) (c : Call) : (s.call c).2.Accepted := by
  have hpod : ∀ pod, Control.Keeps Accepted (Control.writePod pod) := fun _ =>
    stableInTables_accepted.writePod fun _ => trivial
  refine call_leads (Q := Accepted) ?_ h
  cases c with
  | writePlans plans => exact keeps_accepted_writePlans plans
  | writePod pod => exact hpod pod
  | deletePod pod => exact stableInTables_accepted.deletePod pod
  | writeRates entity rates => exact stableInTables_accepted.writeRates (fun _ => trivial) rates
  | deleteRates entity => exact stableInTables_accepted.deleteRates fun _ => trivial
  | apply config =>
    exact (keeps_accepted_writePlans _).bind fun _ => .forM fun pod _ => .within (hpod pod)

/-- **What is in force was accepted**, or is no plan at all. -/
theorem Reachable.accepted {s : Shaper} (h : s.Reachable) : s.Accepted := by
  induction h with
  | empty n => exact accepted_empty n
  | @step s u e _ ih =>
    cases e with
    | packet p now =>
      intro d
      rw [u.plan_packet p now d]
      exact ih d
    | call c => exact ih.call c

/-! ## Reading and writing back -/

theorem get_plans (s : Shaper) (d : Direction) : s.plans.get d = .ofRatePlan (s.lane d).plan := by
  cases d <;> rfl

/-- A plan in force is the plan that is read, with nothing to fill in, and it passes the check. -/
theorem Accepted.plans {s : Shaper} (h : s.Accepted) (d : Direction) :
    (s.plans.get d).withDefaults.check = .ok () ∧
      (s.lane d).plan = (s.plans.get d).withDefaults.toRatePlan := by
  obtain ⟨plan, hcheck, hplan⟩ := h d
  have hread : s.plans.get d = plan.withDefaults := by
    rw [get_plans, hplan, BandwidthPlan.ofRatePlan_toRatePlan]
  rw [hread, BandwidthPlan.withDefaults_withDefaults]
  exact ⟨hcheck, hplan⟩

/-- To install what is in force changes nothing. -/
theorem Accepted.install_plans {s : Shaper} (h : s.Accepted) : s.install s.plans = s := by
  have hingress : (s.lane .ingress).plan = s.plans.ingress.withDefaults.toRatePlan := (h.plans _).2
  have hegress : (s.lane .egress).plan = s.plans.egress.withDefaults.toRatePlan := (h.plans _).2
  rw [install, setPlan_of_eq hingress, setPlan_of_eq hegress]

/-- What is read after plans were installed is these plans with everything filled in. -/
theorem plans_install (s : Shaper) (plans : PerDirection BandwidthPlan) :
    (s.install plans).plans = ⟨plans.ingress.withDefaults, plans.egress.withDefaults⟩ := rfl

/-- **Plans are written both or not at all, and can be written back.**  If one of the two cannot be kept, with
everything filled in, then writing them fails and changes nothing.  Otherwise exactly these two are in force
afterwards, and read back, and nothing but plans has changed; a plan is none at all if and only if it is all
zero.  And what is read from a shaper can be written to it without failure, and changes nothing. -/
theorem plans_are_atomic_and_stable {s : Shaper} (hs : s.Reachable)
    (plans : PerDirection BandwidthPlan) :
    ((¬ ∀ d, (plans.get d).withDefaults.check = .ok ()) →
      ∃ f, s.call (.writePlans plans) = (.error f, s)) ∧
    ((∀ d, (plans.get d).withDefaults.check = .ok ()) →
      ∃ s', s.call (.writePlans plans) = (.ok (), s') ∧
        s'.directory = s.directory ∧
        (∀ d, s'.lane d = { s.lane d with plan := (plans.get d).withDefaults.toRatePlan } ∧
          ((s'.lane d).plan.configured = true ↔ (plans.get d).withDefaults ≠ .unset)) ∧
        s'.plans = ⟨plans.ingress.withDefaults, plans.egress.withDefaults⟩) ∧
    s.call (.writePlans s.plans) = (.ok (), s) := by
  refine ⟨fun hrefused => ?_, fun hcheck => ?_, ?_⟩
  · rcases s.call_writePlans_cases plans with ⟨hcheck, -⟩ | ⟨-, hcall⟩
    · exact absurd hcheck hrefused
    · exact hcall
  · rcases s.call_writePlans_cases plans with ⟨-, hcall⟩ | ⟨hrefused, -⟩
    · refine ⟨_, hcall, rfl, fun d => ⟨s.lane_install plans d, ?_⟩, s.plans_install plans⟩
      rw [s.lane_install plans d]
      exact BandwidthPlan.configured_toRatePlan_iff _
    · exact absurd hcheck hrefused
  · rcases s.call_writePlans_cases s.plans with ⟨-, hcall⟩ | ⟨hrefused, -⟩
    · rw [hcall, hs.accepted.install_plans]
    · exact absurd (fun d => (hs.accepted.plans d).1) hrefused

end Shaper

/-! ## Cases

A plan that was put into force and removed again, in one of the directions. -/

namespace RemovedPlan

/-- The removal of a plan is one more plan to be written, which says nothing. -/
def events : List Event :=
  [.call (.writePlans (.const BandwidthPlan.offlineOnly)),
    .call (.writePlans ⟨.unset, BandwidthPlan.offlineOnly⟩)]

/-- How the packets of the run are shaped does not matter, as there are none. -/
def shaper : Shaper := (⟨.standard, .directory⟩ : Pipeline).after (.empty 1) events

theorem reachable : shaper.Reachable := Shaper.Reachable.after (.empty 1) _ events

end RemovedPlan

section

open RemovedPlan

/-- One direction has a plan and the other has none any more.  What is read can be written back, and a plan
that cannot be kept does not replace the one that can. -/
theorem Shaper.plans_are_atomic_and_stable_after_removal :
    shaper.plans = ⟨.unset, BandwidthPlan.offlineOnly.withDefaults⟩ ∧
      shaper.call (.writePlans shaper.plans) = (.ok (), shaper) ∧
      ∃ f, shaper.call (.writePlans ⟨.unset, ⟨1, 0, ⟨⟨0, 0⟩, ⟨0, 2⟩, ⟨0, 0⟩⟩⟩⟩)
        = (.error f, shaper) :=
  ⟨rfl, (plans_are_atomic_and_stable reachable (.const .unset)).2.2,
    (plans_are_atomic_and_stable reachable _).1 fun h => absurd (h .egress) (by decide)⟩

end

end Shaping
