import Shaping.Proofs.Control.Acceptance
import Shaping.Proofs.Shaper.Run
import Shaping.Proofs.Allocator.Bounds

/-!
# Plans that are put into force

A call that writes plans checks the plans of both directions first, with the defaults filled in.  If one of
them cannot be kept it fails and has done nothing, and otherwise it leaves both in force
(`Shaper.call_writePlans_cases`, `Shaper.plan_of_writePlans`).  What the check looks for makes the bounds of
the offline tiers consistent.  It does not look at the minimum of online traffic, so that one has to be
known to be no more than the whole (`consistent_of_check`).

The steps of writing plans are two that may fail and two that may not, in this order.  That nothing is done
if one of the plans is refused is a consequence of the order alone: when the first plan is stored there is
nothing left to refuse.  A plan that is in force already is not stored, and that need not be told apart
either, since storing it would change nothing (`run_storePlan`, by `Shaper.setPlan_of_eq`).  So there are
two cases and not eight.
-/

set_option autoImplicit false

namespace Shaping

namespace BandwidthPlan

/-- What the check says about the minima of offline traffic. -/
theorem least_le_most_of_check {plan : BandwidthPlan} (h : plan.check = .ok ()) :
    plan.tiers.l1.least ≤ plan.tiers.l1.most ∧ plan.tiers.l2.least ≤ plan.tiers.l2.most := by
  rcases (check_eq_ok_iff plan).mp h with hunset | hchecked
  · have hplan : plan = unset := of_decide_eq_true hunset
    rw [hplan]
    exact ⟨UInt64.le_refl _, UInt64.le_refl _⟩
  · exact ⟨UInt64.le_iff_toNat_le.mpr (hchecked.least_le_most .l1 (by decide)),
      UInt64.le_iff_toNat_le.mpr (hchecked.least_le_most .l2 (by decide))⟩

/-- The default minimum of online traffic is no more than there is. -/
theorem least_withDefaults_le {plan : BandwidthPlan} (h : plan.tiers.l0.least ≤ plan.guaranteed) :
    plan.withDefaults.tiers.l0.least ≤ plan.guaranteed := by
  simp only [withDefaults, orDefault]
  split
  · rw [UInt64.le_iff_toNat_le, Word.toNat_subSat, Word.toNat_subSat]
    omega
  · exact h

/-- A checked plan is consistent if the minimum of online traffic is no more than there is. -/
theorem consistent_of_check {plan : BandwidthPlan} (hcheck : plan.withDefaults.check = .ok ())
    (honline : plan.tiers.l0.least ≤ plan.guaranteed) :
    plan.withDefaults.toRatePlan.Consistent := by
  obtain ⟨hl1, hl2⟩ := least_le_most_of_check hcheck
  intro t
  cases t with
  | l0 => exact UInt64.le_iff_toNat_le.mp (least_withDefaults_le honline)
  | l1 => exact UInt64.le_iff_toNat_le.mp hl1
  | l2 => exact UInt64.le_iff_toNat_le.mp hl2

end BandwidthPlan

namespace Shaper

/-- What is in force already need not be stored. -/
theorem setPlan_of_eq {s : Shaper} {d : Direction} {plan : RatePlan} (h : (s.lane d).plan = plan) :
    s.setPlan d plan = s := by
  subst h
  cases d <;> rfl

/-- The shaper with plans for both directions in force. -/
def install (s : Shaper) (plans : PerDirection BandwidthPlan) : Shaper :=
  (s.setPlan .ingress plans.ingress.withDefaults.toRatePlan).setPlan .egress
    plans.egress.withDefaults.toRatePlan

theorem lane_install (s : Shaper) (plans : PerDirection BandwidthPlan) (d : Direction) :
    (s.install plans).lane d
      = { s.lane d with plan := (plans.get d).withDefaults.toRatePlan } := by
  cases d <;> rfl

end Shaper

namespace Control

theorem run_forM_note (notes : List Note) (c : Controlled) :
    ∃ left, (notes.forM note).run.run c = (.ok (), ⟨c.shaper, left⟩) := by
  induction notes generalizing c with
  | nil => exact ⟨c.notes, rfl⟩
  | cons n notes ih =>
    obtain ⟨left, hleft⟩ := ih ⟨c.shaper, c.notes.push n⟩
    refine ⟨left, ?_⟩
    rw [List.forM, run_bind, run_note]
    exact hleft

/-- Accepting a plan does not change the shaper. -/
theorem run_acceptPlan (d : Direction) (plan : BandwidthPlan) (c : Controlled) :
    ∃ notes, (acceptPlan d plan).run.run c =
      (match plan.withDefaults.check with
        | .ok _ => .ok plan.withDefaults
        | .error refusal => .error ⟨[.storingPlan d plan.withDefaults], .plan refusal⟩,
        ⟨c.shaper, notes⟩) := by
  rw [acceptPlan]
  cases plan.withDefaults.check with
  | error refusal => exact ⟨c.notes, run_throw _ c⟩
  | ok _ =>
    obtain ⟨notes, hnotes⟩ := run_forM_note plan.withDefaults.warnings c
    refine ⟨notes, ?_⟩
    dsimp only
    rw [run_bind, hnotes]
    rfl

/-- Storing a plan does not fail.  If it is in force already, nothing is stored, which comes to the
same. -/
theorem run_storePlan (d : Direction) (plan : BandwidthPlan) (c : Controlled) :
    ∃ notes, (storePlan d plan).run.run c
      = (.ok (), ⟨c.shaper.setPlan d plan.toRatePlan, notes⟩) := by
  rw [storePlan, run_bind, run_inspect]
  dsimp only
  split
  · rename_i hsame
    rw [Shaper.setPlan_of_eq hsame]
    exact ⟨_, run_note _ c⟩
  · rw [run_bind, run_note]
    exact ⟨_, run_change _ _⟩

/-- Plans that can be kept are written. -/
theorem run_writePlans_of_ok {plans : PerDirection BandwidthPlan}
    (h : ∀ d, (plans.get d).withDefaults.check = .ok ()) (c : Controlled) :
    ∃ notes, (writePlans plans).run.run c = (.ok (), ⟨c.shaper.install plans, notes⟩) := by
  have hingress : plans.ingress.withDefaults.check = .ok () := h .ingress
  have hegress : plans.egress.withDefaults.check = .ok () := h .egress
  obtain ⟨notes, hrun⟩ := run_acceptPlan .ingress plans.ingress c
  obtain ⟨notes', hrun'⟩ := run_acceptPlan .egress plans.egress ⟨c.shaper, notes⟩
  obtain ⟨left, hstore⟩ := run_storePlan .ingress plans.ingress.withDefaults ⟨c.shaper, notes'⟩
  obtain ⟨left', hstore'⟩ := run_storePlan .egress plans.egress.withDefaults
    ⟨c.shaper.setPlan .ingress plans.ingress.withDefaults.toRatePlan, left⟩
  rw [hingress] at hrun
  rw [hegress] at hrun'
  refine ⟨left', ?_⟩
  rw [writePlans, run_bind, hrun]
  dsimp only
  rw [run_bind, hrun']
  dsimp only
  rw [run_bind, hstore]
  exact hstore'

/-- Both plans are looked at before the first one is stored. -/
theorem run_writePlans_of_refused {plans : PerDirection BandwidthPlan}
    (h : ¬ ∀ d, (plans.get d).withDefaults.check = .ok ()) (c : Controlled) :
    ∃ f notes, (writePlans plans).run.run c = (.error f, ⟨c.shaper, notes⟩) := by
  obtain ⟨notes, hrun⟩ := run_acceptPlan .ingress plans.ingress c
  rw [writePlans, run_bind, hrun]
  cases hingress : plans.ingress.withDefaults.check with
  | error refusal => exact ⟨_, _, rfl⟩
  | ok _ =>
    obtain ⟨notes', hrun'⟩ := run_acceptPlan .egress plans.egress ⟨c.shaper, notes⟩
    dsimp only
    rw [run_bind, hrun']
    cases hegress : plans.egress.withDefaults.check with
    | error refusal => exact ⟨_, _, rfl⟩
    | ok _ =>
      refine absurd (fun d => ?_) h
      cases d with
      | ingress => exact hingress
      | egress => exact hegress

end Control

namespace Shaper

/-- **Plans are written both or not at all**, and if they are not, nothing else is done. -/
theorem call_writePlans_cases (s : Shaper) (plans : PerDirection BandwidthPlan) :
    ((∀ d, (plans.get d).withDefaults.check = .ok ()) ∧
        s.call (.writePlans plans) = (.ok (), s.install plans)) ∨
      (¬ ∀ d, (plans.get d).withDefaults.check = .ok ()) ∧
        ∃ f, s.call (.writePlans plans) = (.error f, s) := by
  by_cases hcheck : ∀ d, (plans.get d).withDefaults.check = .ok ()
  · obtain ⟨notes, hrun⟩ := Control.run_writePlans_of_ok hcheck ⟨s, #[]⟩
    refine Or.inl ⟨hcheck, ?_⟩
    rw [call, Call.control, hrun]
  · obtain ⟨f, notes, hrun⟩ := Control.run_writePlans_of_refused hcheck ⟨s, #[]⟩
    refine Or.inr ⟨hcheck, f, ?_⟩
    rw [call, Call.control, hrun]

/-- A call that writes plans leaves them in force. -/
theorem plan_of_writePlans {s s' : Shaper} {plans : PerDirection BandwidthPlan}
    (h : s.call (.writePlans plans) = (.ok (), s')) (d : Direction) :
    (plans.get d).withDefaults.check = .ok () ∧
      (s'.lane d).plan = (plans.get d).withDefaults.toRatePlan := by
  rcases s.call_writePlans_cases plans with ⟨hcheck, hcall⟩ | ⟨-, f, hcall⟩
  · rw [hcall] at h
    cases h
    exact ⟨hcheck d, congrArg Lane.plan (s.lane_install plans d)⟩
  · rw [hcall] at h
    cases h

end Shaper

end Shaping
