import Shaping.BandwidthPlan

/-!
# Plans that are accepted

A plan is `Feasible` if its rates go together: no tier has to get more than it may, what offline traffic
may get and what all tiers have to get is there, and the burst rate is the larger one.  The check is made
to refuse plans that are not, but it does not find all of them (`infeasible_plans_pass`):

* it does not look at online traffic, so its minimum may be larger than its maximum, or larger than what
  the minima of the other tiers leave;
* it adds up the maxima of offline traffic with saturation, so that no sum is too large for the largest
  word.

What it does find is said by `check_eq_ok_iff`.  Defaults are always reasonable, so all depends on what is
given: `feasible_iff_of_check` says when an accepted plan is feasible.

Both properties are put in natural numbers, where a sum is what it should be.  That the two differ only in
what the check does not look at can then be read off their clauses, and the proofs are arithmetic with the
clauses for hypotheses.
-/

set_option autoImplicit false

namespace Shaping

namespace BandwidthPlan

/-- The rates of a plan go together.  Sums are sums of numbers here, which do not overflow. -/
structure Feasible (plan : BandwidthPlan) : Prop where
  /-- No tier has to get more than it may. -/
  least_le_most : ∀ t, (plan.tiers.get t).least.toNat ≤ (plan.tiers.get t).most.toNat
  /-- What offline traffic may get is there. -/
  offline_le : plan.tiers.l1.most.toNat + plan.tiers.l2.most.toNat ≤ plan.guaranteed.toNat
  /-- What is guaranteed can be reached. -/
  guaranteed_le : plan.guaranteed.toNat ≤ plan.burstable.toNat
  /-- What all tiers have to get is there. -/
  least_le : plan.tiers.l0.least.toNat + plan.tiers.l1.least.toNat + plan.tiers.l2.least.toNat
    ≤ plan.guaranteed.toNat

/-- What the check looks at. -/
structure Checked (plan : BandwidthPlan) : Prop where
  guaranteed_le : plan.guaranteed.toNat ≤ plan.burstable.toNat
  /-- Online traffic is left out. -/
  least_le_most : ∀ t, t ≠ .l0 → (plan.tiers.get t).least.toNat ≤ (plan.tiers.get t).most.toNat
  /-- The sum is a word. -/
  offline_le : min (plan.tiers.l1.most.toNat + plan.tiers.l2.most.toNat) (UInt64.size - 1)
    ≤ plan.guaranteed.toNat

/-- To pass, no condition may be met for which the plan is refused. -/
theorem refuse_if_eq_ok_iff {p : Prop} [Decidable p] {refusal : PlanRefusal}
    {rest : Except PlanRefusal Unit} :
    (if p then .error refusal else rest) = .ok () ↔ ¬ p ∧ rest = .ok () := by
  by_cases hp : p
  · simp [hp]
  · simp [hp]

/-- **The check passes what it is looking at, and nothing else.** -/
theorem check_eq_ok_iff (plan : BandwidthPlan) :
    plan.check = .ok () ↔ plan.isUnset = true ∨ plan.Checked := by
  have hsum := Word.toNat_addSat plan.tiers.l1.most plan.tiers.l2.most
  rw [check]
  by_cases hunset : plan.isUnset = true
  · simp [hunset]
  rw [if_neg hunset]
  simp only [refuse_if_eq_ok_iff, UInt64.not_lt, UInt64.le_iff_toNat_le, hsum, and_true]
  constructor
  · rintro ⟨hburst, -, -, hl1, hl2, hoffline⟩
    refine Or.inr ⟨hburst, fun t ht => ?_, hoffline⟩
    cases t with
    | l0 => exact absurd rfl ht
    | l1 => exact hl1
    | l2 => exact hl2
  · rintro (h | ⟨hburst, hleast, hoffline⟩)
    · exact absurd h hunset
    · -- one maximum is no more than both of them
      have htop1 := plan.tiers.l1.most.toNat_lt_size
      have htop2 := plan.tiers.l2.most.toNat_lt_size
      exact ⟨hburst, by omega, by omega, hleast .l1 (by decide), hleast .l2 (by decide), hoffline⟩

/-! ## What is filled in -/

theorem orDefault_eq_zero {given default : UInt64} (h : orDefault given default = 0) : given = 0 := by
  rw [orDefault] at h
  split at h
  · assumption
  · exact h

/-- A plan that says something does so with everything filled in. -/
theorem isUnset_withDefaults (plan : BandwidthPlan) : plan.withDefaults.isUnset = plan.isUnset := by
  rw [isUnset, isUnset, decide_eq_decide]
  constructor
  · intro h
    obtain ⟨guaranteed, burstable, ⟨least0, most0⟩, offline1, offline2⟩ := plan
    simp only [withDefaults, unset, PerTier.const, mk.injEq, PerTier.mk.injEq, Bounds.mk.injEq] at h
    obtain ⟨hguaranteed, hburst, ⟨hleast, hmost⟩, hl1, hl2⟩ := h
    rw [hguaranteed, orDefault_eq_zero hburst, orDefault_eq_zero hleast, orDefault_eq_zero hmost, hl1, hl2]
    rfl
  · intro h
    rw [h]
    rfl

/-- The default minimum of online traffic is what the other minima leave. -/
theorem toNat_least_withDefaults (plan : BandwidthPlan) :
    plan.withDefaults.tiers.l0.least.toNat =
      if plan.tiers.l0.least = 0 then
        plan.guaranteed.toNat - plan.tiers.l1.least.toNat - plan.tiers.l2.least.toNat
      else plan.tiers.l0.least.toNat := by
  simp only [withDefaults, orDefault]
  split
  · rw [Word.toNat_subSat, Word.toNat_subSat]
  · rfl

/-- The default maximum of online traffic is all there is. -/
theorem toNat_most_withDefaults (plan : BandwidthPlan) :
    plan.withDefaults.tiers.l0.most.toNat =
      if plan.tiers.l0.most = 0 then plan.guaranteed.toNat else plan.tiers.l0.most.toNat := by
  simp only [withDefaults, orDefault]
  split <;> rfl

/-! ## When an accepted plan is feasible

What has to be asked for besides is what the check leaves out.  That the minima together are no more than
there is would be a condition on every plan, if the default could break it.  It cannot: the default minimum
of online traffic is what the other two leave, and these are no more than the maxima that were checked
(`Checked.least_le`). -/

/-- A sum that saturated is larger than anything but the largest word. -/
theorem Checked.offline_le_of_ne_top {plan : BandwidthPlan} (h : plan.Checked)
    (hne : plan.guaranteed ≠ Word.top) :
    plan.tiers.l1.most.toNat + plan.tiers.l2.most.toNat ≤ plan.guaranteed.toNat := by
  have hsum := h.offline_le
  have hlt := plan.guaranteed.toNat_lt_size
  have htop : plan.guaranteed.toNat ≠ UInt64.size - 1 := fun heq =>
    hne (UInt64.toNat_inj.mp (heq.trans Word.toNat_top.symm))
  omega

/-- If what offline traffic may get is there, then a default minimum of online traffic is there, too. -/
theorem Checked.least_le {plan : BandwidthPlan} (h : plan.withDefaults.Checked)
    (hoffline : plan.tiers.l1.most.toNat + plan.tiers.l2.most.toNat ≤ plan.guaranteed.toNat)
    (hgiven : plan.tiers.l0.least ≠ 0 →
      plan.tiers.l0.least.toNat + plan.tiers.l1.least.toNat + plan.tiers.l2.least.toNat
        ≤ plan.guaranteed.toNat) :
    plan.withDefaults.tiers.l0.least.toNat + plan.tiers.l1.least.toNat + plan.tiers.l2.least.toNat
      ≤ plan.guaranteed.toNat := by
  have hl1 : plan.tiers.l1.least.toNat ≤ plan.tiers.l1.most.toNat := h.least_le_most .l1 (by decide)
  have hl2 : plan.tiers.l2.least.toNat ≤ plan.tiers.l2.most.toNat := h.least_le_most .l2 (by decide)
  rw [toNat_least_withDefaults]
  split
  · omega
  · rename_i hset
    exact hgiven hset

/-- **What an accepted plan is worth.**  Everything that was looked at is in order.  Its rates go together
if and only if the maxima of offline traffic did not run past the largest word, a maximum that was given
for online traffic is not below its minimum, and a minimum that was given for it leaves the other tiers
theirs. -/
theorem feasible_iff_of_check {plan : BandwidthPlan} (hset : plan.isUnset = false)
    (hcheck : plan.withDefaults.check = .ok ()) :
    plan.withDefaults.Checked ∧
      (plan.withDefaults.Feasible ↔
        (plan.guaranteed = Word.top →
          plan.tiers.l1.most.toNat + plan.tiers.l2.most.toNat ≤ plan.guaranteed.toNat) ∧
        (plan.tiers.l0.most ≠ 0 →
          plan.withDefaults.tiers.l0.least.toNat ≤ plan.tiers.l0.most.toNat) ∧
        (plan.tiers.l0.least ≠ 0 →
          plan.tiers.l0.least.toNat + plan.tiers.l1.least.toNat + plan.tiers.l2.least.toNat
            ≤ plan.guaranteed.toNat)) := by
  have hchecked : plan.withDefaults.Checked := by
    refine ((check_eq_ok_iff _).mp hcheck).resolve_left fun hunset => ?_
    rw [isUnset_withDefaults, hset] at hunset
    cases hunset
  have hleast := toNat_least_withDefaults plan
  have hmost := toNat_most_withDefaults plan
  refine ⟨hchecked, fun hfeasible => ⟨fun _ => hfeasible.offline_le, fun h => ?_, fun h => ?_⟩, ?_⟩
  · have hle := hfeasible.least_le_most .l0
    simp only [PerTier.get] at hle
    rwa [hmost, if_neg h] at hle
  · have hle := hfeasible.least_le
    rwa [hleast, if_neg h] at hle
  · rintro ⟨htop, hgivenMost, hgivenLeast⟩
    have hoffline : plan.tiers.l1.most.toNat + plan.tiers.l2.most.toNat ≤ plan.guaranteed.toNat := by
      by_cases h : plan.guaranteed = Word.top
      · exact htop h
      · exact hchecked.offline_le_of_ne_top h
    have hsum := hchecked.least_le hoffline hgivenLeast
    refine ⟨fun t => ?_, hoffline, hchecked.guaranteed_le, hsum⟩
    by_cases ht : t = .l0
    · subst ht
      show plan.withDefaults.tiers.l0.least.toNat ≤ plan.withDefaults.tiers.l0.most.toNat
      rw [hmost]
      split
      · omega
      · rename_i h
        exact hgivenMost h
    · exact hchecked.least_le_most t ht

/-! ## Cases -/

/-- A plan that says nothing about online traffic. -/
def offlineOnly : BandwidthPlan :=
  ⟨100000000, 0, ⟨⟨0, 0⟩, ⟨10000000, 30000000⟩, ⟨10000000, 30000000⟩⟩⟩

/-- Online traffic has to get more than there is. -/
def overcommitted : BandwidthPlan := ⟨100000000, 0, ⟨⟨200000000, 0⟩, ⟨0, 0⟩, ⟨0, 0⟩⟩⟩

/-- Each of the offline tiers may get all there is. -/
def saturated : BandwidthPlan :=
  ⟨Word.top, 0, ⟨⟨0, 0⟩, ⟨0, Word.top⟩, ⟨0, Word.top⟩⟩⟩

/-- Of a plan without online traffic the rates go together. -/
theorem feasible_iff_of_check_offlineOnly :
    offlineOnly.isUnset = false ∧ offlineOnly.withDefaults.check = .ok () ∧
      offlineOnly.withDefaults.Feasible :=
  have hset : offlineOnly.isUnset = false := rfl
  have hcheck : offlineOnly.withDefaults.check = .ok () := rfl
  ⟨hset, hcheck, (feasible_iff_of_check hset hcheck).2.mpr ⟨by decide, by decide, by decide⟩⟩

/-- Plans are accepted of which the rates do not go together, in both of the ways in which the check can
miss it. -/
theorem infeasible_plans_pass :
    (overcommitted.isUnset = false ∧ overcommitted.withDefaults.check = .ok () ∧
        ¬ overcommitted.withDefaults.Feasible) ∧
      saturated.isUnset = false ∧ saturated.withDefaults.check = .ok () ∧
        ¬ saturated.withDefaults.Feasible :=
  ⟨⟨rfl, rfl, fun h => absurd (h.least_le_most .l0) (by decide)⟩, rfl, rfl,
    fun h => absurd h.offline_le (by decide)⟩

end BandwidthPlan

end Shaping
