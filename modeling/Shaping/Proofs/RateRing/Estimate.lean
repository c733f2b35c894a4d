import Shaping.Proofs.Allocator.Recovery
import Shaping.Proofs.RateRing.Epochs
import Mathlib.Algebra.BigOperators.Fin
import Mathlib.Algebra.Order.BigOperators.Group.Finset

/-!
# The estimate is never too large

An estimate is the mean of ten slots, and a slot counts for 1.2 seconds from the beginning of its epoch.  No
estimate is larger than the bytes of just these 1.2 seconds (`toNat_average_le`), and so the allocator takes
nothing from a tier unless as much was transferred (`estimate_is_backed`).

Each slot is backed by an epoch of the history.  An epoch takes a tenth of a second or longer, so its rate
is ten times its bytes at most (`Spell.toNat_rate_le`); if it counts at all, then all its samples are
recent, since none of them comes before it begins (`toNat_contribution_le`).  No two slots show the same
epoch, so what backs all slots together is no more than what is recent in the whole history: `sum_slots_le`
adds up the epochs by the places at which they were published.

The bound is lost if slots are summed up first and bytes counted afterwards: a slot shows a rate, and the
rates of ten epochs do not say how many bytes there were.  Going slot by slot, a rate is at most ten times
the bytes of its own epoch, and the factor ten is the one by which the mean divides.  There is nothing to
spare.  That a slot counts for 1.2 seconds from the beginning of its epoch, and not from its end, is used as
well, since otherwise some of its samples would be too old.
-/

set_option autoImplicit false

namespace Shaping

/-! ## Recent samples -/

/-- Does a sample count at `now`?  It is neither of the future nor 1.2 seconds old. -/
def Sample.Recent (now : UInt64) (x : Sample) : Prop :=
  x.time.toNat ≤ now.toNat ∧ now.toNat < x.time.toNat + 1200000000

instance (now : UInt64) (x : Sample) : Decidable (x.Recent now) := inferInstanceAs (Decidable (_ ∧ _))

/-- The bytes of the recent samples of a history. -/
def recentBytes (now : UInt64) (xs : List Sample) : Nat :=
  ((xs.filter (·.Recent now)).map (·.bytes.toNat)).sum

theorem recentBytes_append (now : UInt64) (xs ys : List Sample) :
    recentBytes now (xs ++ ys) = recentBytes now xs + recentBytes now ys := by
  simp [recentBytes]

/-- The recent bytes of the epochs are those of the history. -/
theorem sum_recentBytes (now : UInt64) (es : List Spell) :
    (es.map fun e => recentBytes now e.samples).sum = recentBytes now (es.flatMap (·.samples)) := by
  induction es with
  | nil => rfl
  | cons e es ih => rw [List.map_cons, List.sum_cons, ih, List.flatMap_cons, recentBytes_append]

theorem recentBytes_eq_zero {now : UInt64} {xs : List Sample}
    (h : ∀ x ∈ xs, x.time.toNat + 1200000000 ≤ now.toNat) : recentBytes now xs = 0 := by
  have hnone : xs.filter (·.Recent now) = [] := by
    rw [List.filter_eq_nil_iff]
    intro x hx hrecent
    exact absurd (of_decide_eq_true hrecent).2 (Nat.not_lt.mpr (h x hx))
  rw [recentBytes, hnone]
  rfl

/-! ## What backs one slot

An epoch that counts is not necessarily one whose bytes are recent, if samples may come in any order.  Here
they are in order and none of them is of the future, so every sample of an epoch lies between its start and
`now`. -/

/-- A closed epoch took a tenth of a second at least. -/
theorem Spell.toNat_rate_le {e : Spell} {stop : UInt64} (h : e.Ends stop) :
    (e.rate stop).toNat ≤ 10 * e.bytes := by
  rw [Ends] at h
  rw [rate]
  split
  · exact Nat.zero_le _
  · rw [Word.toNat_clamp]
    refine Nat.le_trans (Nat.min_le_left _ _) (Nat.div_le_of_le_mul ?_)
    calc e.bytes * 1000000000 = 100000000 * (10 * e.bytes) := by omega
      _ ≤ (stop.toNat - e.start.toNat) * (10 * e.bytes) := Nat.mul_le_mul_right _ h

namespace RateRing

variable {ring : RateRing} {xs : List Sample} {es : List Spell} {now : UInt64}

/-- A published epoch adds no more than ten times its recent bytes. -/
theorem toNat_contribution_le {e : Spell} {stop : UInt64} (generation : UInt64) (hends : e.Ends stop)
    (htimes : ∀ x ∈ e.samples, e.start ≤ x.time ∧ x.time ≤ now) :
    (contribution now ⟨generation, e.start, e.rate stop⟩).toNat ≤ 10 * recentBytes now e.samples := by
  rw [contribution]
  split
  · rename_i hcounts
    have hfresh : Word.subSat now e.start < freshness := hcounts.2
    rw [UInt64.lt_iff_toNat_lt, Word.toNat_subSat, show freshness.toNat = 1200000000 from rfl] at hfresh
    have hall : e.samples.filter (·.Recent now) = e.samples := by
      rw [List.filter_eq_self]
      intro x hx
      obtain ⟨hstart, hnow⟩ := htimes x hx
      rw [UInt64.le_iff_toNat_le] at hstart hnow
      exact decide_eq_true ⟨hnow, by omega⟩
    rw [recentBytes, hall]
    exact Spell.toNat_rate_le hends
  · exact Nat.zero_le _

/-- Each of the ten epochs closed last is shown in the slot where it was published. -/
theorem Shows.exists_slot (h : ring.Shows es) (p : Fin 10) (hin : p.val + 1 < es.length) :
    ∃ i e f, i % 10 = p.val ∧ es.length ≤ i + 11 ∧ es[i]? = some e ∧ es[i + 1]? = some f ∧
      ring.slots[p] = ⟨UInt64.ofNat (i + 1), e.start, e.rate f.start⟩ := by
  -- the last of the closed epochs whose place this is
  have hp := p.isLt
  obtain ⟨i, hi⟩ : ∃ i, i = p.val + 10 * ((es.length - 2 - p.val) / 10) := ⟨_, rfl⟩
  have hplace : i % 10 = p.val := by omega
  have hlatest : es.length ≤ i + 11 := by omega
  have he : es[i]? = some es[i] := List.getElem?_eq_getElem (by omega)
  have hf : es[i + 1]? = some es[i + 1] := List.getElem?_eq_getElem (by omega)
  have hslot := h.latest i _ _ he hf hlatest
  rw [hplace, Vector.getElem?_eq_getElem hp, Option.some_inj] at hslot
  exact ⟨i, _, _, hplace, hlatest, he, hf, hslot⟩

/-- A slot was never written, or it shows one of the closed epochs. -/
theorem Shows.slot_cases (h : ring.Shows es) (p : Fin 10) :
    ring.slots[p] = .blank ∨ ∃ i e f, i % 10 = p.val ∧ es[i]? = some e ∧ es[i + 1]? = some f ∧
      ring.slots[p] = ⟨UInt64.ofNat (i + 1), e.start, e.rate f.start⟩ := by
  rcases Nat.lt_or_ge (p.val + 1) es.length with hin | hout
  · obtain ⟨i, e, f, hplace, -, hshown⟩ := h.exists_slot p hin
    exact Or.inr ⟨i, e, f, hplace, hshown⟩
  · have hslot := h.untouched p.val hout p.isLt
    rw [Vector.getElem?_eq_getElem p.isLt, Option.some_inj] at hslot
    exact Or.inl hslot

/-! ## What backs all of them

That two slots show different epochs could be said by an injective map from slots to epochs, which would
have to leave out the slots never written.  Instead the epochs are sorted by their place, and what a slot
adds is bounded by all epochs of its place together (`slot_le`), of which it shows one or none.  The sum
over all places is then the sum over all epochs. -/

/-- In a history in order, an epoch begins with its earliest sample. -/
theorem start_le_of_mem (hepochs : Epochs xs es) (horder : xs.Pairwise fun x y => x.time ≤ y.time)
    {e : Spell} (he : e ∈ es) {x : Sample} (hx : x ∈ e.samples) : e.start ≤ x.time := by
  have hsublist : e.samples.Sublist xs := by
    rw [← hepochs.samples_eq, List.flatMap_def]
    exact List.sublist_flatten_of_mem (List.mem_map_of_mem he)
  have hordered := List.pairwise_cons.mp (horder.sublist hsublist)
  rcases List.mem_cons.mp hx with rfl | hx
  · exact UInt64.le_refl _
  · exact hordered.1 x hx

/-- The slot at which the epoch is published that comes after `i` others. -/
def place {n : Nat} (i : Fin n) : Fin 10 := ⟨i.val % 10, Nat.mod_lt _ (by decide)⟩

/-- A slot adds no more than ten times the recent bytes of the epochs that were published there. -/
theorem slot_le (hepochs : Epochs xs es) (hshows : ring.Shows es)
    (horder : xs.Pairwise fun x y => x.time ≤ y.time) (hpast : ∀ x ∈ xs, x.time ≤ now) (p : Fin 10) :
    (contribution now ring.slots[p]).toNat
      ≤ 10 * ∑ i : Fin es.length with place i = p, recentBytes now es[i.val].samples := by
  rcases hshows.slot_cases p with hblank | ⟨i, e, f, hi, he, hf, hslot⟩
  · rw [hblank]
    exact Nat.zero_le _
  · obtain ⟨hlt, rfl⟩ := List.getElem?_eq_some_iff.mp he
    obtain ⟨hlt', rfl⟩ := List.getElem?_eq_some_iff.mp hf
    have hmem : es[i] ∈ es := List.getElem_mem hlt
    have hends : es[i].Ends es[i + 1].start := hepochs.ended.getElem i hlt'
    have htimes : ∀ x ∈ es[i].samples, es[i].start ≤ x.time ∧ x.time ≤ now := fun x hx =>
      ⟨start_le_of_mem hepochs horder hmem hx,
        hpast x (hepochs.samples_eq ▸ List.mem_flatMap_of_mem hmem hx)⟩
    have hplace : (⟨i, hlt⟩ : Fin es.length) ∈ Finset.univ.filter (place · = p) :=
      Finset.mem_filter.mpr ⟨Finset.mem_univ _, Fin.ext hi⟩
    have hpart : recentBytes now es[i].samples
        ≤ ∑ i : Fin es.length with place i = p, recentBytes now es[i.val].samples :=
      Finset.single_le_sum (f := fun i : Fin es.length => recentBytes now es[i.val].samples)
        (fun _ _ => Nat.zero_le _) hplace
    rw [hslot]
    exact Nat.le_trans (toNat_contribution_le _ hends htimes) (Nat.mul_le_mul_left _ hpart)

/-- The slots together add no more than ten times the recent bytes of the history. -/
theorem sum_slots_le (hepochs : Epochs xs es) (hshows : ring.Shows es)
    (horder : xs.Pairwise fun x y => x.time ≤ y.time) (hpast : ∀ x ∈ xs, x.time ≤ now) :
    ∑ p : Fin 10, (contribution now ring.slots[p]).toNat ≤ 10 * recentBytes now xs :=
  calc ∑ p : Fin 10, (contribution now ring.slots[p]).toNat
      ≤ ∑ p : Fin 10, 10 * ∑ i : Fin es.length with place i = p, recentBytes now es[i.val].samples :=
        Finset.sum_le_sum fun p _ => slot_le hepochs hshows horder hpast p
    _ = 10 * ∑ i : Fin es.length, recentBytes now es[i.val].samples := by
      rw [← Finset.mul_sum, Finset.sum_fiberwise]
    _ = 10 * recentBytes now xs := by
      rw [Fin.sum_univ_fun_getElem es fun e => recentBytes now e.samples, sum_recentBytes,
        hepochs.samples_eq]

/-- Slots are added up as far as words go. -/
theorem foldl_addSat_clamp (now : UInt64) (slots : List Epoch) (n : Nat) :
    slots.foldl (fun total slot => Word.addSat total (contribution now slot)) (Word.clamp n)
      = Word.clamp (n + (slots.map fun slot => (contribution now slot).toNat).sum) := by
  induction slots generalizing n with
  | nil => rfl
  | cons slot slots ih =>
    rw [List.foldl_cons, Word.addSat_clamp, ih, List.map_cons, List.sum_cons, Nat.add_assoc]

/-- **The average is a tenth of what the slots add**, or of the largest word. -/
theorem toNat_average (ring : RateRing) (now : UInt64) : (ring.average now).toNat =
    min (∑ p : Fin 10, (contribution now ring.slots[p]).toNat) (UInt64.size - 1) / 10 := by
  have hlist : ring.slots.toList = List.ofFn fun p : Fin 10 => ring.slots[p] := by
    rw [← Vector.toList_ofFn]
    exact congrArg Vector.toList Vector.ofFn_getElem.symm
  have hfold := foldl_addSat_clamp now ring.slots.toList 0
  rw [Nat.zero_add, hlist, List.map_ofFn, List.sum_ofFn, ← hlist, Vector.foldl_toList] at hfold
  rw [average, UInt64.toNat_div, show (0 : UInt64) = Word.clamp 0 from rfl, hfold, Word.toNat_clamp]
  rfl

/-- The mean of ten slots that add the same is what they add, as long as the sum is a word. -/
theorem toNat_average_of_contribution {ring : RateRing} {rate : Nat}
    (h : ∀ p : Fin 10, contribution now ring.slots[p] = Word.clamp rate)
    (hsum : 10 * rate < UInt64.size) : (ring.average now).toNat = rate := by
  have hrate : (Word.clamp rate).toNat = rate := by
    rw [Word.toNat_clamp]
    omega
  rw [toNat_average, Finset.sum_congr rfl fun p _ => congrArg UInt64.toNat (h p), Finset.sum_const,
    Finset.card_univ, Fintype.card_fin, smul_eq_mul, hrate]
  omega

/-- The estimate is no more than the recent bytes. -/
theorem toNat_average_le (horder : xs.Pairwise fun x y => x.time ≤ y.time)
    (hpast : ∀ x ∈ xs, x.time ≤ now) : ((after xs).average now).toNat ≤ recentBytes now xs := by
  obtain ⟨es, hepochs, hshows⟩ := exists_shows xs
  have hslots := sum_slots_le hepochs hshows horder hpast
  have haverage := toNat_average (after xs) now
  omega

/-- **The estimate is backed by recent bytes.**  At any time that is not before the samples of a history in
order, the estimate is no more than the bytes of the last 1.2 seconds.  So after 1.2 seconds without a sample
it is zero; and unless these bytes are more than the whole megabytes of the ceiling, a run of the allocator
lowers no cap. -/
theorem estimate_is_backed (xs : List Sample) (now : UInt64)
    (horder : xs.Pairwise fun x y => x.time ≤ y.time) (hpast : ∀ x ∈ xs, x.time ≤ now) :
    ((after xs).average now).toNat ≤ recentBytes now xs ∧
      ((∀ x ∈ xs, x.time.toNat + 1200000000 ≤ now.toNat) → (after xs).average now = 0) ∧
      ∀ (plan : RatePlan) (caps : TierCaps),
        recentBytes now xs ≤ plan.ceiling.toNat / 1000000 * 1000000 →
          ∀ t, ((caps.clampedAt plan now).get t).rate
            ≤ ((caps.adjust plan (after xs) now).limiters.get t).rate := by
  have hbound := toNat_average_le horder hpast
  refine ⟨hbound, fun hsilent => ?_, fun plan caps hbytes t => ?_⟩
  · rw [recentBytes_eq_zero hsilent] at hbound
    exact UInt64.toNat_inj.mp (Nat.le_zero.mp hbound)
  · exact TierCaps.rate_le_rate_adjust plan caps _ now (by omega) t

/-! ## A case -/

/-- Two samples, of which the second one closes the epoch of the first. -/
def twoSamples : List Sample := [⟨1000000, 0⟩, ⟨9999, 200000000⟩]

/-- All tiers may have two megabytes per second. -/
def twoMegabytes : RatePlan := ⟨true, 2000000, 2000000, .const ⟨0, 2000000⟩⟩

theorem estimate_is_backed_two :
    ((after twoSamples).average 1100000000).toNat ≤ 1009999 ∧
      (after twoSamples).average 1400000000 = 0 ∧
      ((TierCaps.blank.clampedAt twoMegabytes 1100000000).get .l0).rate
        ≤ ((TierCaps.blank.adjust twoMegabytes (after twoSamples) 1100000000).limiters.get .l0).rate := by
  obtain ⟨hbound, -, hcaps⟩ := estimate_is_backed twoSamples 1100000000 (by decide) (by decide)
  obtain ⟨-, hsilence, -⟩ := estimate_is_backed twoSamples 1400000000 (by decide) (by decide)
  exact ⟨hbound, hsilence (by decide), hcaps twoMegabytes _ (by decide) .l0⟩

end RateRing

end Shaping
