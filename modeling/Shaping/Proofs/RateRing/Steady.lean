import Shaping.Proofs.RateRing.Estimate
import Mathlib.Algebra.Order.Floor.Div

/-!
# Steady traffic is measured exactly

Traffic is `Steady` if its samples have the same size and come at the same distance from each other.  Such
traffic has epochs of the same number of samples, all that come within a tenth of a second, and the next one
begins another epoch (`Steady.epochs_history`).  So an epoch has as many samples as it takes gaps, and its
rate is the bytes of one sample over one gap, whatever their number (`Steady.rate_spell`).

An epoch is longer than a tenth of a second by less than a gap.  Ten epochs and the open one are thus
shorter than 1.2 seconds unless the gap is longer than nine milliseconds, and until then no published epoch
is too old to count.  Once there are ten of them, the mean of the slots is the rate
(`measures_steady_traffic`).

Where the epochs of steady traffic begin is guessed (`Steady.epochs`) and shown to be right by `Epochs.push`
and `Epochs.concat`.  Since a history has one sequence of epochs only, it is this one that the ring shows,
and nothing about the ring has to be shown by induction once more.
-/

set_option autoImplicit false

namespace Shaping

/-- Samples of the same size, at the same distance in nanoseconds from each other. -/
structure Steady where
  bytes : UInt64
  start : UInt64
  gap : Nat

namespace Steady

variable (s : Steady)

/-- The sample that comes after so many others. -/
def sample (k : Nat) : Sample := ⟨s.bytes, .ofNat (s.start.toNat + k * s.gap)⟩

/-- The first samples. -/
def history (n : Nat) : List Sample := (List.range n).map s.sample

/-- The bytes per second. -/
def rate : Nat := s.bytes.toNat * 1000000000 / s.gap

/-- How many samples an epoch has: those of a tenth of a second, the last of which may end later. -/
def perEpoch : Nat := 100000000 ⌈/⌉ s.gap

/-- The time of a sample can be counted. -/
def Timely (k : Nat) : Prop := s.start.toNat + k * s.gap < UInt64.size

/-- The samples from one on, as an epoch. -/
def spell (first more : Nat) : Spell :=
  ⟨s.sample first, (List.range more).map fun j => s.sample (first + 1 + j)⟩

/-- The epochs up to a sample. -/
def epochs (k : Nat) : List Spell :=
  (List.range (k / s.perEpoch)).map (fun i => s.spell (i * s.perEpoch) (s.perEpoch - 1)) ++
    [s.spell (k / s.perEpoch * s.perEpoch) (k % s.perEpoch)]

variable {s} {k : Nat}

theorem Timely.of_le {j : Nat} (h : s.Timely k) (hle : j ≤ k) : s.Timely j :=
  Nat.lt_of_le_of_lt (Nat.add_le_add_left (Nat.mul_le_mul_right _ hle) _) h

theorem toNat_time (h : s.Timely k) : (s.sample k).time.toNat = s.start.toNat + k * s.gap :=
  UInt64.toNat_ofNat_of_lt' h

theorem history_succ (n : Nat) : s.history (n + 1) = s.history n ++ [s.sample n] := by
  rw [history, List.range_succ, List.map_append]
  rfl

/-! ## The epochs

Sample `k` is the `k % n`-th of epoch `k / n`, with `n` samples to an epoch.  The induction on `k` follows
what the remainder does: it grows by one and the open epoch gets a sample, or it becomes zero and another
epoch begins. -/

theorem le_mul_gap_iff (hgap : 0 < s.gap) (n : Nat) : 100000000 ≤ n * s.gap ↔ s.perEpoch ≤ n := by
  rw [perEpoch, ceilDiv_le_iff_le_mul hgap, Nat.mul_comm]

theorem perEpoch_pos (hgap : 0 < s.gap) : 0 < s.perEpoch := by
  by_contra hzero
  have hle := (le_mul_gap_iff hgap 0).mpr (Nat.le_of_not_lt hzero)
  omega

/-- An epoch is longer than a tenth of a second by less than a gap. -/
theorem perEpoch_mul_gap_lt (hgap : 0 < s.gap) : s.perEpoch * s.gap < 100000000 + s.gap := by
  have hpos := perEpoch_pos hgap
  have hbefore := mt (le_mul_gap_iff hgap (s.perEpoch - 1)).mp (by omega)
  have hsucc := Nat.succ_mul (s.perEpoch - 1) s.gap
  rw [Nat.succ_eq_add_one, Nat.sub_add_cancel hpos] at hsucc
  omega

theorem spell_push (first more : Nat) :
    (s.spell first more).push (s.sample (first + 1 + more)) = s.spell first (more + 1) := by
  rw [spell, Spell.push, spell, List.range_succ, List.map_append]
  rfl

theorem bytes_spell (first more : Nat) : (s.spell first more).bytes = (more + 1) * s.bytes.toNat := by
  rw [Spell.bytes, Spell.samples, spell, List.map_cons, List.sum_cons, List.map_map,
    show ((fun x : Sample => x.bytes.toNat) ∘ fun j => s.sample (first + 1 + j))
      = fun _ => s.bytes.toNat from rfl, List.map_const', List.sum_replicate, List.length_range,
    smul_eq_mul, Nat.succ_mul, Nat.add_comm]
  rfl

/-- An epoch ends with the sample that comes as many samples after its first one as an epoch has. -/
theorem ends_iff (hgap : 0 < s.gap) (htimely : s.Timely k) {first : Nat} (hle : first ≤ k) (more : Nat) :
    (s.spell first more).Ends (s.sample k).time ↔ s.perEpoch ≤ k - first := by
  rw [Spell.Ends, Spell.start, spell, toNat_time htimely, toNat_time (htimely.of_le hle),
    Nat.add_sub_add_left, ← Nat.sub_mul, le_mul_gap_iff hgap]

/-- **Steady traffic has steady epochs.** -/
theorem epochs_history (hgap : 0 < s.gap) (htimely : s.Timely k) :
    Epochs (s.history (k + 1)) (s.epochs k) := by
  have hpos := perEpoch_pos hgap
  induction k with
  | zero =>
    rw [history_succ, epochs, Nat.zero_div, Nat.zero_mod, Nat.zero_mul]
    exact Epochs.nil.concat (by simp)
  | succ k ih =>
    have hepochs := ih (htimely.of_le (Nat.le_succ k))
    have hdivide := Nat.div_add_mod' k s.perEpoch
    have hrest := Nat.mod_lt k hpos
    have hends := ends_iff hgap htimely
      (Nat.le_trans (Nat.div_mul_le_self k s.perEpoch) (Nat.le_succ k)) (k % s.perEpoch)
    rw [history_succ]
    rcases Nat.lt_or_ge (k % s.perEpoch + 1) s.perEpoch with hwithin | hfull
    · -- the epoch goes on
      obtain ⟨hdiv, hmod⟩ := (Nat.div_mod_unique (a := k + 1) (c := k % s.perEpoch + 1)
        (d := k / s.perEpoch) hpos).mpr ⟨by rw [Nat.mul_comm]; omega, hwithin⟩
      rw [epochs, hdiv, hmod, ← spell_push, show k / s.perEpoch * s.perEpoch + 1 + k % s.perEpoch = k + 1 by
        omega]
      exact hepochs.push fun h => by have := hends.mp h; omega
    · -- another epoch begins
      obtain ⟨hdiv, hmod⟩ := (Nat.div_mod_unique (a := k + 1) (c := 0)
        (d := k / s.perEpoch + 1) hpos).mpr ⟨by rw [Nat.mul_comm, Nat.succ_mul]; omega, hpos⟩
      have hfirst : (k / s.perEpoch + 1) * s.perEpoch = k + 1 := by rw [Nat.succ_mul]; omega
      have hlast : s.perEpoch - 1 = k % s.perEpoch := by omega
      have hclosed : s.epochs (k + 1) = s.epochs k ++ [⟨s.sample (k + 1), []⟩] := by
        rw [epochs, epochs, hdiv, hmod, hfirst, List.range_succ, List.map_append, List.map_singleton, hlast]
        rfl
      rw [hclosed]
      refine hepochs.concat fun e he => ?_
      rw [epochs, List.getLast?_concat, Option.mem_some_iff] at he
      subst he
      exact hends.mpr (by omega)

theorem length_epochs (s : Steady) (k : Nat) : (s.epochs k).length = k / s.perEpoch + 1 := by
  rw [epochs, List.length_append, List.length_map, List.length_range, List.length_singleton]

/-- Epochs that are over have all their samples. -/
theorem getElem?_epochs {i : Nat} (h : i < k / s.perEpoch) :
    (s.epochs k)[i]? = some (s.spell (i * s.perEpoch) (s.perEpoch - 1)) := by
  rw [epochs, List.getElem?_append_left (by rwa [List.length_map, List.length_range]),
    List.getElem?_map, List.getElem?_range h, Option.map_some]

/-- Epochs begin one after the other. -/
theorem start_of_getElem? {i : Nat} {e : Spell} (h : (s.epochs k)[i]? = some e) :
    e.start = (s.sample (i * s.perEpoch)).time := by
  have hi := (List.getElem?_eq_some_iff.mp h).1
  rw [length_epochs] at hi
  rcases Nat.lt_succ_iff_lt_or_eq.mp hi with hclosed | hopen
  · rw [getElem?_epochs hclosed, Option.some_inj] at h
    rw [← h]
    rfl
  · have hlength : ((List.range (k / s.perEpoch)).map
        fun i => s.spell (i * s.perEpoch) (s.perEpoch - 1)).length = i := by
      rw [List.length_map, List.length_range, hopen]
    rw [epochs, ← hlength, List.getElem?_concat_length, Option.some_inj] at h
    rw [← h, hopen]
    rfl

/-! ## The rate

The number of samples of an epoch cancels.  It would be wrong to say that each epoch has the bytes of a
tenth of a second: it has somewhat more, and took as much longer. -/

/-- The rate of a whole epoch is that of the traffic. -/
theorem rate_spell (hgap : 0 < s.gap) (hle : s.gap ≤ 9000000) {first : Nat}
    (htimely : s.Timely (first + s.perEpoch)) :
    (s.spell first (s.perEpoch - 1)).rate (s.sample (first + s.perEpoch)).time = Word.clamp s.rate := by
  have hpos := perEpoch_pos hgap
  have hshort := perEpoch_mul_gap_lt hgap
  have hlength : (s.sample (first + s.perEpoch)).time.toNat
      - (s.spell first (s.perEpoch - 1)).start.toNat = s.perEpoch * s.gap := by
    rw [Spell.start, spell, toNat_time htimely, toNat_time (htimely.of_le (Nat.le_add_right _ _)),
      Nat.add_sub_add_left, ← Nat.sub_mul, Nat.add_sub_cancel_left]
  rw [Spell.rate, hlength, if_neg (by omega), bytes_spell, Nat.sub_add_cancel hpos, rate, Nat.mul_assoc,
    Nat.mul_div_mul_left _ _ hpos]

end Steady

namespace RateRing

open Steady

variable {s : Steady} {k : Nat} {now : UInt64}

/-- Once there are ten whole epochs, every slot adds the rate. -/
theorem contribution_steady (hgap : 0 < s.gap) (hle : s.gap ≤ 9000000) (htimely : s.Timely k)
    (hten : 10 * s.perEpoch ≤ k) (huntil : now.toNat < s.start.toNat + (k + 1) * s.gap) (p : Fin 10) :
    contribution now (after (s.history (k + 1))).slots[p] = Word.clamp s.rate := by
  obtain ⟨es, hepochs, hshows⟩ := exists_shows (s.history (k + 1))
  obtain rfl := hepochs.unique (epochs_history hgap htimely)
  have hpos := perEpoch_pos hgap
  have hshort := perEpoch_mul_gap_lt hgap
  have hclosed : 10 ≤ k / s.perEpoch := (Nat.le_div_iff_mul_le hpos).mpr hten
  have hp := p.isLt
  obtain ⟨i, e, f, -, hlatest, he, hf, hslot⟩ := hshows.exists_slot p (by rw [length_epochs]; omega)
  have hi := (List.getElem?_eq_some_iff.mp hf).1
  rw [length_epochs, Nat.add_lt_add_iff_right] at hi
  rw [length_epochs] at hlatest
  have hstart := start_of_getElem? he
  rw [getElem?_epochs hi, Option.some_inj] at he
  have hfirst : (i + 1) * s.perEpoch = i * s.perEpoch + s.perEpoch := Nat.succ_mul _ _
  have hended : i * s.perEpoch + s.perEpoch ≤ k :=
    hfirst ▸ Nat.le_trans (Nat.mul_le_mul_right _ hi) (Nat.div_mul_le_self k s.perEpoch)
  rw [hslot, ← he, start_of_getElem? hf, hfirst, rate_spell hgap hle (htimely.of_le hended), he, hstart]
  refine if_pos ⟨fun hzero => ?_, ?_⟩
  · -- generations do not run out before times
    have hsmall : i + 1 < UInt64.size := by
      have hk : k * 1 ≤ k * s.gap := Nat.mul_le_mul_left k hgap
      have hi' : (i + 1) * 1 ≤ (i + 1) * s.perEpoch := Nat.mul_le_mul_left _ hpos
      rw [Steady.Timely] at htimely
      omega
    have hgeneration := UInt64.toNat_ofNat_of_lt' hsmall
    rw [show UInt64.ofNat (i + 1) = 0 from hzero, UInt64.toNat_zero] at hgeneration
    omega
  · -- ten whole epochs and the open one, if it were whole
    have hspan : (k + 1) * s.gap ≤ i * s.perEpoch * s.gap + 11 * (s.perEpoch * s.gap) := by
      have hdivide := Nat.div_add_mod' k s.perEpoch
      have hrest := Nat.mod_lt k hpos
      have hepoch : k / s.perEpoch * s.perEpoch ≤ (i + 10) * s.perEpoch :=
        Nat.mul_le_mul_right _ (by omega)
      rw [Nat.add_mul] at hepoch
      have hsamples : k + 1 ≤ i * s.perEpoch + 11 * s.perEpoch := by omega
      calc (k + 1) * s.gap ≤ (i * s.perEpoch + 11 * s.perEpoch) * s.gap :=
            Nat.mul_le_mul_right _ hsamples
        _ = i * s.perEpoch * s.gap + 11 * (s.perEpoch * s.gap) := by rw [Nat.add_mul, Nat.mul_assoc 11]
    rw [UInt64.lt_iff_toNat_lt, Word.toNat_subSat, toNat_time (htimely.of_le (by omega)),
      show freshness.toNat = 1200000000 from rfl]
    omega

/-- **Steady traffic is measured exactly.**  Bytes that come every nine milliseconds or more often are estimated
at their rate, rounded down, from the sample on that ends the tenth epoch, at all times before the sample after
the last one is due.  The ten slots have to add up to a word. -/
theorem measures_steady_traffic (bytes start now : UInt64) (gap k : Nat) (hgap : 1 ≤ gap)
    (hle : gap ≤ 9000000) (hrate : 10 * (bytes.toNat * 1000000000 / gap) < UInt64.size)
    (htimely : start.toNat + k * gap < UInt64.size) (hten : 10 * (100000000 ⌈/⌉ gap) ≤ k)
    (huntil : now.toNat < start.toNat + (k + 1) * gap) :
    ((after ((List.range (k + 1)).map fun j => ⟨bytes, .ofNat (start.toNat + j * gap)⟩)).average now).toNat
      = bytes.toNat * 1000000000 / gap :=
  toNat_average_of_contribution
    (contribution_steady (s := ⟨bytes, start, gap⟩) hgap hle htimely hten huntil) hrate

/-- A packet of a thousand bytes every nine milliseconds, just before an eleventh epoch is over. -/
theorem measures_steady_traffic_to_the_end :
    ((after ((List.range 132).map fun j => ⟨1000, .ofNat (1000000000 + j * 9000000)⟩)).average
      2187999999).toNat = 111111 :=
  measures_steady_traffic 1000 1000000000 2187999999 9000000 131 (by decide) (by decide) (by decide)
    (by decide) (by decide) (by decide)

end RateRing

end Shaping
