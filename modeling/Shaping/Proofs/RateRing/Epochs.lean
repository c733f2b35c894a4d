import Shaping.RateRing
import Mathlib.Algebra.BigOperators.Group.List.Basic
import Mathlib.Algebra.GroupWithZero.Nat
import Mathlib.Data.List.Chain
import Mathlib.Data.List.Induction

/-!
# What the rate ring remembers

A history of records is cut into epochs in one way only: an epoch goes on until a record comes a tenth of
a second after its start or later, and that record begins the next one (`Epochs`).  The ring that has seen
the history shows the last of these epochs as the open one, the ten before it in its slots, and nothing
else (`Shows`).  So no byte is lost on the way into an epoch and none is counted twice.

`RateRing.record` does one of three things: it opens the first epoch, goes on with the open one, or closes
it and opens another (`record_first`, `record_within`, `record_after`).  Each of them keeps `Shows` for the
epochs of the longer history, and `holds_latest_epochs` puts them together.

Generations are words, and yet none of this is limited to histories of some length: epochs begin a tenth of
a second apart at least, so times run out long before generations do (`Epochs.length_le`).

The epochs are defined by what is true of them, and not by a function that cuts a history, because such a
function would do the same as the ring and could be wrong in the same way.  What a function gives for
nothing has to be shown then: that there are epochs (`exists_shows`) and that there are no others
(`Epochs.unique`).
-/

set_option autoImplicit false

namespace Shaping

/-- Bytes that are transferred at a time. -/
structure Sample where
  bytes : UInt64
  time : UInt64
  deriving DecidableEq

/-- The samples of one epoch, of which there is at least one. -/
@[ext] structure Spell where
  first : Sample
  rest : List Sample
  deriving DecidableEq

namespace Spell

/-- The samples in the order in which they came. -/
def samples (e : Spell) : List Sample := e.first :: e.rest

/-- When the epoch began. -/
def start (e : Spell) : UInt64 := e.first.time

/-- All bytes of the epoch. -/
def bytes (e : Spell) : Nat := (e.samples.map (·.bytes.toNat)).sum

/-- Does a sample of this time end the epoch?  Before the start no time has passed. -/
def Ends (e : Spell) (time : UInt64) : Prop := 100000000 ≤ time.toNat - e.start.toNat

instance (e : Spell) (time : UInt64) : Decidable (e.Ends time) := inferInstanceAs (Decidable (_ ≤ _))

/-- The rate of the epoch when the next one begins at `stop`.  What took too long was an idle gap. -/
def rate (e : Spell) (stop : UInt64) : UInt64 :=
  if 300000000 < stop.toNat - e.start.toNat then 0
  else Word.clamp (e.bytes * 1000000000 / (stop.toNat - e.start.toNat))

/-- The epoch with another sample. -/
def push (e : Spell) (x : Sample) : Spell := ⟨e.first, e.rest ++ [x]⟩

theorem samples_push (e : Spell) (x : Sample) : (e.push x).samples = e.samples ++ [x] := rfl

theorem start_push (e : Spell) (x : Sample) : (e.push x).start = e.start := rfl

theorem bytes_push (e : Spell) (x : Sample) : (e.push x).bytes = e.bytes + x.bytes.toNat := by
  rw [bytes, samples_push, List.map_append, List.sum_append, bytes]
  simp

theorem bytes_mk_nil (x : Sample) : bytes ⟨x, []⟩ = x.bytes.toNat := by
  simp [bytes, samples]

end Spell

/-! ## The epochs of a history

The ring reads a history from the front to the back, and so epochs are put together: the induction is on the
last sample, and `Epochs.push` and `Epochs.concat` are its two steps.  Uniqueness goes the other way around.
Two sequences of epochs have the same first sample, hence the same first epoch, which is everything up to
the first sample that ends it (`Epochs.span_eq`), and so the same history is left for the epochs after it. -/

/-- The epochs of a history, the open one last. -/
structure Epochs (xs : List Sample) (es : List Spell) : Prop where
  /-- Every sample is in one epoch, and in no other. -/
  samples_eq : es.flatMap (·.samples) = xs
  /-- No sample of an epoch ends it. -/
  within : ∀ e ∈ es, ∀ x ∈ e.rest, ¬ e.Ends x.time
  /-- Every epoch but the last was ended by the beginning of the next. -/
  ended : es.IsChain fun e f => e.Ends f.start

namespace Epochs

variable {xs : List Sample} {es closed : List Spell} {e : Spell} {x : Sample}

theorem nil : Epochs [] [] := ⟨rfl, by simp, .nil⟩

/-- A sample that ends nothing belongs to the open epoch. -/
theorem push (h : Epochs xs (closed ++ [e])) (hx : ¬ e.Ends x.time) :
    Epochs (xs ++ [x]) (closed ++ [e.push x]) := by
  refine ⟨?_, ?_, ?_⟩
  · rw [← h.samples_eq]
    simp [Spell.samples_push]
  · intro f hf y hy
    rcases List.mem_append.mp hf with hf | hf
    · exact h.within f (List.mem_append_left _ hf) y hy
    · rw [List.mem_singleton] at hf
      subst hf
      rcases List.mem_append.mp hy with hy | hy
      · exact h.within e (by simp) y hy
      · rw [List.mem_singleton.mp hy]
        exact hx
  · have hended := h.ended
    rw [List.isChain_append] at hended ⊢
    refine ⟨hended.1, .singleton _, fun f hf g hg => ?_⟩
    cases hg
    exact hended.2.2 f hf e rfl

/-- A sample that ends the open epoch, or meets none, begins another. -/
theorem concat (h : Epochs xs es) (hx : ∀ e ∈ es.getLast?, e.Ends x.time) :
    Epochs (xs ++ [x]) (es ++ [⟨x, []⟩]) := by
  refine ⟨?_, ?_, ?_⟩
  · rw [← h.samples_eq]
    simp [Spell.samples]
  · intro f hf y hy
    rcases List.mem_append.mp hf with hf | hf
    · exact h.within f hf y hy
    · rw [List.mem_singleton.mp hf] at hy
      cases hy
  · refine List.isChain_append.mpr ⟨h.ended, .singleton _, fun f hf g hg => ?_⟩
    cases hg
    exact hx f hf

/-- What comes after an epoch is nothing, or begins with what ended it. -/
theorem ends_of_head? (h : (e :: es).IsChain fun e f => e.Ends f.start) {y : Sample}
    (hy : y ∈ (es.flatMap (·.samples)).head?) : e.Ends y.time := by
  cases es with
  | nil => cases hy
  | cons f es =>
    cases hy
    exact (List.isChain_cons_cons.mp h).1

/-- The first epoch is all that comes before what ends it. -/
theorem span_eq (h : Epochs xs (e :: es)) :
    xs.tail.takeWhile (fun y => ¬ e.Ends y.time) = e.rest ∧
      xs.tail.dropWhile (fun y => ¬ e.Ends y.time) = es.flatMap (·.samples) := by
  have htail : xs.tail = e.rest ++ es.flatMap (·.samples) := by
    rw [← h.samples_eq]
    rfl
  have hrest : ∀ y ∈ e.rest, decide (¬ e.Ends y.time) = true := fun y hy =>
    decide_eq_true (h.within e (by simp) y hy)
  have hhead := fun y => ends_of_head? h.ended (y := y)
  rw [htail, List.takeWhile_append_of_pos hrest, List.dropWhile_append_of_pos hrest]
  generalize es.flatMap (·.samples) = later at hhead
  cases later with
  | nil => exact ⟨List.append_nil _, rfl⟩
  | cons y later =>
    have hy : e.Ends y.time := hhead y rfl
    simp [hy]

/-- **A history has one sequence of epochs only.** -/
theorem unique {es' : List Spell} (h : Epochs xs es) (h' : Epochs xs es') : es = es' := by
  induction es generalizing xs es' with
  | nil =>
    cases es' with
    | nil => rfl
    | cons e' es' =>
      have hsamples := h'.samples_eq.trans h.samples_eq.symm
      cases hsamples
  | cons e es ih =>
    cases es' with
    | nil =>
      have hsamples := h.samples_eq.trans h'.samples_eq.symm
      cases hsamples
    | cons e' es' =>
      have hsamples := h.samples_eq.trans h'.samples_eq.symm
      have hfirst : e.first = e'.first := (List.cons.inj hsamples).1
      have hends : ∀ t, e.Ends t ↔ e'.Ends t := fun t => by
        rw [Spell.Ends, Spell.Ends, Spell.start, Spell.start, hfirst]
      obtain ⟨hrest, hlater⟩ := h.span_eq
      obtain ⟨hrest', hlater'⟩ := h'.span_eq
      simp only [hends] at hrest hlater
      have he : e = e' := Spell.ext hfirst (hrest.symm.trans hrest')
      have hes : Epochs (es.flatMap (·.samples)) es :=
        ⟨rfl, fun f hf => h.within f (List.mem_cons_of_mem _ hf), h.ended.tail⟩
      have hes' : Epochs (es.flatMap (·.samples)) es' :=
        ⟨hlater'.symm.trans hlater, fun f hf => h'.within f (List.mem_cons_of_mem _ hf), h'.ended.tail⟩
      rw [he, ih hes hes']

/-- Every closed epoch took a tenth of a second at least. -/
theorem length_mul_le (h : (closed ++ [e]).IsChain fun e f => e.Ends f.start) :
    closed.length * 100000000 ≤ e.start.toNat := by
  induction closed using List.reverseRecOn generalizing e with
  | nil => simp
  | append_singleton closed f ih =>
    obtain ⟨hclosed, -, hlast⟩ := List.isChain_append.mp h
    have hends : f.Ends e.start := hlast f List.getLast?_concat e rfl
    rw [Spell.Ends] at hends
    have hstart : f.start.toNat + 100000000 ≤ e.start.toNat := by omega
    rw [List.length_append, List.length_singleton, Nat.succ_mul]
    exact Nat.le_trans (Nat.add_le_add_right (ih hclosed) _) hstart

/-- There is always another generation. -/
theorem length_le (h : Epochs xs (closed ++ [e])) : closed.length + 2 < UInt64.size := by
  have hle := length_mul_le h.ended
  have hstart := e.start.toNat_lt_size
  have hsize : UInt64.size = 18446744073709551616 := rfl
  omega

end Epochs

/-! ## One record

Which branch a record takes is decided by words, which are read here as numbers once and for all.  The
saturating difference is the truncated one, so a record of the past counts as made at the start of the open
epoch. -/

namespace RateRing

theorem toNat_second : second.toNat = 1000000000 := rfl

theorem toNat_epochLength : epochLength.toNat = 100000000 := rfl

theorem toNat_staleLength : staleLength.toNat = 300000000 := rfl

variable {ring : RateRing} {bytes now : UInt64}

/-- The first record opens the first epoch. -/
theorem record_first (h : ring.current.generation = 0) :
    ring.record bytes now = ⟨⟨1, now, bytes⟩, ring.slots⟩ := by
  obtain ⟨⟨generation, start, amount⟩, slots⟩ := ring
  rw [record, if_pos h]

/-- A record that comes soon goes into the open epoch. -/
theorem record_within (h : ring.current.generation ≠ 0)
    (hin : now.toNat - ring.current.start.toNat < 100000000) :
    ring.record bytes now =
      ⟨⟨ring.current.generation, ring.current.start, Word.addSat ring.current.amount bytes⟩,
        ring.slots⟩ := by
  obtain ⟨⟨generation, start, amount⟩, slots⟩ := ring
  have hlt : Word.subSat now start < epochLength := by
    rw [UInt64.lt_iff_toNat_lt, Word.toNat_subSat, toNat_epochLength]
    exact hin
  rw [record, if_neg h]
  dsimp only
  rw [if_pos hlt]

/-- A record that comes late closes the open epoch and opens the next. -/
theorem record_after (h : ring.current.generation ≠ 0)
    (hout : 100000000 ≤ now.toNat - ring.current.start.toNat) :
    ring.record bytes now =
      ⟨⟨nextGeneration ring.current.generation, now, bytes⟩,
        ring.slots.set (position ring.current.generation)
          ⟨ring.current.generation, ring.current.start,
            epochRate ring.current.amount (Word.subSat now ring.current.start)⟩⟩ := by
  obtain ⟨⟨generation, start, amount⟩, slots⟩ := ring
  have hge : ¬ Word.subSat now start < epochLength := by
    rw [UInt64.lt_iff_toNat_lt, Word.toNat_subSat, toNat_epochLength]
    exact Nat.not_lt.mpr hout
  rw [record, if_neg h]
  dsimp only
  rw [if_neg hge]

/-- The ring after a history. -/
def after (xs : List Sample) : RateRing :=
  xs.foldl (fun ring x => ring.record x.bytes x.time) blank

theorem after_concat (xs : List Sample) (x : Sample) :
    after (xs ++ [x]) = (after xs).record x.bytes x.time := by
  rw [after, List.foldl_append]
  rfl

/-! ## The epochs that the ring shows

Whether a slot shows the right epoch depends on how many epochs there are, so the invariant speaks of places
in the sequence of epochs: epoch `i` is at place `i % 10`, as long as there are at most ten epochs after it
and it is not the open one.  Closing an epoch writes the place of the epoch that is the first to be too old,
and of no other that must be kept; that is all that has to be seen about remainders.

Two words saturate on the way, the bytes of an epoch and its rate.  The rate is the same as if the bytes had
not been cut off, since an epoch that is not stale is shorter than a second (`epochRate_clamp`).  Thus
`Spell.rate` can speak of all bytes. -/

/-- A ring shows the last of these epochs as the open one, and the ten before it in its slots. -/
structure Shows (ring : RateRing) (es : List Spell) : Prop where
  /-- The open epoch has the number after those that are closed. -/
  generation : ring.current.generation.toNat = es.length
  /-- It is shown with its start and all its bytes. -/
  current : ∀ e ∈ es.getLast?,
    ring.current.start = e.start ∧ ring.current.amount = Word.clamp e.bytes
  /-- The ten epochs closed last are published, the `i + 1`-st at place `i % 10`. -/
  latest : ∀ i e f, es[i]? = some e → es[i + 1]? = some f → es.length ≤ i + 11 →
    ring.slots[i % 10]? = some ⟨UInt64.ofNat (i + 1), e.start, e.rate f.start⟩
  /-- The other places were never written. -/
  untouched : ∀ p, es.length ≤ p + 1 → p < 10 → ring.slots[p]? = some .blank

/-- The rate of an epoch is that of all its bytes, even if they did not fit into a word. -/
theorem epochRate_clamp {e : Spell} {stop : UInt64} (h : e.Ends stop) :
    epochRate (Word.clamp e.bytes) (Word.subSat stop e.start) = e.rate stop := by
  rw [Spell.Ends] at h
  have hlt : staleLength < Word.subSat stop e.start ↔ 300000000 < stop.toNat - e.start.toNat := by
    rw [UInt64.lt_iff_toNat_lt, Word.toNat_subSat, toNat_staleLength]
  rw [epochRate, Spell.rate, Word.toNat_clamp, Word.toNat_subSat, toNat_second]
  generalize stop.toNat - e.start.toNat = length at h hlt
  by_cases hstale : 300000000 < length
  · rw [if_pos (hlt.mpr hstale), if_pos hstale]
  · rw [if_neg (mt hlt.mp hstale), if_neg hstale]
    -- an epoch is shorter than a second, so bytes that do not fit make a rate that does not fit
    have hsize : UInt64.size = 18446744073709551616 := rfl
    rcases Nat.lt_or_ge e.bytes UInt64.size with hfits | hlarge
    · rw [Nat.min_eq_left (by omega)]
    · rw [Nat.min_eq_right (by omega), ← UInt64.toNat_inj, Word.toNat_clamp, Word.toNat_clamp]
      have hcap : UInt64.size - 1 ≤ (UInt64.size - 1) * 1000000000 / length := by
        rw [Nat.le_div_iff_mul_le (by omega)]
        exact Nat.mul_le_mul_left _ (by omega)
      have hmono : (UInt64.size - 1) * 1000000000 / length ≤ e.bytes * 1000000000 / length :=
        Nat.div_le_div_right (Nat.mul_le_mul_right _ (by omega))
      omega

theorem toNat_position (generation : UInt64) :
    (position generation).val = (generation - 1).toNat % 10 := rfl

/-- Two epochs in a row were so before another one was added, or the second of them is that one. -/
theorem pair_concat {es : List Spell} {g e f : Spell} {i : Nat} (he : (es ++ [g])[i]? = some e)
    (hf : (es ++ [g])[i + 1]? = some f) :
    (es[i]? = some e ∧ es[i + 1]? = some f) ∨ (i + 1 = es.length ∧ es[i]? = some e ∧ f = g) := by
  have hi : i + 1 < (es ++ [g]).length := (List.getElem?_eq_some_iff.mp hf).1
  rw [List.length_append, List.length_singleton] at hi
  rw [List.getElem?_append_left (by omega)] at he
  rcases Nat.lt_or_ge (i + 1) es.length with hin | hlast
  · rw [List.getElem?_append_left hin] at hf
    exact Or.inl ⟨he, hf⟩
  · have hlength : i + 1 = es.length := by omega
    rw [hlength, List.getElem?_concat_length, Option.some_inj] at hf
    exact Or.inr ⟨hlength, he, hf.symm⟩

theorem shows_blank : blank.Shows [] := by
  refine ⟨rfl, by simp, by simp, fun p _ hp => ?_⟩
  rw [blank, Vector.getElem?_replicate, if_pos hp]

namespace Shows

variable {closed : List Spell} {e : Spell} {x : Sample}

theorem generation_ne_zero (h : ring.Shows (closed ++ [e])) : ring.current.generation ≠ 0 := by
  intro hzero
  have hgeneration := h.generation
  rw [hzero, List.length_append] at hgeneration
  simp at hgeneration

/-- The first epoch is opened. -/
theorem first (h : ring.Shows []) (x : Sample) : (ring.record x.bytes x.time).Shows [⟨x, []⟩] := by
  rw [record_first (UInt64.toNat_inj.mp h.generation)]
  refine ⟨rfl, fun f hf => ?_, fun i f g _ hg => ?_, fun p _ hp => h.untouched p (Nat.zero_le _) hp⟩
  · rw [List.getLast?_singleton, Option.mem_some_iff] at hf
    subst hf
    exact ⟨rfl, by rw [Spell.bytes_mk_nil, Word.clamp_toNat]⟩
  · simp at hg

/-- The open epoch gets another sample. -/
theorem within (h : ring.Shows (closed ++ [e])) (hx : ¬ e.Ends x.time) :
    (ring.record x.bytes x.time).Shows (closed ++ [e.push x]) := by
  obtain ⟨hstart, hamount⟩ := h.current e List.getLast?_concat
  rw [Spell.Ends, ← hstart, Nat.not_le] at hx
  rw [record_within h.generation_ne_zero hx]
  have hlength : (closed ++ [e.push x]).length = (closed ++ [e]).length := by simp
  refine ⟨hlength ▸ h.generation, fun f hf => ?_, fun i f g hf hg hlast => ?_,
    fun p hp => h.untouched p (hlength ▸ hp)⟩
  · rw [List.getLast?_concat, Option.mem_some_iff] at hf
    subst hf
    exact ⟨hstart, by rw [hamount, Word.addSat_clamp, Spell.bytes_push]⟩
  · rw [hlength] at hlast
    have hbound : i < closed.length := by
      have hi := (List.getElem?_eq_some_iff.mp hg).1
      simpa using hi
    rcases pair_concat hf hg with ⟨hf, hg⟩ | ⟨hi, hf, rfl⟩
    · refine h.latest i f g ?_ ?_ hlast
      · rw [List.getElem?_append_left hbound, hf]
      · rw [List.getElem?_append_left (List.getElem?_eq_some_iff.mp hg).1, hg]
    · -- the epoch that was closed last still ends where the open one began
      rw [Spell.start_push]
      refine h.latest i f e ?_ ?_ hlast
      · rw [List.getElem?_append_left hbound, hf]
      · rw [hi, List.getElem?_concat_length]

/-- The open epoch is closed, and takes the place of the one ten before it. -/
theorem close (h : ring.Shows (closed ++ [e])) (hx : e.Ends x.time)
    (hroom : closed.length + 2 < UInt64.size) :
    (ring.record x.bytes x.time).Shows (closed ++ [e] ++ [⟨x, []⟩]) := by
  obtain ⟨hstart, hamount⟩ := h.current e List.getLast?_concat
  have hout := hx
  rw [Spell.Ends, ← hstart] at hout
  have hgeneration := h.generation
  rw [List.length_append, List.length_singleton] at hgeneration
  have hsize : UInt64.size = 18446744073709551616 := rfl
  have hone : ring.current.generation = UInt64.ofNat (closed.length + 1) := by
    rw [← UInt64.toNat_inj, UInt64.toNat_ofNat_of_lt' (by omega), hgeneration]
  have hplace : (position ring.current.generation).val = closed.length % 10 := by
    rw [toNat_position, UInt64.toNat_sub_of_le _ _ (by rw [UInt64.le_iff_toNat_le]; simp; omega),
      hgeneration]
    simp
  rw [record_after h.generation_ne_zero hout, hstart, hamount, epochRate_clamp hx]
  refine ⟨?_, fun f hf => ?_, fun i f g hf hg hlast => ?_, fun p hp hp10 => ?_⟩
  · rw [nextGeneration, Word.toNat_max, UInt64.toNat_add, hgeneration]
    simp
    omega
  · rw [List.getLast?_concat, Option.mem_some_iff] at hf
    subst hf
    exact ⟨rfl, by rw [Spell.bytes_mk_nil, Word.clamp_toNat]⟩
  · rw [Vector.getElem?_set, hplace]
    simp only [List.length_append, List.length_singleton] at hlast
    rcases pair_concat hf hg with ⟨hf, hg⟩ | ⟨hi, hf, rfl⟩
    · have hi := (List.getElem?_eq_some_iff.mp hg).1
      rw [List.length_append, List.length_singleton] at hi
      rw [if_neg (by omega)]
      refine h.latest i f g hf hg ?_
      rw [List.length_append, List.length_singleton]
      omega
    · rw [List.length_append, List.length_singleton, Nat.add_right_cancel_iff] at hi
      subst hi
      rw [List.getElem?_concat_length, Option.some_inj] at hf
      rw [if_pos rfl, ← hf, hone]
      rfl
  · simp only [List.length_append, List.length_singleton] at hp
    rw [Vector.getElem?_set, hplace, if_neg (by omega)]
    refine h.untouched p ?_ hp10
    rw [List.length_append, List.length_singleton]
    omega

end Shows

/-- **The ring shows the epochs of its history.** -/
theorem exists_shows (xs : List Sample) : ∃ es, Epochs xs es ∧ (after xs).Shows es := by
  induction xs using List.reverseRecOn with
  | nil => exact ⟨[], .nil, shows_blank⟩
  | append_singleton xs x ih =>
    obtain ⟨es, hepochs, hshows⟩ := ih
    rw [after_concat]
    rcases List.eq_nil_or_concat es with rfl | ⟨closed, e, rfl⟩
    · exact ⟨[⟨x, []⟩], hepochs.concat (by simp), hshows.first x⟩
    · rw [List.concat_eq_append] at hepochs hshows
      by_cases hx : e.Ends x.time
      · refine ⟨_, hepochs.concat fun f hf => ?_, hshows.close hx hepochs.length_le⟩
        rw [List.getLast?_concat, Option.mem_some_iff] at hf
        exact hf ▸ hx
      · exact ⟨_, hepochs.push hx, hshows.within hx⟩

/-- **The ring holds the latest epochs and loses no byte.**  A history of any length, with times in any
order, is cut into epochs in one way only; and of these the ring shows the open one and the ten before
it. -/
theorem holds_latest_epochs (xs : List Sample) :
    ∃ es, (∀ es', Epochs xs es' ↔ es' = es) ∧ (after xs).Shows es := by
  obtain ⟨es, hepochs, hshows⟩ := exists_shows xs
  refine ⟨es, fun es' => ⟨fun h => h.unique hepochs, fun h => ?_⟩, hshows⟩
  rw [h]
  exact hepochs

/-- What closes an epoch belongs to the next one. -/
example : (after [⟨1000000, 0⟩, ⟨9999, 200000000⟩]).slots[0] = ⟨1, 0, 5000000⟩ := by decide

end RateRing

end Shaping
