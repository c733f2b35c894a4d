import Shaping.Proofs.Limiter.Course

/-!
# What a pacer spaces out

A packet that a pacer lets through leaves at its turn, and that is what the pacer remembers
(`offer_spec`).  So the packets of a course leave in the order in which they came, each of them at least
its transmission time after the one before (`pairwise_apart`), and the transmission times of a sequence
of packets add up to no more than the time in which they leave (`sum_tail_le`).

When exactly a packet leaves is said by `due`, and `served` compares: nothing leaves earlier or later than
that, and nothing is dropped that is due within two seconds.  `contract_holds` puts both together for any
history of a pacer.

All of this is about times that are two seconds or more away from the end of the range of a word.  A turn
that does not fit into a word is then so far off that the packet is dropped.

## How it is put together

`offer_cases` takes the definition apart, once, into the three things that a pacer can do, each with the
conditions under which it does it.  Everything else is read off from these three cases and never from the
definition again.

What is asked for is stated without them.  `due` says when a packet may leave, in natural numbers and with
no branch but the one for a pacer that was never used, and `Served` says what is to hold, with an
equivalence for what is dropped.  That a turn which is past the end of a word cannot be told from the end
itself does not disturb this: a packet with such a turn is dropped, and it is due late enough to be dropped
(`Early` leaves room for that).

Over a course two packets that pass need not follow one another, and the rate may change in between.  So the
induction is on what the pacer remembers, and not on pairs of packets: whatever is sent after some moment
leaves at least its own transmission time after the last departure of that moment (`spaced_of_course`).
Packets that are dropped leave the last departure alone, and packets that pass move it forward.  All pairs
follow (`pairwise_apart`), and sums over neighbours from these (`sum_tail_le`).
-/

set_option autoImplicit false

namespace Shaping

namespace Pacer

/-- A time at which the pacer can still look ahead as far as it has to. -/
def Early (t : UInt64) : Prop := t.toNat + horizon.toNat < never.toNat

instance (t : UInt64) : Decidable (Early t) := inferInstanceAs (Decidable (_ < _))

theorem toNat_horizon : horizon.toNat = 2 * 10 ^ 9 := rfl

theorem toNat_never : never.toNat = 2 ^ 64 - 1 := rfl

theorem Early.lt_never {t : UInt64} (h : Early t) : t.toNat < never.toNat :=
  Nat.lt_of_le_of_lt (Nat.le_add_right _ _) h

theorem Early.ne_never {t : UInt64} (h : Early t) : t ≠ never := by
  rintro rfl
  exact Nat.lt_irrefl _ h.lt_never

/-- A packet of the same size takes longer at a lower rate. -/
theorem transmissionTime_anti (size : UInt64) {r r' : UInt64} (hr : 0 < r.toNat)
    (hle : r.toNat ≤ r'.toNat) :
    (transmissionTime size r').toNat ≤ (transmissionTime size r).toNat := by
  have hquot : size.toNat * second.toNat / r'.toNat ≤ size.toNat * second.toNat / r.toNat :=
    Nat.div_le_div_left hle hr
  rw [transmissionTime, transmissionTime, Word.toNat_clamp, Word.toNat_clamp]
  omega

/-! ## When a packet is due

The pacer computes in words and stops at the largest one; `due` and `requested` do neither. -/

/-- When the packet after the last one may leave. -/
def turn (l : Limiter) (size : UInt64) : UInt64 :=
  Word.addSat l.lastDeparture (transmissionTime size l.rate)

/-- When a packet wants to leave.  What is in the past stands for now. -/
def requested (x : Offer) : Nat := max x.departure.toNat x.now.toNat

/-- When a packet may leave: when it wants to, but not before the packet paced last has been sent. -/
def due (x : Offer) : Nat :=
  if x.limiter.lastDeparture = never then requested x
  else max (requested x)
    (x.limiter.lastDeparture.toNat + (transmissionTime x.size x.limiter.rate).toNat)

/-- What a pacer serves: packets that it paces at all, at times that are far from the end of time. -/
def Asked (x : Offer) : Prop :=
  x.limiter.rate ≠ 0 ∧ Early x.now ∧ x.departure ≠ never

instance (x : Offer) : Decidable (Asked x) := inferInstanceAs (Decidable (_ ∧ _ ∧ _))

theorem now_le_requested (x : Offer) : x.now.toNat ≤ requested x := Nat.le_max_right _ _

theorem toNat_requested (x : Offer) : (max x.departure x.now).toNat = requested x :=
  Word.toNat_max _ _

theorem Asked.requested_lt {x : Offer} (h : Asked x) : requested x < never.toNat := by
  have hnow := h.2.1.lt_never
  have hdep : x.departure.toNat ≠ never.toNat := fun hn => h.2.2 (UInt64.toNat_inj.mp hn)
  have htop := x.departure.toNat_lt
  rw [requested]
  rw [toNat_never] at hnow hdep ⊢
  omega

theorem toNat_turn (l : Limiter) (size : UInt64) : (turn l size).toNat
    = min (l.lastDeparture.toNat + (transmissionTime size l.rate).toNat) never.toNat :=
  Word.toNat_addSat _ _

/-- A packet that has to wait for its turn. -/
theorem requested_lt_turn {x : Offer} (hlate : max x.departure x.now < turn x.limiter x.size) :
    requested x < (turn x.limiter x.size).toNat ∧ x.now ≤ turn x.limiter x.size := by
  have hnow := now_le_requested x
  rw [UInt64.lt_iff_toNat_lt, toNat_requested] at hlate
  exact ⟨hlate, UInt64.le_iff_toNat_le.mpr (by omega)⟩

theorem due_of_used {x : Offer} (h : x.limiter.lastDeparture ≠ never) : due x
    = max (requested x)
        (x.limiter.lastDeparture.toNat + (transmissionTime x.size x.limiter.rate).toNat) :=
  if_neg h

/-! ## One packet

`Passed` is what later packets need to know of one that was let go: when it left, that the pacer remembers
it, and how far it is from the packet before. -/

/-- The three things that a pacer can do: let a packet go when it wants to, let it go at its turn, or
drop it. -/
theorem offer_cases {l : Limiter} (hrate : l.rate ≠ 0) (size departure now : UInt64) :
    (offer l size departure now
        = ⟨.pass, departure, { l with lastDeparture := max departure now }⟩ ∧
      (l.lastDeparture ≠ never → turn l size ≤ max departure now)) ∨
    (offer l size departure now = ⟨.pass, turn l size, { l with lastDeparture := turn l size }⟩ ∧
      l.lastDeparture ≠ never ∧ max departure now < turn l size ∧ turn l size - now < horizon) ∨
    (offer l size departure now = ⟨.drop, departure, l⟩ ∧
      l.lastDeparture ≠ never ∧ max departure now < turn l size ∧ horizon ≤ turn l size - now) := by
  by_cases hidle : l.lastDeparture = never
  · left
    exact ⟨by rw [offer, if_neg hrate, if_pos hidle], fun h => absurd hidle h⟩
  · by_cases hcome : turn l size ≤ max departure now
    · left
      refine ⟨?_, fun _ => hcome⟩
      rw [turn] at hcome
      simp only [offer, if_neg hrate, if_neg hidle, if_pos hcome]
    · right
      have hlate : max departure now < turn l size := UInt64.not_le.mp hcome
      rw [turn] at hcome
      by_cases hfar : horizon ≤ turn l size - now
      · right
        refine ⟨?_, hidle, hlate, hfar⟩
        rw [turn] at hfar
        simp only [offer, if_neg hrate, if_neg hidle, if_neg hcome, if_pos hfar]
      · left
        refine ⟨?_, hidle, hlate, UInt64.not_le.mp hfar⟩
        rw [turn] at hfar ⊢
        simp only [offer, if_neg hrate, if_neg hidle, if_neg hcome, if_neg hfar]

/-- A packet has passed, and the pacer remembers when it leaves. -/
structure Passed (x : Offer) : Prop where
  passes : x.passes .pacer = true
  remembers : (x.answer .pacer).limiter = { x.limiter with lastDeparture := x.leaves .pacer }
  /-- It leaves at a time that is one. -/
  leaves_lt : (x.leaves .pacer).toNat < never.toNat
  /-- Its departure has not moved backwards. -/
  forward : x.departure ≤ (x.answer .pacer).departure
  /-- The packet before it has been sent by then. -/
  spaced : x.limiter.lastDeparture ≠ never →
    x.limiter.lastDeparture.toNat + (transmissionTime x.size x.limiter.rate).toNat
      ≤ (x.leaves .pacer).toNat
  /-- It leaves when it wanted to, or else soon. -/
  near : (x.answer .pacer).departure = x.departure ∨
    (x.answer .pacer).departure.toNat < x.now.toNat + horizon.toNat

/-- A packet has been sent, so the pacer is in use. -/
theorem Passed.used {x : Offer} (h : Passed x) :
    (x.answer .pacer).limiter.lastDeparture ≠ never := by
  rw [h.remembers]
  exact fun hnever => Nat.ne_of_lt h.leaves_lt (congrArg UInt64.toNat hnever)

/-- **A pacer drops a packet and stays as it is, or lets it go and remembers when it leaves.** -/
theorem offer_spec {x : Offer} (hrate : x.limiter.rate ≠ 0) (hnow : Early x.now)
    (hdep : x.departure ≠ never) :
    (x.passes .pacer = false ∧ (x.answer .pacer).limiter = x.limiter) ∨ Passed x := by
  have hreq := Asked.requested_lt ⟨hrate, hnow, hdep⟩
  have hturn := toNat_turn x.limiter x.size
  have hsoon : x.now.toNat + horizon.toNat < never.toNat := hnow
  have hdeparture : x.departure.toNat ≤ requested x := Nat.le_max_left _ _
  rcases offer_cases hrate x.size x.departure x.now with ⟨hans, hcome⟩ | ⟨hans, -, hlate, hnear⟩ |
    ⟨hans, -⟩
  · right
    refine ⟨?_, ?_, ?_, ?_, ?_, ?_⟩ <;>
      simp only [Offer.passes, Offer.leaves, Offer.answer, Discipline.offer, hans, toNat_requested]
    · rfl
    · exact hreq
    · exact UInt64.le_refl _
    · intro hused
      have := UInt64.le_iff_toNat_le.mp (hcome hused)
      rw [toNat_requested] at this
      omega
    · exact Or.inl trivial
  · right
    obtain ⟨hlate, hle⟩ := requested_lt_turn hlate
    have hmax : max (turn x.limiter x.size) x.now = turn x.limiter x.size := by
      rw [UInt64.le_iff_toNat_le] at hle
      rw [← UInt64.toNat_inj, Word.toNat_max, Nat.max_eq_left hle]
    rw [UInt64.lt_iff_toNat_lt, UInt64.toNat_sub_of_le _ _ hle] at hnear
    refine ⟨?_, ?_, ?_, ?_, ?_, ?_⟩ <;>
      simp only [Offer.passes, Offer.leaves, Offer.answer, Discipline.offer, hans, hmax]
    · rfl
    · omega
    · rw [UInt64.le_iff_toNat_le]
      omega
    · intro _
      omega
    · right
      omega
  · left
    simp only [Offer.passes, Offer.answer, Discipline.offer, hans]
    exact ⟨rfl, trivial⟩

/-- A packet that passes leaves when it wants to, or less than two seconds after that. -/
theorem leaves_near {x : Offer} (hnow : Early x.now) (hdep : x.departure ≠ never)
    (hpass : x.passes .pacer = true) :
    max x.departure.toNat x.now.toNat ≤ (x.leaves .pacer).toNat ∧
      (x.leaves .pacer).toNat < max x.departure.toNat x.now.toNat + horizon.toNat := by
  have hpos : 0 < horizon.toNat := by decide
  have hleaves : (x.leaves .pacer).toNat = max (x.answer .pacer).departure.toNat x.now.toNat :=
    Word.toNat_max _ _
  by_cases hrate : x.limiter.rate = 0
  · have hans : (x.answer .pacer).departure = x.departure := by
      simp only [Offer.answer, Discipline.offer, offer, if_pos hrate]
    rw [hleaves, hans]
    omega
  · rcases offer_spec hrate hnow hdep with ⟨hdrop, -⟩ | hx
    · rw [hdrop] at hpass
      cases hpass
    · have hforward := UInt64.le_iff_toNat_le.mp hx.forward
      rw [hleaves]
      rcases hx.near with hsame | hsoon
      · rw [hsame]
        omega
      · omega

/-! ## The service of a packet

There is one lemma for each of the three cases, and `served` puts them together. -/

/-- What a pacer owes to a packet. -/
structure Served (x : Offer) : Prop where
  /-- Once there is a last departure, it never moves backwards. -/
  forward : x.limiter.lastDeparture ≠ never → (x.answer .pacer).limiter.lastDeparture ≠ never ∧
    x.limiter.lastDeparture ≤ (x.answer .pacer).limiter.lastDeparture
  /-- What passes leaves when it is due, and that is the last departure from then on. -/
  punctual : x.passes .pacer = true → (x.leaves .pacer).toNat = due x ∧
    (x.answer .pacer).limiter.lastDeparture = x.leaves .pacer
  /-- What would have to wait, and for two seconds or more, is dropped, and nothing else. -/
  patient : x.passes .pacer = false ↔ requested x < due x ∧ x.now.toNat + horizon.toNat ≤ due x
  /-- A packet that is dropped leaves nothing behind. -/
  untouched : x.passes .pacer = false →
    (x.answer .pacer).limiter = x.limiter ∧ (x.answer .pacer).departure = x.departure

/-- A packet that may leave when it wants to. -/
theorem served_at_once {x : Offer} (h : Asked x)
    (hans : x.answer .pacer
      = ⟨.pass, x.departure, { x.limiter with lastDeparture := max x.departure x.now }⟩)
    (hcome : x.limiter.lastDeparture ≠ never →
      turn x.limiter x.size ≤ max x.departure x.now) : Served x := by
  have hlt := h.requested_lt
  have hsent : x.limiter.lastDeparture ≠ never →
      x.limiter.lastDeparture.toNat + (transmissionTime x.size x.limiter.rate).toNat
        ≤ requested x := by
    intro hused
    have hturn := UInt64.le_iff_toNat_le.mp (hcome hused)
    rw [toNat_turn, toNat_requested] at hturn
    omega
  have hdue : due x = requested x := by
    rw [due]
    split
    · rfl
    · rename_i hused
      exact Nat.max_eq_left (hsent hused)
  have hpass : x.passes .pacer = true := by rw [Offer.passes, hans]; rfl
  have hleaves : (x.leaves .pacer).toNat = requested x := by
    rw [Offer.leaves, hans]
    exact toNat_requested x
  refine ⟨fun hused => ?_, fun _ => ⟨hdue ▸ hleaves, ?_⟩, ?_, ?_⟩
  · rw [hans]
    have := hsent hused
    refine ⟨fun hn => ?_, ?_⟩
    · rw [← toNat_requested, show max x.departure x.now = never from hn] at hlt
      exact Nat.lt_irrefl _ hlt
    · rw [UInt64.le_iff_toNat_le, toNat_requested]
      omega
  · rw [Offer.leaves, hans]
  · rw [hpass, hdue]
    simp
  · rw [hpass]
    intro hdrop
    cases hdrop

/-- A packet that has to wait for its turn, and not for long. -/
theorem served_at_turn {x : Offer} (h : Asked x)
    (hans : x.answer .pacer = ⟨.pass, turn x.limiter x.size,
      { x.limiter with lastDeparture := turn x.limiter x.size }⟩)
    (hused : x.limiter.lastDeparture ≠ never)
    (hlate : max x.departure x.now < turn x.limiter x.size)
    (hnear : turn x.limiter x.size - x.now < horizon) : Served x := by
  have hnow := now_le_requested x
  obtain ⟨hlate, hle⟩ := requested_lt_turn hlate
  rw [UInt64.lt_iff_toNat_lt, UInt64.toNat_sub_of_le _ _ hle] at hnear
  have hsoon : x.now.toNat + horizon.toNat < never.toNat := h.2.1
  -- so the turn is a time, and not where the range of a word ends
  have hturn := toNat_turn x.limiter x.size
  have hdue : due x = (turn x.limiter x.size).toNat := by
    rw [due_of_used hused]
    omega
  have hpass : x.passes .pacer = true := by rw [Offer.passes, hans]; rfl
  have hleaves : x.leaves .pacer = turn x.limiter x.size := by
    rw [Offer.leaves, hans, ← UInt64.toNat_inj, Word.toNat_max]
    dsimp only
    omega
  refine ⟨fun _ => ?_, fun _ => ⟨by rw [hleaves, hdue], ?_⟩, ?_, ?_⟩
  · rw [hans]
    refine ⟨fun hn => ?_, ?_⟩
    · rw [show turn x.limiter x.size = never from hn] at hnear
      omega
    · rw [UInt64.le_iff_toNat_le]
      dsimp only
      omega
  · rw [hleaves, hans]
  · rw [hpass, hdue]
    simp only [Bool.true_eq_false, false_iff]
    omega
  · rw [hpass]
    intro hdrop
    cases hdrop

/-- A packet that would have to wait too long. -/
theorem served_by_dropping {x : Offer}
    (hans : x.answer .pacer = ⟨.drop, x.departure, x.limiter⟩)
    (hused : x.limiter.lastDeparture ≠ never)
    (hlate : max x.departure x.now < turn x.limiter x.size)
    (hfar : horizon ≤ turn x.limiter x.size - x.now) : Served x := by
  have hnow := now_le_requested x
  obtain ⟨hlate, hle⟩ := requested_lt_turn hlate
  rw [UInt64.le_iff_toNat_le, UInt64.toNat_sub_of_le _ _ hle] at hfar
  have hturn := toNat_turn x.limiter x.size
  have hdrop : x.passes .pacer = false := by rw [Offer.passes, hans]; rfl
  refine ⟨fun hused => ?_, ?_, ?_, fun _ => ?_⟩
  · rw [hans]
    exact ⟨hused, UInt64.le_refl _⟩
  · rw [hdrop]
    intro hpass
    cases hpass
  · rw [hdrop, due_of_used hused]
    simp only [true_iff]
    omega
  · rw [hans]
    exact ⟨rfl, rfl⟩

/-- **A packet is served as it is due.** -/
theorem served {x : Offer} (h : Asked x) : Served x := by
  rcases offer_cases h.1 x.size x.departure x.now with ⟨hans, hcome⟩ | ⟨hans, hused, hlate, hnear⟩ |
    ⟨hans, hused, hlate, hfar⟩
  · exact served_at_once h hans hcome
  · exact served_at_turn h hans hused hlate hnear
  · exact served_by_dropping hans hused hlate hfar

/-! ## A course of packets

The limiter of a packet is what the packet before it left, up to the rate.  The last departure is not
touched by a change of the rate, so it goes from one to the next. -/

/-- What passes later leaves later, by its transmission time at least. -/
theorem spaced_of_course {xs : List Offer} {l : Limiter} (hcourse : Course .pacer l xs)
    (hask : ∀ x ∈ xs, Asked x) (hused : l.lastDeparture ≠ never) {y : Offer} (hy : y ∈ xs)
    (hpass : y.passes .pacer = true) :
    l.lastDeparture.toNat + (transmissionTime y.size y.limiter.rate).toNat
      ≤ (y.leaves .pacer).toNat := by
  induction xs generalizing l with
  | nil => cases hy
  | cons x xs ih =>
    obtain ⟨⟨r, hr⟩, htail⟩ := hcourse
    obtain ⟨⟨hrate, hnow, hdep⟩, htail'⟩ := List.forall_mem_cons.mp hask
    have hlast : x.limiter.lastDeparture = l.lastDeparture := by rw [hr]; rfl
    rcases offer_spec hrate hnow hdep with ⟨hdrop, hsame⟩ | hx
    · rcases List.mem_cons.mp hy with rfl | hy
      · rw [hdrop] at hpass
        cases hpass
      · rw [hsame] at htail
        rw [← hlast]
        exact ih htail htail' (hlast ▸ hused) hy
    · have hspace := hx.spaced (hlast ▸ hused)
      rw [hlast] at hspace
      rcases List.mem_cons.mp hy with rfl | hy
      · exact hspace
      · have hlater := ih htail htail' hx.used hy
        rw [hx.remembers] at hlater
        dsimp only at hlater
        omega

/-- **The packets that pass leave at a distance**, each at least its own transmission time after any
packet before it. -/
theorem pairwise_apart {xs : List Offer} {l : Limiter} (hcourse : Course .pacer l xs)
    (hask : ∀ x ∈ xs, Asked x) :
    xs.Pairwise fun x y => x.passes .pacer = true → y.passes .pacer = true →
      (x.leaves .pacer).toNat + (transmissionTime y.size y.limiter.rate).toNat
        ≤ (y.leaves .pacer).toNat := by
  induction xs generalizing l with
  | nil => exact List.Pairwise.nil
  | cons x xs ih =>
    obtain ⟨⟨hrate, hnow, hdep⟩, htail'⟩ := List.forall_mem_cons.mp hask
    refine List.pairwise_cons.mpr ⟨fun y hy hpx hpy => ?_, ih hcourse.2 htail'⟩
    rcases offer_spec hrate hnow hdep with ⟨hdrop, -⟩ | hx
    · rw [hdrop] at hpx
      cases hpx
    · have hlater := spaced_of_course hcourse.2 htail' hx.used hy hpy
      rwa [hx.remembers] at hlater

/-- What the pacer of a course has to satisfy: it paces, at no more than `rate`, and far from the end of
time. -/
def Paces (rate : UInt64) (x : Offer) : Prop :=
  x.limiter.rate ≠ 0 ∧ x.limiter.rate.toNat ≤ rate.toNat ∧ Early x.now ∧ x.departure ≠ never

/-- The distances in terms of a rate that the pacer never exceeds. -/
theorem pairwise_spaced {rate : UInt64} {xs : List Offer} {l : Limiter}
    (hcourse : Course .pacer l xs) (hpace : ∀ x ∈ xs, Paces rate x) :
    xs.Pairwise fun x y => x.passes .pacer = true → y.passes .pacer = true →
      (x.leaves .pacer).toNat + (transmissionTime y.size rate).toNat ≤ (y.leaves .pacer).toNat := by
  have hask : ∀ x ∈ xs, Asked x := fun x hx =>
    ⟨(hpace x hx).1, (hpace x hx).2.2.1, (hpace x hx).2.2.2⟩
  refine (pairwise_apart hcourse hask).imp_of_mem fun {x y} _ hy hapart hpx hpy => ?_
  obtain ⟨hrate, hmax, -⟩ := hpace y hy
  have hpos : 0 < y.limiter.rate.toNat :=
    Nat.pos_of_ne_zero fun h => hrate (UInt64.toNat_inj.mp h)
  have hfaster := transmissionTime_anti y.size hpos hmax
  have := hapart hpx hpy
  omega

/-- The last departure never moves backwards in a course. -/
theorem lastDeparture_le {xs : List Offer} {l : Limiter} (hcourse : Course .pacer l xs)
    (hask : ∀ x ∈ xs, Asked x) (hused : l.lastDeparture ≠ never) :
    ∀ y ∈ xs, l.lastDeparture ≤ (y.answer .pacer).limiter.lastDeparture := by
  induction xs generalizing l with
  | nil => simp
  | cons x xs ih =>
    obtain ⟨⟨r, hr⟩, htail⟩ := hcourse
    obtain ⟨hx, htail'⟩ := List.forall_mem_cons.mp hask
    have hlast : x.limiter.lastDeparture = l.lastDeparture := by rw [hr]; rfl
    obtain ⟨hused', hforward⟩ := (served hx).forward (hlast ▸ hused)
    rw [hlast] at hforward
    exact List.forall_mem_cons.mpr ⟨hforward, fun y hy =>
      UInt64.le_trans hforward (ih htail htail' hused' y hy)⟩

theorem pairwise_lastDeparture {xs : List Offer} {l : Limiter} (hcourse : Course .pacer l xs)
    (hask : ∀ x ∈ xs, Asked x) : xs.Pairwise fun x y =>
      (x.answer .pacer).limiter.lastDeparture ≠ never →
        (x.answer .pacer).limiter.lastDeparture ≤ (y.answer .pacer).limiter.lastDeparture := by
  induction xs generalizing l with
  | nil => exact List.Pairwise.nil
  | cons x xs ih =>
    have htail := (List.forall_mem_cons.mp hask).2
    exact List.pairwise_cons.mpr ⟨fun y hy hused => lastDeparture_le hcourse.2 htail hused y hy,
      ih hcourse.2 htail⟩

/-- Distances that are kept add up. -/
theorem sum_tail_le {α : Type} {leaves gap : α → Nat} {last : Nat} {xs : List α} {x : α}
    (hspaced : (x :: xs).Pairwise fun x y => leaves x + gap y ≤ leaves y)
    (hlast : ∀ y ∈ x :: xs, leaves y ≤ last) : leaves x + (xs.map gap).sum ≤ last := by
  induction xs generalizing x with
  | nil => simpa using hlast x List.mem_cons_self
  | cons y ys ih =>
    rw [List.pairwise_cons] at hspaced
    have hxy := hspaced.1 y List.mem_cons_self
    have hrest := ih hspaced.2 fun z hz => hlast z (List.mem_cons_of_mem _ hz)
    rw [List.map_cons, List.sum_cons]
    omega

/-! ## The contract -/

/-- **The contract of a pacer**, whatever it was used for before, at whatever times packets come, and
however its rate is changed.  Every packet is served as it is due, the last departure never moves
backwards, what passes leaves at a distance, and so what passes after the first packet takes no longer to
send than until the last one leaves. -/
theorem contract_holds (l : Limiter) (history : List Incident)
    (hask : ∀ x ∈ l.offers .pacer history,
      x.limiter.rate ≠ 0 ∧ Early x.now ∧ x.departure ≠ never) :
    let packets := l.offers .pacer history
    let sent := packets.filter (·.passes .pacer)
    (∀ x ∈ packets, Served x) ∧
      (packets.Pairwise fun x y => (x.answer .pacer).limiter.lastDeparture ≠ never →
        (x.answer .pacer).limiter.lastDeparture ≤ (y.answer .pacer).limiter.lastDeparture) ∧
      (sent.Pairwise fun x y =>
        (x.leaves .pacer).toNat + (transmissionTime y.size y.limiter.rate).toNat
          ≤ (y.leaves .pacer).toNat) ∧
      ∀ x later, sent = x :: later → ∀ y ∈ sent.getLast?,
        (x.leaves .pacer).toNat
            + (later.map fun z => (transmissionTime z.size z.limiter.rate).toNat).sum
          ≤ (y.leaves .pacer).toNat := by
  intro packets sent
  have hcourse : Course .pacer l packets := l.course_offers .pacer history
  have hapart : sent.Pairwise fun x y =>
      (x.leaves .pacer).toNat + (transmissionTime y.size y.limiter.rate).toNat
        ≤ (y.leaves .pacer).toNat :=
    List.pairwise_filter.mpr ((pairwise_apart hcourse hask).imp fun h hx hy => h hx hy)
  refine ⟨fun x hx => served (hask x hx), pairwise_lastDeparture hcourse hask, hapart, ?_⟩
  intro x later hsent y hy
  rw [hsent] at hapart hy
  refine sum_tail_le hapart fun z hz => ?_
  obtain ⟨earlier, hsplit⟩ := List.getLast?_eq_some_iff.mp hy
  rw [hsplit] at hapart hz
  rcases List.mem_append.mp hz with hz | hz
  · have hbefore := (List.pairwise_append.mp hapart).2.2 z hz y (List.mem_singleton_self y)
    omega
  · obtain rfl := List.mem_singleton.mp hz
    exact Nat.le_refl _

/-- Four packets: one that is free to go, one that has to wait at twice the rate, one that would have to
wait for two and a half seconds, and one that asks to leave later than it has to. -/
def busy : List Incident :=
  [.offer 1000000 0 0, .setRate 2000000, .offer 1000000 0 0, .offer 4000000 0 0,
    .offer 1000 3000000000 0]

/-- The third of them is dropped. -/
theorem contract_holds_when_busy :
    (((Limiter.idle 1000000).offers .pacer busy).map (·.passes .pacer) = [true, true, false, true]) ∧
      ∀ x ∈ (Limiter.idle 1000000).offers .pacer busy, Served x :=
  ⟨by decide, (contract_holds (Limiter.idle 1000000) busy (by decide)).1⟩

end Pacer

end Shaping
