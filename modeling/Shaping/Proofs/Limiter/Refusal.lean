import Shaping.Proofs.Limiter.TokenBucket
import Mathlib.Data.Nat.ModEq

/-!
# What a refusal costs

A packet that a bucket refuses takes no tokens.  But the bucket has been looked at: the tokens earned by
then are put into it, and the time since is counted from then on.  Both are rounded down, the time to whole
microseconds and the tokens to whole ones, and what is rounded away is never made up for.

So a refusal is free if nothing was rounded, or if the bucket is full anyway (`balance_lookedAt`), and
otherwise there are packets after it that would have passed without it (`exists_loss`).
`refusal_is_free_iff` says so in one.  At its worst, packets that are refused at distances below a
microsecond keep an empty bucket empty for good (`starves`).

Rates are taken to be so low that a second's worth of microseconds times the rate is a word, which leaves
out those of eighteen terabytes per second and more.

## Both directions

That a refusal is free is said of any bucket and any packets around it, so to show it one has to look at the
refusal alone: packets after it cannot tell the bucket from one that was not looked at, since they only see
what it holds and when it was refilled (`offer_congr`), and it is enough to compare these at the next packet
(`verdicts_lookedAt`).  After that both buckets are the same.

For the other direction packets have to be found.  There are two ways to lose something, and each has its
own time at which the loss shows.  If the elapsed time is no whole number of microseconds, then the rest is
missing when that microsecond would be over.  If it is, then a part of a token is lost; it is missing when
the bucket would be full, a second after it was empty, because then what is held would be a whole number
(`exists_loss`).  The packet that would have passed is as large as what the bucket would hold, and the one
that is refused is larger than any bucket.

Both directions are about `earned`, which is the formula for less than a second in natural numbers.  Above a
second the other formula gives something else, but a bucket is full by then with either of them
(`rate_le_refill`, `rate_le_earned`), so `toNat_balance` has one case.
-/

set_option autoImplicit false

namespace Shaping

namespace TokenBucket

/-! ## Packets one after the other -/

/-- A packet that asks to pass. -/
structure Request where
  size : UInt64
  now : UInt64

/-- The verdicts about packets that come one after the other. -/
def verdicts : Limiter → List Request → List Verdict
  | _, [] => []
  | l, r :: rs => (offer l r.size r.now).1 :: verdicts (offer l r.size r.now).2 rs

/-- The bucket after them. -/
def after : Limiter → List Request → Limiter
  | l, [] => l
  | l, r :: rs => after (offer l r.size r.now).2 rs

theorem verdicts_append (l : Limiter) (earlier later : List Request) :
    verdicts l (earlier ++ later) = verdicts l earlier ++ verdicts (after l earlier) later := by
  induction earlier generalizing l with
  | nil => rfl
  | cons r earlier ih => rw [List.cons_append, verdicts, ih, verdicts, after, List.cons_append]

theorem length_verdicts (l : Limiter) (rs : List Request) : (verdicts l rs).length = rs.length := by
  induction rs generalizing l with
  | nil => rfl
  | cons r rs ih => rw [verdicts, List.length_cons, ih, List.length_cons]

theorem rate_after (l : Limiter) (rs : List Request) : (after l rs).rate = l.rate := by
  induction rs generalizing l with
  | nil => rfl
  | cons r rs ih => rw [after, ih, rate_offer]

/-! ## What is earned

Two divisions cut something off, by `1000` and by `10 ^ 6`.  If neither does, then times may be added. -/

/-- The tokens earned at a rate, without the limits of a word. -/
def earned (rate elapsed : Nat) : Nat := elapsed / 1000 * rate / 10 ^ 6

theorem earned_mono {rate elapsed elapsed' : Nat} (h : elapsed ≤ elapsed') :
    earned rate elapsed ≤ earned rate elapsed' := by
  rw [earned, earned]
  gcongr

/-- Below a microsecond nothing is earned. -/
theorem earned_of_lt {rate elapsed : Nat} (h : elapsed < 1000) : earned rate elapsed = 0 := by
  rw [earned, Nat.div_eq_of_lt h, Nat.zero_mul, Nat.zero_div]

/-- In a second a bucket earns what it holds. -/
theorem rate_le_earned {rate elapsed : Nat} (h : 10 ^ 9 ≤ elapsed) : rate ≤ earned rate elapsed := by
  rw [earned, Nat.le_div_iff_mul_le (by decide), Nat.mul_comm]
  gcongr
  omega

/-- **Where nothing is rounded away**, it makes no difference whether the bucket is looked at. -/
theorem earned_add {rate elapsed : Nat} (hmicros : 1000 ∣ elapsed) (htokens : 10 ^ 9 ∣ rate * elapsed)
    (more : Nat) : earned rate (elapsed + more) = earned rate elapsed + earned rate more := by
  obtain ⟨micros, rfl⟩ := hmicros
  have hwhole : 10 ^ 6 ∣ micros * rate := by
    rw [show rate * (1000 * micros) = 1000 * (micros * rate) by ring] at htokens
    exact Nat.dvd_of_mul_dvd_mul_left (by decide : 0 < 1000) htokens
  rw [earned, earned, earned, Nat.mul_add_div (by decide), Nat.mul_div_cancel_left _ (by decide),
    Nat.add_mul, Nat.add_div_of_dvd_right hwhole]

/-- **Where something is rounded away**, there is a time at which the bucket would hold more had it not
been looked at. -/
theorem exists_loss {rate elapsed : Nat} (hmin : 10 ^ 6 ≤ rate) (hearly : elapsed < 10 ^ 9)
    (hround : ¬ (1000 ∣ elapsed ∧ 10 ^ 9 ∣ rate * elapsed)) :
    ∃ more, elapsed + more ≤ 10 ^ 9 ∧
      earned rate elapsed + earned rate more < min (earned rate (elapsed + more)) rate := by
  by_cases hmicros : 1000 ∣ elapsed
  · -- a part of a token is lost, and it is missing when the bucket would be full
    obtain ⟨micros, rfl⟩ := hmicros
    have hpart : ¬ 10 ^ 6 ∣ micros * rate := fun h => hround ⟨Nat.dvd_mul_right _ _, by
      rw [show rate * (1000 * micros) = 1000 * (micros * rate) by ring]
      exact Nat.mul_dvd_mul_left 1000 h⟩
    refine ⟨1000 * (10 ^ 6 - micros), by omega, ?_⟩
    have hall : micros * rate + (10 ^ 6 - micros) * rate = 10 ^ 6 * rate := by
      rw [← Nat.add_mul]
      congr 1
      omega
    rw [← Nat.mul_add, earned, earned, earned, Nat.mul_div_cancel_left _ (by decide),
      Nat.mul_div_cancel_left _ (by decide), Nat.mul_div_cancel_left _ (by decide), Nat.add_mul, hall,
      Nat.mul_div_cancel_left _ (by decide), Nat.min_self]
    rw [Nat.dvd_iff_mod_eq_zero] at hpart
    omega
  · -- a part of a microsecond is lost, and it is missing when that microsecond would be over
    refine ⟨1000 - elapsed % 1000, by omega, ?_⟩
    have hnext : (elapsed + (1000 - elapsed % 1000)) / 1000 = elapsed / 1000 + 1 := by omega
    have hnone : (1000 - elapsed % 1000) / 1000 = 0 := by
      rw [Nat.dvd_iff_mod_eq_zero] at hmicros
      omega
    have hlast : elapsed / 1000 * rate + rate ≤ 10 ^ 6 * rate := by
      rw [← Nat.succ_mul]
      gcongr
      omega
    rw [earned, earned, earned, hnext, hnone, Nat.zero_mul, Nat.zero_div, Nat.add_mul, Nat.one_mul]
    omega

/-! ## What a look at a bucket changes

A refusal leaves the bucket as `lookedAt` says: with other tokens and with another time of the last refill.
Neither of them matters for itself.  What matters is what the bucket will hold at a later time, and there
one may make up for the other. -/

theorem toNat_refill {rate elapsed : UInt64} (hrate : rate.toNat * 10 ^ 6 < 2 ^ 64)
    (h : elapsed.toNat < 10 ^ 9) :
    (refill rate elapsed).toNat = earned rate.toNat elapsed.toNat := by
  have hproduct : elapsed.toNat / 1000 * rate.toNat ≤ UInt64.size - 1 := by
    have hle : elapsed.toNat / 1000 * rate.toNat ≤ 10 ^ 6 * rate.toNat := by
      gcongr
      omega
    have hsize : UInt64.size = 2 ^ 64 := rfl
    omega
  rw [toNat_refill_short rate h, Nat.min_eq_left hproduct, earned]

/-- A bucket that was not looked at for a second earns what it holds. -/
theorem rate_le_refill {rate elapsed : UInt64} (h : 10 ^ 9 ≤ elapsed.toNat) :
    rate.toNat ≤ (refill rate elapsed).toNat := by
  have hseconds : 1 ≤ elapsed.toNat / 10 ^ 9 := (Nat.le_div_iff_mul_le (by decide)).mpr h
  rw [toNat_refill_long rate h]
  exact Nat.le_min.mpr ⟨Nat.le_mul_of_pos_left _ hseconds, Nat.le_sub_one_of_lt rate.toNat_lt_size⟩

/-- What a bucket in use holds. -/
theorem toNat_balance {l : Limiter} (hused : l.refilledAt ≠ never)
    (hrate : l.rate.toNat * 10 ^ 6 < 2 ^ 64) (now : UInt64) : (balance l now).toNat
      = min (l.tokens.toNat + earned l.rate.toNat (now.toNat - l.refilledAt.toNat)) l.rate.toNat := by
  have helapsed := Word.toNat_subSat now l.refilledAt
  have htop := l.rate.toNat_lt
  have hsize : UInt64.size = 2 ^ 64 := rfl
  rw [balance, if_neg hused, Word.toNat_min, Word.toNat_addSat, ← helapsed]
  by_cases hshort : (Word.subSat now l.refilledAt).toNat < 10 ^ 9
  · rw [toNat_refill hrate hshort]
    omega
  · have hfull : l.rate.toNat ≤ (refill l.rate (Word.subSat now l.refilledAt)).toNat :=
      rate_le_refill (Nat.not_lt.mp hshort)
    have hfull' : l.rate.toNat ≤ earned l.rate.toNat (Word.subSat now l.refilledAt).toNat :=
      rate_le_earned (Nat.not_lt.mp hshort)
    omega

/-- A bucket after a look at it. -/
def lookedAt (l : Limiter) (now : UInt64) : Limiter :=
  { l with refilledAt := refillTime l now, tokens := balance l now }

/-- A refusal is a look. -/
theorem offer_of_drop {l : Limiter} {size now : UInt64} (h : (offer l size now).1 = .drop) :
    minimumRate ≤ l.rate ∧ balance l now < size ∧ (offer l size now).2 = lookedAt l now := by
  rw [offer] at h ⊢
  by_cases hmin : l.rate < minimumRate
  · rw [if_pos hmin] at h
    cases h
  · rw [if_neg hmin] at h ⊢
    by_cases hsize : size ≤ balance l now
    · simp only [if_pos hsize] at h
      cases h
    · simp only [if_neg hsize]
      exact ⟨UInt64.not_lt.mp hmin, UInt64.not_le.mp hsize, rfl⟩

/-- A look does not take tokens out of a bucket, unless it held more than it may. -/
theorem tokens_le_balance {l : Limiter} (h : l.tokens ≤ l.rate) (now : UInt64) :
    l.tokens ≤ balance l now := by
  rw [UInt64.le_iff_toNat_le] at h ⊢
  rw [balance]
  split
  · exact h
  · have htop := l.tokens.toNat_lt
    have hsize : UInt64.size = 2 ^ 64 := rfl
    rw [Word.toNat_min, Word.toNat_addSat]
    omega

theorem refillTime_lookedAt {l : Limiter} {now later : UInt64} (hnow : now ≠ never)
    (hle : now ≤ later) : refillTime (lookedAt l now) later = refillTime l later := by
  have hused : (lookedAt l now).refilledAt ≠ never := refillTime_ne_never hnow
  rw [UInt64.le_iff_toNat_le] at hle
  rw [← UInt64.toNat_inj, toNat_refillTime hused]
  by_cases hfirst : l.refilledAt = never
  · rw [lookedAt, refillTime, if_pos (Or.inl hfirst), refillTime, if_pos (Or.inl hfirst)]
    exact Nat.max_eq_right hle
  · rw [lookedAt, toNat_refillTime hfirst, toNat_refillTime hfirst]
    omega

/-- What is earned in so much time is not rounded, or it is enough to fill the bucket. -/
def Lossless (rate elapsed : Nat) : Prop :=
  10 ^ 9 ≤ elapsed ∨ (1000 ∣ elapsed ∧ 10 ^ 9 ∣ rate * elapsed)

/-- **A look that rounds nothing away changes nothing**: the bucket holds what it would hold without. -/
theorem balance_lookedAt {l : Limiter} {now later : UInt64} (hrate : l.rate.toNat * 10 ^ 6 < 2 ^ 64)
    (hnow : now ≠ never) (hle : now ≤ later)
    (hexact : Lossless l.rate.toNat (now.toNat - l.refilledAt.toNat)) :
    balance (lookedAt l now) later = balance l later := by
  have hused : (lookedAt l now).refilledAt ≠ never := refillTime_ne_never hnow
  rw [UInt64.le_iff_toNat_le] at hle
  rw [← UInt64.toNat_inj, toNat_balance hused hrate]
  by_cases hfirst : l.refilledAt = never
  · rw [lookedAt, balance, if_pos hfirst, balance, if_pos hfirst]
    exact Nat.min_eq_right (Nat.le_add_right _ _)
  · rw [toNat_balance hfirst hrate, lookedAt]
    dsimp only
    rw [toNat_balance hfirst hrate, toNat_refillTime hfirst]
    -- the time up to the later look is cut at the earlier one
    have hcut : later.toNat - l.refilledAt.toNat = (now.toNat - l.refilledAt.toNat)
        + (later.toNat - max l.refilledAt.toNat now.toNat) := by omega
    rw [hcut]
    generalize later.toNat - max l.refilledAt.toNat now.toNat = more
    generalize now.toNat - l.refilledAt.toNat = elapsed at hexact
    rcases hexact with hlong | ⟨hmicros, htokens⟩
    · have hfull : l.rate.toNat ≤ earned l.rate.toNat elapsed := rate_le_earned hlong
      have hfull' : earned l.rate.toNat elapsed ≤ earned l.rate.toNat (elapsed + more) :=
        earned_mono (Nat.le_add_right elapsed more)
      omega
    · rw [earned_add hmicros htokens]
      omega

/-! ## Which refusals are free

The bucket of the counterexample is empty at time zero, as a packet may have left it that took everything. -/

/-- What a bucket that limits makes of a packet depends on what it holds and when it was refilled. -/
theorem offer_congr {l l' : Limiter} (hmin : minimumRate ≤ l.rate) {size now : UInt64}
    (hrate : l'.rate = l.rate) (hlast : l'.lastDeparture = l.lastDeparture)
    (hbalance : balance l' now = balance l now) (htime : refillTime l' now = refillTime l now) :
    offer l' size now = offer l size now := by
  have hnot : ¬ l.rate < minimumRate := UInt64.not_lt.mpr hmin
  obtain ⟨rate, refilledAt, tokens, last⟩ := l
  obtain ⟨rate', refilledAt', tokens', last'⟩ := l'
  dsimp only at hrate hlast
  subst hrate hlast
  simp only [offer, if_neg hnot, hbalance, htime]

/-- Packets after a look that rounds nothing away. -/
theorem verdicts_lookedAt {l : Limiter} {now : UInt64} (hmin : minimumRate ≤ l.rate)
    (hrate : l.rate.toNat * 10 ^ 6 < 2 ^ 64) (hnow : now ≠ never)
    (hexact : Lossless l.rate.toNat (now.toNat - l.refilledAt.toNat)) {rs : List Request}
    (hlater : ∀ r ∈ rs, now ≤ r.now) : verdicts (lookedAt l now) rs = verdicts l rs := by
  cases rs with
  | nil => rfl
  | cons r rs =>
    have hle := (List.forall_mem_cons.mp hlater).1
    have hsame : offer (lookedAt l now) r.size r.now = offer l r.size r.now :=
      offer_congr hmin rfl rfl (balance_lookedAt hrate hnow hle hexact) (refillTime_lookedAt hnow hle)
    rw [verdicts, hsame, verdicts]

theorem fst_offer_eq_drop_iff {l : Limiter} (hmin : minimumRate ≤ l.rate) {size now : UInt64} :
    (offer l size now).1 = .drop ↔ balance l now < size := by
  have hnot : ¬ l.rate < minimumRate := UInt64.not_lt.mpr hmin
  rw [offer, if_neg hnot, ← UInt64.not_le]
  by_cases hsize : size ≤ balance l now
  · simp [hsize]
  · simp [hsize]

/-- An empty bucket at time zero. -/
def drained (rate : UInt64) : Limiter := ⟨rate, 0, 0, never⟩

theorem drained_used (rate : UInt64) : (drained rate).refilledAt ≠ never :=
  show (0 : UInt64) ≠ never by decide

theorem toNat_balance_drained {rate : UInt64} (hrate : rate.toNat * 10 ^ 6 < 2 ^ 64) (later : UInt64) :
    (balance (drained rate) later).toNat = min (earned rate.toNat later.toNat) rate.toNat := by
  have hbalance := toNat_balance (drained_used rate) hrate later
  rwa [drained, UInt64.toNat_zero, Nat.zero_add, Nat.sub_zero] at hbalance

theorem toNat_balance_lookedAt_drained {rate now : UInt64} (hrate : rate.toNat * 10 ^ 6 < 2 ^ 64)
    (hnow : now ≠ never) (later : UInt64) : (balance (lookedAt (drained rate) now) later).toNat
      = min (min (earned rate.toNat now.toNat) rate.toNat
          + earned rate.toNat (later.toNat - now.toNat)) rate.toNat := by
  have hused : (lookedAt (drained rate) now).refilledAt ≠ never := refillTime_ne_never hnow
  have hbalance := toNat_balance hused hrate later
  have htime : (refillTime (drained rate) now).toNat = now.toNat :=
    (toNat_refillTime (drained_used rate) now).trans (Nat.zero_max _)
  rw [lookedAt] at hbalance ⊢
  dsimp only at hbalance
  rwa [toNat_balance_drained hrate, htime] at hbalance

/-- After a look that rounds something away an empty bucket holds less, some time within a second. -/
theorem exists_balance_lt {rate : UInt64} {elapsed : Nat} (hmin : minimumRate ≤ rate)
    (hrate : rate.toNat * 10 ^ 6 < 2 ^ 64) (hround : ¬ Lossless rate.toNat elapsed) :
    ∃ now later : UInt64, now.toNat = elapsed ∧ now ≤ later ∧ later.toNat ≤ 10 ^ 9 ∧
      balance (lookedAt (drained rate) now) later < balance (drained rate) later := by
  obtain ⟨hshort, hround⟩ := not_or.mp hround
  obtain ⟨more, hsecond, hloss⟩ :=
    exists_loss (UInt64.le_iff_toNat_le.mp hmin) (Nat.not_le.mp hshort) hround
  have hword : 10 ^ 9 < UInt64.size := by decide
  have hnow : (UInt64.ofNat elapsed).toNat = elapsed := UInt64.toNat_ofNat_of_lt' (by omega)
  have hlater : (UInt64.ofNat (elapsed + more)).toNat = elapsed + more :=
    UInt64.toNat_ofNat_of_lt' (by omega)
  have hnever : UInt64.ofNat elapsed ≠ never := by
    intro h
    rw [h] at hnow
    exact hshort (hnow ▸ (by decide))
  refine ⟨.ofNat elapsed, .ofNat (elapsed + more), hnow, ?_, by rwa [hlater], ?_⟩
  · rw [UInt64.le_iff_toNat_le, hnow, hlater]
    exact Nat.le_add_right _ _
  · rw [UInt64.lt_iff_toNat_lt, toNat_balance_lookedAt_drained hrate hnever,
      toNat_balance_drained hrate, hnow, hlater, Nat.add_sub_cancel_left]
    omega

/-- **Which refusals are free.**  Packets come one after the other to a bucket of some rate, and one of
them is refused.  Whatever the bucket was used for before and whatever comes after, nothing else changes if
that packet stays away, exactly if what the bucket earned from the last refill to that packet is not
rounded, or enough to fill it. -/
theorem refusal_is_free_iff {rate : UInt64} (hmin : minimumRate ≤ rate)
    (hrate : rate.toNat * 10 ^ 6 < 2 ^ 64) (elapsed : Nat) :
    (∀ (l : Limiter) (earlier later : List Request) (r : Request), l.rate = rate →
      (earlier ++ r :: later).Pairwise (fun x y => x.now ≤ y.now) →
      (∀ x ∈ earlier ++ r :: later, x.now ≠ never) →
      (offer (after l earlier) r.size r.now).1 = .drop →
      r.now.toNat - (after l earlier).refilledAt.toNat = elapsed →
      verdicts l (earlier ++ later)
        = (verdicts l (earlier ++ r :: later)).eraseIdx earlier.length) ↔
    Lossless rate.toNat elapsed := by
  constructor
  · intro hfree
    by_contra hround
    obtain ⟨now, later, hnow, hle, hsecond, hless⟩ := exists_balance_lt hmin hrate hround
    -- a packet that no bucket has room for, and one that would have passed without it
    have hdrop : (offer (drained rate) never now).1 = .drop := by
      have hmost := balance_le_rate (drained rate) now
      rw [fst_offer_eq_drop_iff (l := drained rate) hmin, UInt64.lt_iff_toNat_lt]
      have hnever : never.toNat = 2 ^ 64 - 1 := rfl
      have hrate' : (drained rate).rate.toNat * 10 ^ 6 < 2 ^ 64 := hrate
      omega
    have hnever : ∀ t : UInt64, t.toNat ≤ 10 ^ 9 → t ≠ never := by
      rintro _ ht rfl
      exact absurd ht (by decide)
    have hnow' : now.toNat ≤ 10 ^ 9 := Nat.le_trans (UInt64.le_iff_toNat_le.mp hle) hsecond
    have hsame := hfree (drained rate) [] [⟨balance (drained rate) later, later⟩] ⟨never, now⟩ rfl
      (by simpa using hle) (by simp [hnever now hnow', hnever later hsecond]) hdrop hnow
    rw [List.nil_append, List.nil_append, verdicts, verdicts, verdicts, verdicts,
      (offer_of_drop hdrop).2.2, List.length_nil, List.eraseIdx_cons_zero, List.cons.injEq] at hsame
    have hdrop' := (fst_offer_eq_drop_iff (l := lookedAt (drained rate) now) hmin).mpr hless
    rw [← hsame.1, fst_offer_eq_drop_iff (l := drained rate) hmin] at hdrop'
    exact UInt64.lt_irrefl _ hdrop'
  · intro hexact l earlier later r hl hsorted hnow hdrop helapsed
    have hmin' : minimumRate ≤ (after l earlier).rate := by rwa [rate_after, hl]
    have hrate' : (after l earlier).rate.toNat * 10 ^ 6 < 2 ^ 64 := by rwa [rate_after, hl]
    have hexact' : Lossless (after l earlier).rate.toNat
        (r.now.toNat - (after l earlier).refilledAt.toNat) := by rwa [rate_after, hl, helapsed]
    have hrnow : r.now ≠ never := hnow r (List.mem_append_right _ List.mem_cons_self)
    have hlater : ∀ y ∈ later, r.now ≤ y.now :=
      (List.pairwise_cons.mp (List.pairwise_append.mp hsorted).2.1).1
    obtain ⟨-, -, hlooked⟩ := offer_of_drop hdrop
    rw [verdicts_append, verdicts_append, verdicts, hlooked,
      verdicts_lookedAt hmin' hrate' hrnow hexact' hlater,
      List.eraseIdx_append_of_length_le (length_verdicts l earlier).le, length_verdicts, Nat.sub_self,
      List.eraseIdx_cons_zero]

/-- At a megabyte per second, a packet that is refused after a microsecond is free. -/
theorem refusal_is_free_after_a_microsecond :
    verdicts (.idle 1000000) [⟨1000000, 0⟩, ⟨2, 2000⟩]
      = (verdicts (.idle 1000000) [⟨1000000, 0⟩, ⟨2, 1000⟩, ⟨2, 2000⟩]).eraseIdx 1 :=
  (refusal_is_free_iff (by decide) (by decide) 1000).mpr (Or.inr (by decide)) (.idle 1000000)
    [⟨1000000, 0⟩] [⟨2, 2000⟩] ⟨2, 1000⟩ rfl (by decide) (by decide) (by decide) (by decide)

/-- One that is refused a nanosecond earlier takes a whole microsecond away. -/
theorem refusal_costs_a_microsecond :
    ¬ ∀ (l : Limiter) (earlier later : List Request) (r : Request), minimumRate ≤ l.rate →
      (earlier ++ r :: later).Pairwise (fun x y => x.now ≤ y.now) →
      (∀ x ∈ earlier ++ r :: later, x.now ≠ never) →
      (offer (after l earlier) r.size r.now).1 = .drop →
      verdicts l (earlier ++ later)
        = (verdicts l (earlier ++ r :: later)).eraseIdx earlier.length := by
  intro hfree
  have hsame := hfree (.idle 1000000) [⟨1000000, 0⟩] [⟨1, 1000⟩] ⟨1, 999⟩ (by decide) (by decide)
    (by decide) (by decide)
  exact absurd hsame (by decide)

/-! ## Starving

What is lost at one refusal is less than a microsecond.  Packets that come more often than that lose
everything. -/

/-- **A bucket can be starved.**  Packets that come at distances below a microsecond are all refused if the
bucket has too few tokens for each of them at the start, for as long as they go on coming. -/
theorem starves (rs : List Request) {l : Limiter} (hmin : minimumRate ≤ l.rate)
    (hrate : l.rate.toNat * 10 ^ 6 < 2 ^ 64) (hused : l.refilledAt ≠ never)
    (hclose : (l.refilledAt.toNat :: rs.map (·.now.toNat)).IsChain fun t t' => t ≤ t' ∧ t' < t + 1000)
    (hnow : ∀ r ∈ rs, r.now ≠ never) (hbig : ∀ r ∈ rs, l.tokens < r.size) :
    ∀ v ∈ verdicts l rs, v = .drop := by
  induction rs generalizing l with
  | nil => simp [verdicts]
  | cons r rs ih =>
    rw [List.map_cons, List.isChain_cons_cons] at hclose
    obtain ⟨⟨hle, hlt⟩, hclose⟩ := hclose
    obtain ⟨hnow, hnow'⟩ := List.forall_mem_cons.mp hnow
    obtain ⟨hbig, hbig'⟩ := List.forall_mem_cons.mp hbig
    have hbalance : balance l r.now ≤ l.tokens := by
      have hshort : r.now.toNat - l.refilledAt.toNat < 1000 := Nat.sub_lt_left_of_lt_add hle hlt
      rw [UInt64.le_iff_toNat_le, toNat_balance hused hrate, earned_of_lt hshort]
      exact Nat.min_le_left _ _
    have hdrop := (fst_offer_eq_drop_iff hmin).mpr (UInt64.lt_of_le_of_lt hbalance hbig)
    have htime : (lookedAt l r.now).refilledAt.toNat = r.now.toNat :=
      (toNat_refillTime hused r.now).trans (Nat.max_eq_right hle)
    rw [verdicts, hdrop, (offer_of_drop hdrop).2.2, List.forall_mem_cons]
    refine ⟨rfl, ih hmin hrate (refillTime_ne_never hnow) ?_ hnow' fun r' hr' => ?_⟩
    · rwa [htime]
    · exact UInt64.lt_of_le_of_lt hbalance (hbig' r' hr')

end TokenBucket

end Shaping
