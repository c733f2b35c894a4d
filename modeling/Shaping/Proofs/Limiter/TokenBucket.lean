import Shaping.Proofs.Limiter.Course
import Mathlib.Tactic.GCongr
import Mathlib.Tactic.Ring

/-!
# What a token bucket lets through

A bucket pays for what it lets through.  `Ledger` is the account since some moment: the bytes that passed
and the tokens that are left were there at the beginning or have been earned since, and what is earned in a
stretch of time is at most the rate times its length (`refill_le`).  The account is kept in the time of the
last refill rather than in the time of the packets, because only the former never goes back.

`ledger_next` is the step, for one packet at any time; it asks nothing but that the rate is not above the
one the account is kept at, so the account survives every change of the rate below that.  Over any stretch
of a history this gives `conforms_in_every_stretch`, whatever the order of times.  `windowBytes_le` follows
by induction over a course of packets in the order of time: in a window a bucket lets no more through than
it holds when full, and the rate times the length of the window.

## Why the account is in that time

The first thought is to compare the bytes that passed between two packets with the time between the packets.
That is true if the clock never goes back.  If it does, a packet comes at an earlier time than the one
before; it earns nothing, since the elapsed time stops at zero, and the time of the last refill stays where
it is.  The time between two packets may then be less than the time that was paid for.  The time of the last
refill does not have this fault: it is the largest of the times of all packets (`toNat_refillTime`), and
every token there is was earned up to it.

So `Ledger` counts from a moment `since` up to the last refill, and `latest` is what this comes to for the
packets of a stretch.  Only for windows, where times are given from outside, do packets have to come in the
order of time.

The account starts with one packet and not before it, as nothing is known of the bucket except that it is
not more than full (`ledger_first`).  Whatever it was used for earlier is paid for by that second's worth.

The inequality of the account is multiplied by `10 ^ 9`.  Tokens per second and nanoseconds do not divide,
and if each step were rounded for itself the roundings would add up.  There is one division, and it is at
the end (`Ledger.passed_le`).
-/

set_option autoImplicit false

namespace Shaping

namespace TokenBucket

/-! ## What is earned

There are two formulas, for less than a second and for more.  Nothing here asks which of them is in use once
`refill_le` is there. -/

/-- The tokens of less than a second. -/
theorem toNat_refill_short (rate : UInt64) {elapsed : UInt64} (h : elapsed.toNat < 10 ^ 9) :
    (refill rate elapsed).toNat
      = min (elapsed.toNat / 1000 * rate.toNat) (UInt64.size - 1) / 10 ^ 6 := by
  have hmicros : (elapsed / 1000).toNat = elapsed.toNat / 1000 := by rw [UInt64.toNat_div]; rfl
  have hshort : elapsed / 1000 < 1000000 := by
    rw [UInt64.lt_iff_toNat_lt, hmicros]
    exact (Nat.div_lt_iff_lt_mul (by decide)).mpr h
  rw [refill, if_pos hshort, UInt64.toNat_div, Word.toNat_mulSat, hmicros]
  rfl

/-- The tokens of a second and more. -/
theorem toNat_refill_long (rate : UInt64) {elapsed : UInt64} (h : 10 ^ 9 ≤ elapsed.toNat) :
    (refill rate elapsed).toNat = min (elapsed.toNat / 10 ^ 9 * rate.toNat) (UInt64.size - 1) := by
  have hmicros : (elapsed / 1000).toNat = elapsed.toNat / 1000 := by rw [UInt64.toNat_div]; rfl
  have hlong : ¬ elapsed / 1000 < 1000000 := by
    rw [UInt64.lt_iff_toNat_lt, hmicros, Nat.not_lt]
    exact (Nat.le_div_iff_mul_le (by decide)).mpr h
  have hseconds : (elapsed / 1000 / 1000000).toNat = elapsed.toNat / 10 ^ 9 := by
    rw [UInt64.toNat_div, hmicros]
    exact Nat.div_div_eq_div_mul _ _ _
  rw [refill, if_neg hlong, Word.toNat_mulSat, hseconds]

/-- **Nothing is minted**: what is earned is at most the rate times the time. -/
theorem refill_le (rate elapsed : UInt64) :
    (refill rate elapsed).toNat * 10 ^ 9 ≤ rate.toNat * elapsed.toNat := by
  rcases Nat.lt_or_ge elapsed.toNat (10 ^ 9) with hshort | hlong
  · rw [toNat_refill_short rate hshort]
    calc min (elapsed.toNat / 1000 * rate.toNat) (UInt64.size - 1) / 10 ^ 6 * 10 ^ 9
        = min (elapsed.toNat / 1000 * rate.toNat) (UInt64.size - 1) / 10 ^ 6 * 10 ^ 6 * 1000 := by ring
      _ ≤ min (elapsed.toNat / 1000 * rate.toNat) (UInt64.size - 1) * 1000 := by
          gcongr; exact Nat.div_mul_le_self _ _
      _ ≤ elapsed.toNat / 1000 * rate.toNat * 1000 := by gcongr; exact Nat.min_le_left _ _
      _ = rate.toNat * (elapsed.toNat / 1000 * 1000) := by ring
      _ ≤ rate.toNat * elapsed.toNat := by gcongr; exact Nat.div_mul_le_self _ _
  · rw [toNat_refill_long rate hlong]
    calc min (elapsed.toNat / 10 ^ 9 * rate.toNat) (UInt64.size - 1) * 10 ^ 9
        ≤ elapsed.toNat / 10 ^ 9 * rate.toNat * 10 ^ 9 := by gcongr; exact Nat.min_le_left _ _
      _ = rate.toNat * (elapsed.toNat / 10 ^ 9 * 10 ^ 9) := by ring
      _ ≤ rate.toNat * elapsed.toNat := by gcongr; exact Nat.div_mul_le_self _ _

/-! ## What a bucket holds

These lemmas are all that the rest knows of `offer`.  The one that matters is `offer_spec`: what passed and
what is left is what was there, in either case, so that no later proof distinguishes whether a packet
passed. -/

/-- A bucket never holds more than a second's worth. -/
theorem balance_le_rate (l : Limiter) (now : UInt64) : (balance l now).toNat ≤ l.rate.toNat := by
  rw [balance]
  split
  · exact Nat.le_refl _
  · rw [Word.toNat_min]
    exact Nat.min_le_right _ _

/-- What a bucket holds it held before or has earned since. -/
theorem balance_le_tokens {l : Limiter} (h : l.refilledAt ≠ never) (now : UInt64) :
    (balance l now).toNat * 10 ^ 9
      ≤ l.tokens.toNat * 10 ^ 9 + l.rate.toNat * (now.toNat - l.refilledAt.toNat) := by
  have hearned := refill_le l.rate (Word.subSat now l.refilledAt)
  rw [Word.toNat_subSat] at hearned
  have hsum : (balance l now).toNat
      ≤ l.tokens.toNat + (refill l.rate (Word.subSat now l.refilledAt)).toNat := by
    rw [balance, if_neg h, Word.toNat_min, Word.toNat_addSat]
    exact Nat.le_trans (Nat.min_le_left _ _) (Nat.min_le_left _ _)
  calc (balance l now).toNat * 10 ^ 9
      ≤ (l.tokens.toNat + (refill l.rate (Word.subSat now l.refilledAt)).toNat) * 10 ^ 9 := by gcongr
    _ = l.tokens.toNat * 10 ^ 9
          + (refill l.rate (Word.subSat now l.refilledAt)).toNat * 10 ^ 9 := Nat.add_mul _ _ _
    _ ≤ _ := by gcongr

/-- The time of the last refill is that of the latest packet. -/
theorem toNat_refillTime {l : Limiter} (h : l.refilledAt ≠ never) (now : UInt64) :
    (refillTime l now).toNat = max l.refilledAt.toNat now.toNat := by
  rw [refillTime]
  split
  · rename_i hlt
    have := UInt64.lt_iff_toNat_lt.mp (hlt.resolve_left h)
    omega
  · rename_i hge
    have : ¬ l.refilledAt.toNat < now.toNat := fun hlt => hge (Or.inr (UInt64.lt_iff_toNat_lt.mpr hlt))
    omega

/-- A refill is never earlier than the packet it is for. -/
theorem le_refillTime (l : Limiter) (now : UInt64) : now.toNat ≤ (refillTime l now).toNat := by
  by_cases hused : l.refilledAt = never
  · rw [refillTime, if_pos (Or.inl hused)]
  · rw [toNat_refillTime hused]
    exact Nat.le_max_right _ _

theorem refillTime_ne_never {l : Limiter} {now : UInt64} (hnow : now ≠ never) :
    refillTime l now ≠ never := by
  rw [refillTime]
  split
  · exact hnow
  · rename_i h
    exact fun hn => h (Or.inl hn)

/-- Changing the rate is no business of a packet. -/
theorem rate_offer (l : Limiter) (size now : UInt64) : (offer l size now).2.rate = l.rate := by
  rw [offer]
  split
  · rfl
  · dsimp only
    split <;> rfl

/-- What a pacer would remember is no business of a bucket. -/
theorem lastDeparture_offer (l : Limiter) (size now : UInt64) :
    (offer l size now).2.lastDeparture = l.lastDeparture := by
  rw [offer]
  split
  · rfl
  · dsimp only
    split <;> rfl

/-- What a packet does to a bucket that limits: the tokens before it are split into what it takes and
what is left. -/
theorem offer_spec {l : Limiter} (hrate : minimumRate ≤ l.rate) (size departure now : UInt64) :
    let x : Offer := ⟨l, size, departure, now⟩
    x.passedBytes .tokenBucket + (x.answer .tokenBucket).limiter.tokens.toNat = (balance l now).toNat ∧
      (x.answer .tokenBucket).limiter.refilledAt = refillTime l now := by
  intro x
  have hnot : ¬ l.rate < minimumRate := UInt64.not_lt.mpr hrate
  by_cases hsize : size ≤ balance l now
  · have hx : x.answer .tokenBucket = ⟨.pass, departure,
        { l with refilledAt := refillTime l now, tokens := balance l now - size }⟩ := by
      simp only [x, Offer.answer, Discipline.offer, offer, if_neg hnot, if_pos hsize]
    rw [Offer.passedBytes, Offer.passes, hx, if_pos (by simp), UInt64.toNat_sub_of_le _ _ hsize]
    have := UInt64.le_iff_toNat_le.mp hsize
    exact ⟨by simp only [x]; omega, rfl⟩
  · have hx : x.answer .tokenBucket = ⟨.drop, departure,
        { l with refilledAt := refillTime l now, tokens := balance l now }⟩ := by
      simp only [x, Offer.answer, Discipline.offer, offer, if_neg hnot, if_neg hsize]
    rw [Offer.passedBytes, Offer.passes, hx, if_neg (by simp)]
    exact ⟨Nat.zero_add _, rfl⟩

/-! ## The account of a bucket -/

/-- The account of a bucket of at most `rate` since the time `since`, in which `passed` bytes passed. -/
structure Ledger (rate since passed : Nat) (l : Limiter) : Prop where
  /-- The bucket was in use. -/
  used : l.refilledAt ≠ never
  since_le : since ≤ l.refilledAt.toNat
  /-- What passed and what is left has been paid for. -/
  paid : (passed + l.tokens.toNat) * 10 ^ 9
    ≤ rate * 10 ^ 9 + rate * (l.refilledAt.toNat - since)

/-- **The account can be opened with any packet.** -/
theorem ledger_first {x : Offer} {rate : Nat} (hmin : minimumRate ≤ x.limiter.rate)
    (hrate : x.limiter.rate.toNat ≤ rate) (hnow : x.now ≠ never) :
    Ledger rate (x.answer .tokenBucket).limiter.refilledAt.toNat (x.passedBytes .tokenBucket)
      (x.answer .tokenBucket).limiter := by
  obtain ⟨hsplit, htime⟩ := offer_spec hmin x.size x.departure x.now
  refine ⟨htime ▸ refillTime_ne_never hnow, Nat.le_refl _, ?_⟩
  have hfull := balance_le_rate x.limiter x.now
  rw [hsplit, Nat.sub_self, Nat.mul_zero, Nat.add_zero]
  exact Nat.mul_le_mul_right _ (Nat.le_trans hfull hrate)

/-- **Every packet keeps the account**, whenever it comes. -/
theorem ledger_next {x : Offer} {rate since passed : Nat} (h : Ledger rate since passed x.limiter)
    (hmin : minimumRate ≤ x.limiter.rate) (hrate : x.limiter.rate.toNat ≤ rate)
    (hnow : x.now ≠ never) :
    Ledger rate since (passed + x.passedBytes .tokenBucket) (x.answer .tokenBucket).limiter := by
  obtain ⟨hsplit, htime⟩ := offer_spec hmin x.size x.departure x.now
  have hlate := toNat_refillTime h.used x.now
  have hearned := balance_le_tokens h.used x.now
  have hsince := h.since_le
  refine ⟨htime ▸ refillTime_ne_never hnow, by rw [htime]; omega, ?_⟩
  rw [Nat.add_assoc, hsplit, htime, hlate, Nat.add_mul]
  calc passed * 10 ^ 9 + (balance x.limiter x.now).toNat * 10 ^ 9
      ≤ passed * 10 ^ 9 + (x.limiter.tokens.toNat * 10 ^ 9
          + x.limiter.rate.toNat * (x.now.toNat - x.limiter.refilledAt.toNat)) := by gcongr
    _ ≤ passed * 10 ^ 9 + (x.limiter.tokens.toNat * 10 ^ 9
          + rate * (x.now.toNat - x.limiter.refilledAt.toNat)) := by gcongr
    _ = (passed + x.limiter.tokens.toNat) * 10 ^ 9
          + rate * (x.now.toNat - x.limiter.refilledAt.toNat) := by ring
    _ ≤ rate * 10 ^ 9 + rate * (x.limiter.refilledAt.toNat - since)
          + rate * (x.now.toNat - x.limiter.refilledAt.toNat) := by
        have := h.paid
        gcongr
    _ = rate * 10 ^ 9 + rate * (max x.limiter.refilledAt.toNat x.now.toNat - since) := by
        rw [Nat.add_assoc, ← Nat.mul_add]
        congr 2
        omega

theorem Ledger.withRate {rate since passed : Nat} {l : Limiter} (h : Ledger rate since passed l)
    (r : UInt64) : Ledger rate since passed (l.withRate r) :=
  ⟨h.used, h.since_le, h.paid⟩

/-- What an account says in the end. -/
theorem Ledger.passed_le {rate since passed span : Nat} {l : Limiter}
    (h : Ledger rate since passed l) (hspan : l.refilledAt.toNat - since ≤ span) :
    passed ≤ rate + rate * span / 10 ^ 9 := by
  have hpaid : passed * 10 ^ 9 ≤ rate * span + rate * 10 ^ 9 := by
    calc passed * 10 ^ 9 ≤ (passed + l.tokens.toNat) * 10 ^ 9 := by gcongr; omega
      _ ≤ rate * 10 ^ 9 + rate * (l.refilledAt.toNat - since) := h.paid
      _ ≤ rate * 10 ^ 9 + rate * span := by gcongr
      _ = rate * span + rate * 10 ^ 9 := Nat.add_comm _ _
  have := (Nat.le_div_iff_mul_le (by decide : 0 < 10 ^ 9)).mpr hpaid
  rwa [Nat.add_mul_div_right _ _ (by decide), Nat.add_comm] at this

/-! ## Stretches

For an arbitrary order of times the bound is what the account says, up to the latest packet. -/

/-- What the bucket of a course has to satisfy: it limits, to no more than `rate`, and never at the time
that stands for no time. -/
def Limits (rate : Nat) (x : Offer) : Prop :=
  minimumRate ≤ x.limiter.rate ∧ x.limiter.rate.toNat ≤ rate ∧ x.now ≠ never

/-- The latest of a time and the times of packets. -/
def latest (since : Nat) (xs : List Offer) : Nat := xs.foldl (fun t x => max t x.now.toNat) since

/-- The bytes that pass. -/
def totalBytes (xs : List Offer) : Nat := (xs.map (·.passedBytes .tokenBucket)).sum

/-- **The account is kept through a course**, in whatever order the times of its packets are. -/
theorem Ledger.stretch {rate since passed : Nat} {xs : List Offer} {l : Limiter}
    (hcourse : Course .tokenBucket l xs) (hlim : ∀ x ∈ xs, Limits rate x)
    (hledger : Ledger rate since passed l) :
    passed + totalBytes xs
      ≤ rate + rate * (latest l.refilledAt.toNat xs - since) / 10 ^ 9 := by
  induction xs generalizing l passed with
  | nil => exact hledger.passed_le (Nat.le_refl _)
  | cons x xs ih =>
    obtain ⟨⟨r, hr⟩, htail⟩ := hcourse
    obtain ⟨⟨hmin, hrate, hnow⟩, hlim'⟩ := List.forall_mem_cons.mp hlim
    have hopen : Ledger rate since passed x.limiter := hr ▸ hledger.withRate r
    have htime : (x.answer .tokenBucket).limiter.refilledAt.toNat
        = max l.refilledAt.toNat x.now.toNat := by
      rw [(offer_spec hmin x.size x.departure x.now).2, toNat_refillTime hopen.used, hr]
      rfl
    have hrest := ih htail hlim' (ledger_next hopen hmin hrate hnow)
    rw [htime] at hrest
    rw [totalBytes, List.map_cons, List.sum_cons, ← Nat.add_assoc]
    exact hrest

/-- The tokens that a packet leaves behind are never more than a second's worth. -/
theorem tokens_le_rate {x : Offer} (hmin : minimumRate ≤ x.limiter.rate) :
    (x.answer .tokenBucket).limiter.tokens ≤ x.limiter.rate := by
  obtain ⟨hsplit, -⟩ := offer_spec hmin x.size x.departure x.now
  have hfull := balance_le_rate x.limiter x.now
  rw [← hsplit] at hfull
  exact UInt64.le_iff_toNat_le.mpr (Nat.le_trans (Nat.le_add_left _ _) hfull)

/-- **A bucket conforms to its rate**, whatever it was used for before, at whatever times packets come, and
however its rate is changed below a bound.  It never keeps more than a second's worth, and in a stretch of
packets it lets through no more than a second's worth at the bound, and what the bound comes to from the
first packet of the stretch to the latest. -/
theorem conforms_in_every_stretch {bound : Nat} (l : Limiter) (history : List Incident)
    (hrate : ∀ x ∈ l.offers .tokenBucket history,
      minimumRate ≤ x.limiter.rate ∧ x.limiter.rate.toNat ≤ bound)
    (hnow : ∀ x ∈ l.offers .tokenBucket history, x.now ≠ never) :
    (∀ x ∈ l.offers .tokenBucket history,
        (x.answer .tokenBucket).limiter.tokens ≤ x.limiter.rate) ∧
      ∀ x stretch, x :: stretch <:+: l.offers .tokenBucket history →
        let since := (x.answer .tokenBucket).limiter.refilledAt.toNat
        totalBytes (x :: stretch)
          ≤ bound + bound * (latest since (x :: stretch) - since) / 10 ^ 9 := by
  have hlim : ∀ x ∈ l.offers .tokenBucket history, Limits bound x :=
    fun x hx => ⟨(hrate x hx).1, (hrate x hx).2, hnow x hx⟩
  refine ⟨fun x hx => tokens_le_rate (hrate x hx).1, fun x stretch hstretch => ?_⟩
  obtain ⟨l', hcourse⟩ := (l.course_offers .tokenBucket history).stretch hstretch
  have hlim' : ∀ y ∈ x :: stretch, Limits bound y := fun y hy => hlim y (hstretch.subset hy)
  obtain ⟨⟨hmin, hmax, hnow'⟩, hrest⟩ := List.forall_mem_cons.mp hlim'
  have hpaid := (ledger_first hmin hmax hnow').stretch hcourse.2 hrest
  -- the account begins at the time of the refill for the first packet, or of one before it
  have hstart : latest (x.answer .tokenBucket).limiter.refilledAt.toNat (x :: stretch)
      = latest (x.answer .tokenBucket).limiter.refilledAt.toNat stretch := by
    have htime := (offer_spec hmin x.size x.departure x.now).2
    rw [latest, List.foldl_cons, Nat.max_eq_left (htime ▸ le_refillTime x.limiter x.now), latest]
  intro since
  rw [hstart, totalBytes, List.map_cons, List.sum_cons]
  exact hpaid

/-- A bucket is emptied, has its rate lowered, sees the clock step back, and earns at the lower rate. -/
def lowered : List Incident :=
  [.setRate 2000000, .offer 2000000 0 1000000000, .setRate 1000000, .offer 1 0 500000000,
    .offer 500000 0 1500000000]

/-- The whole of that history is one stretch, in which two packets get through. -/
theorem conforms_when_lowered :
    totalBytes ((Limiter.idle 0).offers .tokenBucket lowered)
        ≤ 2000000 + 2000000 * (1500000000 - 1000000000) / 10 ^ 9 ∧
      totalBytes ((Limiter.idle 0).offers .tokenBucket lowered) = 2500000 :=
  ⟨(conforms_in_every_stretch (Limiter.idle 0) lowered (by decide) (by decide)).2 _ _
    List.infix_rfl, by decide⟩

/-! ## Windows

Before the window nothing is counted, and then the account is opened with the first packet in it.  Packets
behind the window count nothing, but the account would go on; so the induction stops at the first of them,
and this is where the order of times is used. -/

/-- The bytes that pass at times from `t1` to `t2`. -/
def windowBytes (t1 t2 : Nat) (xs : List Offer) : Nat :=
  (xs.map fun x => if t1 ≤ x.now.toNat ∧ x.now.toNat ≤ t2 then x.passedBytes .tokenBucket else 0).sum

theorem windowBytes_cons (t1 t2 : Nat) (x : Offer) (xs : List Offer) :
    windowBytes t1 t2 (x :: xs)
      = (if t1 ≤ x.now.toNat ∧ x.now.toNat ≤ t2 then x.passedBytes .tokenBucket else 0)
        + windowBytes t1 t2 xs := by
  rw [windowBytes, List.map_cons, List.sum_cons, windowBytes]

/-- Nothing passes in a window that is over. -/
theorem windowBytes_eq_zero {t1 t2 : Nat} {xs : List Offer} (h : ∀ x ∈ xs, t2 < x.now.toNat) :
    windowBytes t1 t2 xs = 0 := by
  rw [windowBytes, List.sum_eq_zero_iff_forall_eq_nat]
  intro n hn
  obtain ⟨x, hx, rfl⟩ := List.mem_map.mp hn
  have := h x hx
  exact if_neg (by omega)

/-- The packets of a window after its first one. -/
theorem windowBytes_le_of_ledger {rate since passed t1 t2 : Nat} {xs : List Offer} {l : Limiter}
    (h1 : t1 ≤ since) (hcourse : Course .tokenBucket l xs) (hlim : ∀ x ∈ xs, Limits rate x)
    (hsorted : xs.Pairwise fun x y => x.now ≤ y.now) (hstart : ∀ x ∈ xs, t1 ≤ x.now.toNat)
    (hledger : Ledger rate since passed l) (hlate : l.refilledAt.toNat ≤ max since t2) :
    passed + windowBytes t1 t2 xs ≤ rate + rate * (t2 - t1) / 10 ^ 9 := by
  induction xs generalizing l passed with
  | nil => exact hledger.passed_le (by omega)
  | cons x xs ih =>
    obtain ⟨⟨r, hr⟩, htail⟩ := hcourse
    obtain ⟨⟨hmin, hrate, hnow⟩, hlim'⟩ := List.forall_mem_cons.mp hlim
    obtain ⟨hstartx, hstart'⟩ := List.forall_mem_cons.mp hstart
    have hopen : Ledger rate since passed x.limiter := hr ▸ hledger.withRate r
    have hlate' : x.limiter.refilledAt.toNat ≤ max since t2 := by rw [hr]; exact hlate
    rw [List.pairwise_cons] at hsorted
    by_cases hin : x.now.toNat ≤ t2
    · have hnext := ledger_next hopen hmin hrate hnow
      have htime := (offer_spec hmin x.size x.departure x.now).2
      have hmax := toNat_refillTime hopen.used x.now
      rw [windowBytes_cons, if_pos ⟨hstartx, hin⟩, ← Nat.add_assoc]
      refine ih htail hlim' hsorted.2 hstart' hnext ?_
      rw [htime]
      omega
    · have hover : ∀ y ∈ x :: xs, t2 < y.now.toNat := by
        intro y hy
        rcases List.mem_cons.mp hy with rfl | hy
        · omega
        · have := UInt64.le_iff_toNat_le.mp (hsorted.1 y hy)
          omega
      rw [windowBytes_eq_zero hover]
      exact hledger.passed_le (by omega)

/-- **A bucket lets through no more than it holds, and what it earns.**  The packets come in the order
of time, and the rate may change between them as long as it stays below `rate`. -/
theorem windowBytes_le {rate : Nat} (t1 t2 : Nat) {xs : List Offer} {l : Limiter}
    (hcourse : Course .tokenBucket l xs) (hlim : ∀ x ∈ xs, Limits rate x)
    (hsorted : xs.Pairwise fun x y => x.now ≤ y.now) :
    windowBytes t1 t2 xs ≤ rate + rate * (t2 - t1) / 10 ^ 9 := by
  induction xs generalizing l with
  | nil => exact Nat.zero_le _
  | cons x xs ih =>
    obtain ⟨⟨hmin, hrate, hnow⟩, hlim'⟩ := List.forall_mem_cons.mp hlim
    rw [List.pairwise_cons] at hsorted
    rw [windowBytes_cons]
    by_cases hin : t1 ≤ x.now.toNat ∧ x.now.toNat ≤ t2
    · -- the account is opened with the first packet of the window
      have hledger := ledger_first hmin hrate hnow
      have htime := (offer_spec hmin x.size x.departure x.now).2
      have hge : x.now.toNat ≤ (x.answer .tokenBucket).limiter.refilledAt.toNat :=
        htime ▸ le_refillTime x.limiter x.now
      rw [if_pos hin]
      refine windowBytes_le_of_ledger (by omega) hcourse.2 hlim' hsorted.2 (fun y hy => ?_) hledger
        (Nat.le_max_left _ _)
      have := UInt64.le_iff_toNat_le.mp (hsorted.1 y hy)
      omega
    · rw [if_neg hin, Nat.zero_add]
      exact ih hcourse.2 hlim' hsorted.2

end TokenBucket

end Shaping
