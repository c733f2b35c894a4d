import Shaping.Proofs.Shaper.TierCaps

/-!
# When caps are changed

The caps of a direction are set up by the first packet that asks one of them, and from then on they are
changed by the allocator only, which runs behind a packet that passed.  Such an `Occasion` comes with the
time of its packet.

What an event can do to the caps is said once (`CapStep`): it leaves their rates alone, or it sets caps up
that were not, or it is a run of the allocator a second or more after the occasion before.  Times may jump
back as they like, since a packet from the past finds that no time has passed, and plans may come and go,
since a direction without a plan does not ask its caps at all.

So the occasions of a run are one for setting up and then one for each run of the allocator, each a second
or more after the one before; and the caps know the time of the last.

The run is divided where the caps are set up.  Before that nothing can happen but the setting up itself, and
after that nothing but the allocator, which is why there are two inductions over the same events, the first
of which ends in the second (`occasions_of_not_isSetUp`, `occasions_of_isSetUp`).  Both generalise the
shaper and carry along when the caps were changed last; this is the one thing that a step has to know of
those before it.
-/

set_option autoImplicit false

namespace Shaping

/-- The caps of a direction get new rates. -/
inductive Occasion where
  /-- They are set up. -/
  | setUp (now : UInt64)
  /-- The allocator runs. -/
  | adjusted (now : UInt64)
  deriving DecidableEq

/-! ## One packet

Whether the caps are set up or adjusted is read off the packet and what it met, with the tests that the code
makes.  It is not read off the caps before and after, since the allocator may run and leave all rates as they
are. -/

namespace Passage

variable (u : Pipeline) (x : Passage)

/-- Does the packet find caps to ask, but none that are set up? -/
def setsUp : Bool := (x.tierOffer? u).isSome && !x.lane.caps.isSetUp

/-- Does the packet pass the cap of its tier, at a time at which the allocator may run? -/
def adjusts : Bool :=
  (x.tierOffer? u).any fun (_, z) =>
    z.passes (x.stages u).global && !(x.lane.caps.setUp x.lane.plan x.now).isSettled x.now

/-- What the packet makes happen to the caps of its direction. -/
def occasions : List Occasion :=
  (if x.setsUp u then [.setUp x.now] else []) ++ if x.adjusts u then [.adjusted x.now] else []

end Passage

namespace Pipeline

variable (u : Pipeline)

/-- What happens to the caps of a direction in a run. -/
def occasions (d : Direction) (s : Shaper) (events : List Event) : List Occasion :=
  (u.passages s events).flatMap fun x => if x.packet.direction = d then x.occasions u else []

theorem occasions_cons (d : Direction) (s : Shaper) (e : Event) (events : List Event) :
    u.occasions d s (e :: events) = u.occasions d s [e] ++ u.occasions d (u.step s e) events := by
  cases e with
  | packet p now => simp only [occasions, passages, List.flatMap_cons, List.flatMap_nil, List.append_nil]
  | call c => rfl

end Pipeline

/-! ## What an event can do to caps

That a packet cannot do two of the three at once is part of the law, and has a reason of its own.  The
packet that sets up the caps may well pass, and then the allocator is asked in the same breath; but caps
that were set up now count as changed now, and no second has gone by since (`isSettled_of_adjustedAt`). -/

namespace TierCaps

/-- The rates of all tiers are as before. -/
def SameRates (before after : TierCaps) : Prop :=
  ∀ t, (after.limiters.get t).rate = (before.limiters.get t).rate

/-- The earlier of two times is at least a second before the later one. -/
def SecondApart (earlier later : UInt64) : Prop := earlier.toNat + 1000000000 ≤ later.toNat

instance (earlier later : UInt64) : Decidable (SecondApart earlier later) :=
  inferInstanceAs (Decidable (_ ≤ _))

variable {caps : TierCaps} {now : UInt64}

/-- The allocator waits for a second to pass. -/
theorem secondApart_of_not_isSettled (hset : caps.isSetUp = true) (h : caps.isSettled now = false) :
    SecondApart caps.adjustedAt now := by
  rw [isSetUp] at hset
  rw [isSettled, hset, Bool.true_and, decide_eq_false_iff_not, UInt64.lt_iff_toNat_lt,
    Word.toNat_subSat] at h
  have hsecond : adjustInterval.toNat = 1000000000 := rfl
  rw [SecondApart]
  omega

/-- No time has passed since the caps were set up just now. -/
theorem isSettled_of_adjustedAt (hnow : now ≠ never) (h : caps.adjustedAt = now) :
    caps.isSettled now = true := by
  have hzero : Word.subSat now now < adjustInterval := by
    have hsecond : adjustInterval.toNat = 1000000000 := rfl
    rw [UInt64.lt_iff_toNat_lt, Word.toNat_subSat]
    omega
  rw [isSettled, h, Bool.and_eq_true]
  exact ⟨bne_iff_ne.mpr hnow, decide_eq_true hzero⟩

theorem setUp_of_isSetUp (h : caps.isSetUp = true) (plan : RatePlan) (now : UInt64) :
    caps.setUp plan now = caps := by
  rw [setUp, if_pos h]

theorem adjustedAt_setUp (h : caps.isSetUp = false) (plan : RatePlan) (now : UInt64) :
    (caps.setUp plan now).adjustedAt = now := by
  rw [setUp, if_neg (by rw [h]; exact Bool.false_ne_true)]

theorem adjust_of_isSettled (h : caps.isSettled now = true) (plan : RatePlan) (ring : RateRing) :
    caps.adjust plan ring now = caps := by
  rw [adjust, if_pos h]

theorem adjustedAt_adjust (h : caps.isSettled now = false) (plan : RatePlan) (ring : RateRing) :
    (caps.adjust plan ring now).adjustedAt = now := by
  rw [adjust, if_neg (by rw [h]; exact Bool.false_ne_true)]

/-- Asking one of the caps leaves the rates of all alone. -/
theorem sameRates_modify (caps : TierCaps) (t : Tier) {l : Limiter}
    (h : l.rate = (caps.limiters.get t).rate) :
    caps.SameRates ⟨caps.adjustedAt, caps.limiters.modify t fun _ => l⟩ := by
  intro t'
  by_cases ht : t' = t
  · subst ht
    rw [PerTier.get_modify_self, h]
  · rw [PerTier.get_modify_of_ne _ ht]

end TierCaps

open TierCaps

/-- What an event can do to the caps of a direction, and what happened to them then. -/
inductive CapStep (before after : TierCaps) : List Occasion → Prop
  /-- The rates are left alone, and caps that are not set up altogether. -/
  | kept (hadjusted : after.adjustedAt = before.adjustedAt) (hrates : before.SameRates after)
      (hblank : before.isSetUp = false → after = before) : CapStep before after []
  /-- Caps are set up that were not. -/
  | setUp (now : UInt64) (hnow : now ≠ never) (hbefore : before.isSetUp = false)
      (hafter : after.adjustedAt = now) : CapStep before after [.setUp now]
  /-- The allocator runs, a second or more after what happened before. -/
  | adjusted (now : UInt64) (hnow : now ≠ never) (hbefore : before.isSetUp = true)
      (hpause : SecondApart before.adjustedAt now) (hafter : after.adjustedAt = now) :
      CapStep before after [.adjusted now]

namespace CapStep

theorem refl (caps : TierCaps) : CapStep caps caps [] := .kept rfl (fun _ => rfl) fun _ => rfl

/-- What a packet does that asks one of the caps. -/
theorem after (caps : TierCaps) (disc : Discipline) (plan : RatePlan) (ring : RateRing) {t : Tier}
    {z : Offer} (hnow : z.now ≠ never)
    (hz : z.limiter = (caps.setUp plan z.now).limiters.get t) :
    CapStep caps (caps.after disc plan ring t z)
      ((if !caps.isSetUp then [.setUp z.now] else []) ++
        if z.passes disc && !(caps.setUp plan z.now).isSettled z.now then [.adjusted z.now] else []) := by
  -- after the answer, and before the allocator has its turn
  let asked : TierCaps := ⟨(caps.setUp plan z.now).adjustedAt,
    (caps.setUp plan z.now).limiters.modify t fun _ => (z.answer disc).limiter⟩
  have hrates : (caps.setUp plan z.now).SameRates asked := by
    refine sameRates_modify _ t ?_
    rw [Offer.answer, rate_offer, hz]
  have hsettled : asked.isSettled z.now = (caps.setUp plan z.now).isSettled z.now := rfl
  have hafter : caps.after disc plan ring t z
      = if z.passes disc then asked.adjust plan ring z.now else asked := rfl
  cases hset : caps.isSetUp with
  | false =>
    have hat := adjustedAt_setUp hset plan z.now
    have hstill := isSettled_of_adjustedAt hnow hat
    rw [hafter, adjust_of_isSettled (hsettled.trans hstill), ite_self, hstill]
    simp only [Bool.not_false, if_true, Bool.not_true, Bool.and_false, Bool.false_eq_true, if_false,
      List.append_nil]
    exact .setUp z.now hnow hset hat
  | true =>
    rw [setUp_of_isSetUp hset] at hrates hsettled ⊢
    have hat : asked.adjustedAt = caps.adjustedAt := by
      show (caps.setUp plan z.now).adjustedAt = caps.adjustedAt
      rw [setUp_of_isSetUp hset]
    have hkept : CapStep caps asked [] :=
      .kept hat hrates fun hblank => absurd (hset.symm.trans hblank) (by decide)
    rw [hafter]
    simp only [Bool.not_true, Bool.false_eq_true, if_false, List.nil_append]
    by_cases hpass : z.passes disc = true
    · cases hsettle : caps.isSettled z.now with
      | true =>
        rw [if_pos hpass, adjust_of_isSettled (hsettled.trans hsettle), Bool.not_true, Bool.and_false]
        exact hkept
      | false =>
        rw [if_pos hpass, hpass]
        exact .adjusted z.now hnow hset (secondApart_of_not_isSettled hset hsettle)
          (adjustedAt_adjust (hsettled.trans hsettle) plan ring)
    · rw [Bool.not_eq_true] at hpass
      rw [hpass]
      exact hkept

end CapStep

namespace Pipeline

variable {u : Pipeline} {d : Direction} {s : Shaper}

/-- A packet in one direction. -/
theorem capStep_packet {p : Packet} {now : UInt64} (hnow : now ≠ never) :
    CapStep (s.lane d).caps ((u.step s (.packet p now)).lane d).caps
      (u.occasions d s [.packet p now]) := by
  have hone : u.occasions d s [.packet p now]
      = if p.direction = d then (⟨s, p, now⟩ : Passage).occasions u else [] := by
    simp only [occasions, passages, List.flatMap_cons, List.flatMap_nil, List.append_nil]
  rw [hone]
  rcases caps_packet_cases (u := u) (s := s) p now d with ⟨hsame, hnone⟩ | ⟨t, z, ring, rfl, hz, hafter⟩
  · have hempty : (if p.direction = d then (⟨s, p, now⟩ : Passage).occasions u else []) = [] := by
      split
      · rename_i hd
        rw [Passage.occasions, Passage.setsUp, Passage.adjusts, hnone hd]
        rfl
      · rfl
    rw [hempty, hsame]
    exact .refl _
  · obtain ⟨-, -, hlim, -, hat, -⟩ := Passage.tierOffer?_eq_some u hz
    have hat : z.now = now := hat
    have hoccasions : (⟨s, p, now⟩ : Passage).occasions u
        = (if !(s.lane p.direction).caps.isSetUp then [.setUp z.now] else []) ++
          if z.passes (u.options.stages.get p.direction).global &&
            !((s.lane p.direction).caps.setUp (s.lane p.direction).plan z.now).isSettled z.now
          then [.adjusted z.now] else [] := by
      rw [Passage.occasions, Passage.setsUp, Passage.adjusts, hz, hat]
      rfl
    rw [if_pos rfl, hoccasions, hafter]
    refine CapStep.after _ _ _ ring (hat ▸ hnow) ?_
    rw [hat]
    exact hlim

/-- **What an event can do to caps.** -/
theorem capStep (e : Event) (hnow : ∀ x ∈ u.passages s [e], x.now ≠ never) :
    CapStep (s.lane d).caps ((u.step s e).lane d).caps (u.occasions d s [e]) := by
  cases e with
  | packet p now => exact capStep_packet (hnow _ (List.mem_singleton.mpr rfl))
  | call c =>
    have hcaps := (Shaper.stable_caps d (s.lane d).caps).call (s := s) rfl c
    have hafter : ((u.step s (.call c)).lane d).caps = (s.lane d).caps := hcaps
    rw [hafter]
    exact .refl _

/-! ## Runs

A chain is made longer at its front, as the induction goes: the time at which the caps were changed last is
the head of the list, and the step that comes first says how far the next time is from that. -/

/-- The packets of a run are those of its first event and those of the rest. -/
theorem forall_passages_cons {P : Passage → Prop} {e : Event} {events : List Event} :
    (∀ x ∈ u.passages s (e :: events), P x) ↔
      (∀ x ∈ u.passages s [e], P x) ∧ ∀ x ∈ u.passages (u.step s e) events, P x := by
  have happend := u.passages_append s [e] events
  rw [List.singleton_append] at happend
  rw [happend, List.forall_mem_append]
  rfl

/-- As long as nothing happens to caps, their rates stay as they are. -/
theorem sameRates_after (events : List Event) (hnow : ∀ x ∈ u.passages s events, x.now ≠ never)
    (h : u.occasions d s events = []) :
    (s.lane d).caps.SameRates ((u.after s events).lane d).caps := by
  induction events generalizing s with
  | nil => exact fun _ => rfl
  | cons e events ih =>
    obtain ⟨hfirst, hrest⟩ := forall_passages_cons.mp hnow
    rw [occasions_cons, List.append_eq_nil_iff] at h
    have hstep := capStep (d := d) e hfirst
    rw [h.1] at hstep
    cases hstep with
    | kept _ hrates _ => exact fun t => (ih hrest h.2 t).trans (hrates t)

/-- **Once caps are set up, the allocator runs, a second or more after it ran before.** -/
theorem occasions_of_isSetUp (events : List Event)
    (hnow : ∀ x ∈ u.passages s events, x.now ≠ never) (h : (s.lane d).caps.isSetUp = true) :
    ∃ times, u.occasions d s events = times.map .adjusted ∧
      ((s.lane d).caps.adjustedAt :: times).IsChain SecondApart ∧
      ((u.after s events).lane d).caps.adjustedAt
        = ((s.lane d).caps.adjustedAt :: times).getLast (List.cons_ne_nil _ _) := by
  induction events generalizing s with
  | nil => exact ⟨[], rfl, .singleton _, rfl⟩
  | cons e events ih =>
    obtain ⟨hfirst, hrest⟩ := forall_passages_cons.mp hnow
    have hstep := capStep (d := d) e hfirst
    rw [occasions_cons]
    generalize u.occasions d s [e] = first at hstep
    cases hstep with
    | kept hadjusted _ _ =>
      have hset : ((u.step s e).lane d).caps.isSetUp = true := by
        rwa [isSetUp, hadjusted]
      obtain ⟨times, htimes, hchain, hlast⟩ := ih hrest hset
      simp only [hadjusted] at hchain hlast
      exact ⟨times, htimes, hchain, hlast⟩
    | setUp now _ hbefore _ => exact absurd (h.symm.trans hbefore) (by decide)
    | adjusted now hnever _ hpause hafter =>
      have hset : ((u.step s e).lane d).caps.isSetUp = true := by
        rw [isSetUp, hafter]
        exact bne_iff_ne.mpr hnever
      obtain ⟨times, htimes, hchain, hlast⟩ := ih hrest hset
      simp only [hafter] at hchain hlast
      refine ⟨now :: times, by rw [htimes]; rfl, List.isChain_cons_cons.mpr ⟨hpause, hchain⟩, ?_⟩
      rw [List.getLast_cons (List.cons_ne_nil _ _)]
      exact hlast

/-- **Caps are set up at most once**, and before that nothing happens to them at all. -/
theorem occasions_of_not_isSetUp (events : List Event)
    (hnow : ∀ x ∈ u.passages s events, x.now ≠ never) (h : (s.lane d).caps.isSetUp = false) :
    (u.occasions d s events = [] ∧ ((u.after s events).lane d).caps = (s.lane d).caps) ∨
      ∃ start times, u.occasions d s events = .setUp start :: times.map .adjusted ∧
        (start :: times).IsChain SecondApart ∧
        ((u.after s events).lane d).caps.adjustedAt
          = (start :: times).getLast (List.cons_ne_nil _ _) := by
  induction events generalizing s with
  | nil => exact Or.inl ⟨rfl, rfl⟩
  | cons e events ih =>
    obtain ⟨hfirst, hrest⟩ := forall_passages_cons.mp hnow
    have hstep := capStep (d := d) e hfirst
    rw [occasions_cons]
    generalize u.occasions d s [e] = first at hstep
    cases hstep with
    | kept _ _ hblank =>
      have hsame := hblank h
      have hrun := ih hrest (hsame ▸ h)
      rw [hsame] at hrun
      exact hrun
    | setUp now hnever _ hafter =>
      have hset : ((u.step s e).lane d).caps.isSetUp = true := by
        rw [isSetUp, hafter]
        exact bne_iff_ne.mpr hnever
      obtain ⟨times, htimes, hchain, hlast⟩ := occasions_of_isSetUp (d := d) events hrest hset
      simp only [hafter] at hchain hlast
      exact Or.inr ⟨now, times, by rw [htimes]; rfl, hchain, hlast⟩
    | adjusted now _ hbefore _ _ => exact absurd (h.symm.trans hbefore) (by decide)

end Pipeline

/-- **Caps are changed at most once a second.**  In a run from an empty shaper, with packets at whatever times
and whatever calls between them, either nothing ever happens to the caps of a direction; or they are set up
once, and after that the allocator runs, each time a second or more after what happened before, and the caps
know the time of the last.  In a stretch of the run in which nothing happens to the caps no tier has its rate
changed.  And when the allocator is asked too early, it leaves everything as it is. -/
theorem TierCaps.change_once_per_second (u : Pipeline) (n : Nat) (d : Direction) (events : List Event)
    (hnow : ∀ x ∈ u.passages (Shaper.empty n) events, x.now ≠ never) :
    ((u.occasions d (Shaper.empty n) events = [] ∧
        ((u.after (Shaper.empty n) events).lane d).caps = .blank) ∨
      ∃ start times,
        u.occasions d (Shaper.empty n) events = .setUp start :: times.map .adjusted ∧
        (start :: times).IsChain SecondApart ∧
        ((u.after (Shaper.empty n) events).lane d).caps.adjustedAt
          = (start :: times).getLast (List.cons_ne_nil _ _)) ∧
    (∀ earlier later, events = earlier ++ later →
      u.occasions d (u.after (Shaper.empty n) earlier) later = [] →
      ((u.after (Shaper.empty n) earlier).lane d).caps.SameRates
        ((u.after (Shaper.empty n) events).lane d).caps) ∧
    ∀ (caps : TierCaps) (plan : RatePlan) (ring : RateRing) (now : UInt64),
      caps.isSettled now = true → caps.adjust plan ring now = caps := by
  have hblank : ((Shaper.empty n).lane d).caps = .blank := by cases d <;> rfl
  refine ⟨?_, ?_, fun caps plan ring now h => adjust_of_isSettled h plan ring⟩
  · rw [← hblank]
    exact Pipeline.occasions_of_not_isSetUp events hnow (by rw [hblank]; rfl)
  · rintro earlier later rfl hnone
    rw [u.passages_append, List.forall_mem_append] at hnow
    rw [u.after_append]
    exact Pipeline.sameRates_after later hnow.2 hnone

section

open OnePlan

/-- The second packet comes too early for the allocator, and so does the third, which comes before the
first.  The plan is written once more, and then the allocator runs. -/
theorem TierCaps.change_once_per_second_under_one_plan :
    let events : List Event := [.call (.writePlans (.const plan)), .packet (packet .ingress) 5000000000,
      .packet (packet .ingress) 5500000000, .packet (packet .ingress) 0,
      .call (.writePlans (.const plan)), .packet (packet .ingress) 6000000000]
    pipeline.occasions .ingress (.empty 1) events = [.setUp 5000000000, .adjusted 6000000000] ∧
      ((pipeline.after (.empty 1) events).lane .ingress).caps.adjustedAt = 6000000000 := by
  intro events
  have hoccasions : pipeline.occasions .ingress (.empty 1) events
      = [.setUp 5000000000, .adjusted 6000000000] := by decide
  refine ⟨hoccasions, ?_⟩
  obtain ⟨hrun, -, -⟩ := change_once_per_second pipeline 1 .ingress events (by decide)
  rcases hrun with ⟨hnone, -⟩ | ⟨start, times, hsome, -, hlast⟩
  · rw [hoccasions] at hnone
    cases hnone
  · rw [hoccasions] at hsome
    obtain ⟨hstart, htimes⟩ := List.cons.inj hsome
    cases hstart
    match times, htimes, hlast with
    | [time], htimes, hlast =>
      obtain ⟨htime, -⟩ := List.cons.inj htimes
      cases htime
      exact hlast

end

end Shaping
