import Shaping.Proofs.Control.Steady
import Shaping.Proofs.Shaper.Windows

/-!
# The limit of an entity holds

However packets of all entities and calls of the control plane follow each other, an entity that stays
limited to a rate gets no more than that.  The reason is that the limiter of the entity sees one course of
offers (`course_entity`): other packets do not touch it, the calls do not touch it as they leave the entity
at its rate, and the packets of the entity are offered to it one after the other.  The second gate comes
later and only lets fewer packets go, or lets them go up to two seconds later.

To have a course is all that is needed.  A law of limiters speaks about the offers of a course and no other,
and it is turned into one about packets by naming the offer for each packet of the entity
(`exists_askEntity`).  The same is done for tiers, and the theory of windows does not know which of the two
it is used for.

* A packet of another entity, or of the other direction, leaves the limiter alone because tables keep their
  entries apart (`entity?_packet`).
* A packet of the entity is the next offer, and the limiter afterwards is that of the answer.
* A call leaves the limiter alone if the entity has the rate when it is over, with one reservation.  It may
  set several limits one after the other, and then the limiter could be lost and set up anew in the middle.
  So it is asked of every beginning of the call that the entity has the rate after it (`StaysLimited`).
  Without this the law is false (`Shaper.entity_limit_lost_by_repetition`).

What the second gate does is known only in that it asks another limiter.  For buckets it does not matter
when a packet leaves.  For pacers it does: the second gate may delay a packet of the entity, by less than
two seconds, so two packets may leave closer together than the first gate said, but a window can gain no
more than these two seconds.
-/

set_option autoImplicit false

namespace Shaping

namespace Pipeline

variable (u : Pipeline)

/-- The packets of an entity in a direction. -/
def ofEntity (d : Direction) (e : EntityId) (x : Passage) : Bool :=
  x.packet.direction = d ∧ x.entity? u = some e

/-- What the limit of the entity is asked about a packet. -/
def askEntity (d : Direction) (e : EntityId) (x : Passage) : Option Offer :=
  if u.ofEntity d e x then x.entityOffer? u else none

/-- The calls leave the entity at its rate. -/
def StaysLimited (d : Direction) (e : EntityId) (rate : UInt64) : Shaper → List Event → Prop :=
  u.EveryCall fun s c => ∀ b ∈ c.beginnings, (s.call b).2.Limited d e rate

variable {u} {d : Direction} {e : EntityId}

theorem askEntity_of_ne {x : Passage} (h : ¬ (d = x.packet.direction ∧ x.entity? u = some e)) :
    u.askEntity d e x = none := by
  have hnot : u.ofEntity d e x = false := decide_eq_false fun hx => h ⟨hx.1.symm, hx.2⟩
  rw [askEntity, hnot, if_neg Bool.false_ne_true]

theorem askEntity_of_some {x : Passage} (h : d = x.packet.direction ∧ x.entity? u = some e)
    {state : EntityState} (hstate : x.shaper.entity? d e = some state) :
    u.askEntity d e x = some ⟨state.limiter, x.packet.length, x.packet.departure, x.now⟩ := by
  have hof : u.ofEntity d e x = true := decide_eq_true ⟨h.1.symm, h.2⟩
  rw [askEntity, if_pos hof, Passage.entityOffer?_of_entity u h.2, ← h.1, hstate, Option.map_some]

/-- No packet changes the rate of a limit. -/
theorem limited_packet {s : Shaper} (hwell : s.WellFormed) {rate : UInt64} (h : s.Limited d e rate)
    (p : Packet) (now : UInt64) : (u.step s (.packet p now)).Limited d e rate := by
  have hafter := u.entity?_packet hwell p now d e
  dsimp only at hafter
  rw [Shaper.Limited, hafter]
  split
  · obtain ⟨state, hstate, hrate⟩ := Option.map_eq_some_iff.mp h
    rw [hstate, Option.map_some, Option.map_some, state.rate_gate, hrate]
  · exact h

/-- **Every packet of a run meets the entity limited** to the rate at which the calls leave it. -/
theorem limited_run {s : Shaper} (hwell : s.WellFormed) {rate : UInt64} (hlim : s.Limited d e rate)
    {events : List Event} (hcalls : u.StaysLimited d e rate s events) :
    ∀ x ∈ u.passages s events, ∃ state, x.shaper.entity? d e = some state ∧
      state.limiter.rate = rate := by
  intro x hx
  have hrun := u.invariant (P := fun s => s.WellFormed ∧ s.Limited d e rate)
    (fun _ p now h => ⟨u.wellFormed_step h.1 _, limited_packet h.1 h.2 p now⟩)
    (fun _ c h hc => ⟨u.wellFormed_step h.1 (.call c), hc c c.self_mem_beginnings⟩) events
    ⟨hwell, hlim⟩ hcalls
  obtain ⟨state, hstate, hrate⟩ := Option.map_eq_some_iff.mp (hrun.2 x hx).2
  exact ⟨state, hstate, hrate⟩

/-- **The limiter of an entity sees one course of offers.** -/
theorem course_entity (events : List Event) {s : Shaper} {state : EntityState} (hwell : s.WellFormed)
    (hstate : s.entity? d e = some state)
    (hcalls : u.StaysLimited d e state.limiter.rate s events) :
    Course (u.options.stages.get d).entity state.limiter
      ((u.passages s events).filterMap (u.askEntity d e)) := by
  induction events generalizing s state with
  | nil => trivial
  | cons event events ih =>
    cases event with
    | call c =>
      have hsame := Shaper.entity?_call hwell hstate hcalls.1
      exact ih (u.wellFormed_step hwell (.call c)) hsame hcalls.2
    | packet p now =>
      have hwell' := u.wellFormed_step hwell (.packet p now)
      have hafter := u.entity?_packet hwell p now d e
      rw [hstate] at hafter
      dsimp only at hafter
      rw [passages]
      by_cases hx : d = p.direction ∧ (⟨s, p, now⟩ : Passage).entity? u = some e
      · have hgate := (state.gate_spec (u.options.stages.get p.direction).entity p.length p.departure
          now).2
        rw [if_pos hx, Option.map_some, Passage.stages] at hafter
        rw [List.filterMap_cons_some (askEntity_of_some (x := ⟨s, p, now⟩) hx hstate)]
        have hcourse := ih hwell' hafter (by rw [EntityState.rate_gate]; exact hcalls)
        rw [hgate, ← hx.1] at hcourse
        exact ⟨⟨state.limiter.rate, rfl⟩, hcourse⟩
      · rw [if_neg hx] at hafter
        rw [List.filterMap_cons_none (askEntity_of_ne (x := ⟨s, p, now⟩) hx)]
        exact ih hwell' hafter hcalls

/-- What the limiter of the entity is asked about a packet of a run. -/
theorem askEntity_eq_some {x : Passage} {y : Offer} (h : u.askEntity d e x = some y)
    {state : EntityState} (hstate : x.shaper.entity? d e = some state) :
    y = ⟨state.limiter, x.packet.length, x.packet.departure, x.now⟩ := by
  by_cases hx : d = x.packet.direction ∧ x.entity? u = some e
  · rw [askEntity_of_some hx hstate] at h
    exact (Option.some_inj.mp h).symm
  · rw [askEntity_of_ne hx] at h
    cases h

/-- A packet of the entity that is let go was let pass by the limiter of the entity, and leaves when that
said or when the cap of its tier said. -/
theorem exists_askEntity {x : Passage} {state : EntityState}
    (hstate : x.shaper.entity? d e = some state) (hof : u.ofEntity d e x = true)
    (hpass : x.passes u = true) :
    ∃ y, u.askEntity d e x = some y ∧ y.passes (u.options.stages.get d).entity = true ∧
      (x.leaves u = y.leaves (u.options.stages.get d).entity ∨
        ∃ z : Offer, z.passes (u.options.stages.get d).global = true ∧ z.now = x.now ∧
          z.departure = (y.answer (u.options.stages.get d).entity).departure ∧
          x.leaves u = z.leaves (u.options.stages.get d).global) := by
  obtain ⟨hd, he⟩ := of_decide_eq_true hof
  have hask := askEntity_of_some (u := u) ⟨hd.symm, he⟩ hstate
  have hoffer := hask
  rw [askEntity, if_pos hof] at hoffer
  obtain ⟨hy, hleaves⟩ := Passage.passes_entity u hpass hoffer
  have hstages : x.stages u = u.options.stages.get d := by rw [Passage.stages, hd]
  rw [hstages] at hy hleaves
  refine ⟨_, hask, hy, hleaves.imp id ?_⟩
  rintro ⟨t, z, hz, hzpass, hzdep, hzleaves⟩
  exact ⟨z, hzpass, (Passage.tierOffer?_eq_some u hz).2.2.2.2.1, hzdep, hzleaves⟩

/-- **Token buckets**: in a window of time an entity gets no more than its bucket holds and earns. -/
theorem bytesBetween_ofEntity_le {s : Shaper} (hwell : s.WellFormed) {rate : UInt64}
    (hlim : s.Limited d e rate) {events : List Event} (hcalls : u.StaysLimited d e rate s events)
    (hearly : ∀ x ∈ u.passages s events, x.now ≠ never)
    (hstage : (u.options.stages.get d).entity = .tokenBucket) (hmin : TokenBucket.minimumRate ≤ rate)
    (hsorted : (u.passages s events).Pairwise fun x y => x.now ≤ y.now) (t1 t2 : Nat) :
    u.bytesBetween (u.ofEntity d e) t1 t2 (u.passages s events)
      ≤ rate.toNat + rate.toNat * (t2 - t1) / 10 ^ 9 := by
  obtain ⟨state, hstate, hrate⟩ := Option.map_eq_some_iff.mp hlim
  have hcourse := course_entity events hwell hstate (hrate ▸ hcalls)
  have hstates := limited_run hwell hlim hcalls
  rw [hstage] at hcourse
  refine Nat.le_trans (bytesBetween_le t1 t2 fun x hx hof hpass => ?_)
    (TokenBucket.windowBytes_le t1 t2 hcourse (fun y hy => ?_) ?_)
  · obtain ⟨state', hstate', -⟩ := hstates x hx
    obtain ⟨y, hask, hy, -⟩ := exists_askEntity hstate' hof hpass
    rw [hstage] at hy
    have hyeq := askEntity_eq_some hask hstate'
    exact ⟨y, hask, hy, by rw [hyeq], by rw [hyeq]⟩
  · obtain ⟨x, hx, hask⟩ := List.mem_filterMap.mp hy
    obtain ⟨state', hstate', hrate'⟩ := hstates x hx
    rw [askEntity_eq_some hask hstate']
    exact ⟨hrate' ▸ hmin, Nat.le_of_eq (congrArg UInt64.toNat hrate'), hearly x hx⟩
  · refine List.pairwise_filterMap.mpr (hsorted.imp_of_mem fun {x x'} hx hx' hle y hy y' hy' => ?_)
    obtain ⟨state', hstate', -⟩ := hstates x hx
    obtain ⟨state'', hstate'', -⟩ := hstates x' hx'
    rw [askEntity_eq_some hy hstate', askEntity_eq_some hy' hstate'']
    exact hle

/-- **Pacers**: the packets of an entity take as long to be sent as they are apart when they leave, up to
the two seconds by which the second gate may delay one of them. -/
theorem sendingTime_ofEntity_lt {s : Shaper} (hwell : s.WellFormed) {rate : UInt64}
    (hlim : s.Limited d e rate) {events : List Event} (hcalls : u.StaysLimited d e rate s events)
    (hearly : ∀ x ∈ u.passages s events, Pacer.Early x.now ∧ Pacer.Early x.packet.departure)
    (hstages : u.options.stages.get d = ⟨.pacer, .pacer⟩) (hpos : rate ≠ 0) (a b : Nat) :
    u.sendingTime (u.ofEntity d e) rate a b (u.passages s events) < b - a + 2 * 10 ^ 9 := by
  obtain ⟨state, hstate, hrate⟩ := Option.map_eq_some_iff.mp hlim
  have hcourse := course_entity events hwell hstate (hrate ▸ hcalls)
  have hstates := limited_run hwell hlim hcalls
  have hpaces : ∀ y ∈ (u.passages s events).filterMap (u.askEntity d e), Pacer.Paces rate y := by
    intro y hy
    obtain ⟨x, hx, hask⟩ := List.mem_filterMap.mp hy
    obtain ⟨state', hstate', hrate'⟩ := hstates x hx
    obtain ⟨hnow, hdep⟩ := hearly x hx
    rw [askEntity_eq_some hask hstate']
    exact ⟨hrate' ▸ hpos, Nat.le_of_eq (congrArg UInt64.toNat hrate'), hnow, hdep.ne_never⟩
  rw [hstages] at hcourse
  refine sendingTime_lt a b (by decide) (Pacer.pairwise_spaced hcourse hpaces) fun x hx hof hpass => ?_
  obtain ⟨state', hstate', -⟩ := hstates x hx
  obtain ⟨y, hask, hy, hleaves⟩ := exists_askEntity hstate' hof hpass
  have hyeq := askEntity_eq_some hask hstate'
  have hnow : y.now = x.now := by rw [hyeq]
  rw [hstages] at hy hleaves
  dsimp only at hy hleaves
  refine ⟨y, hask, hy, by rw [hyeq], ?_⟩
  have hyl : (y.leaves .pacer).toNat = max (y.answer .pacer).departure.toNat y.now.toNat :=
    Word.toNat_max _ _
  rcases hleaves with hsame | ⟨z, hz, hznow, hzdep, hlater⟩
  · rw [hsame]
    omega
  · have hlt : (y.leaves .pacer).toNat < never.toNat := by
      obtain ⟨hne, -, hearly', hdep'⟩ := hpaces y (List.mem_filterMap.mpr ⟨x, hx, hask⟩)
      rcases Pacer.offer_spec hne hearly' hdep' with ⟨hdrop, -⟩ | hpassed
      · rw [hdrop] at hy
        cases hy
      · exact hpassed.leaves_lt
    have hnever : z.departure ≠ never := by
      rw [hzdep]
      intro h
      rw [hyl, h] at hlt
      omega
    have hnear := Pacer.leaves_near (hznow ▸ (hearly x hx).1) hnever hz
    rw [hzdep, hznow, ← hnow, ← hyl, Pacer.toNat_horizon] at hnear
    rw [hlater]
    exact hnear

end Pipeline

/-- **The limit of an entity holds**, whatever else happens. -/
theorem Shaper.entity_limit_holds (u : Pipeline) {s : Shaper} (hs : s.Reachable) {d : Direction}
    {e : EntityId} {rate : UInt64} (hlim : s.Limited d e rate) (events : List Event)
    (hcalls : u.StaysLimited d e rate s events)
    (hearly : ∀ x ∈ u.passages s events, Pacer.Early x.now ∧ Pacer.Early x.packet.departure) :
    ((u.options.stages.get d).entity = .tokenBucket → TokenBucket.minimumRate ≤ rate →
      ((u.passages s events).Pairwise fun x y => x.now ≤ y.now) →
      ∀ t1 t2, u.bytesBetween (u.ofEntity d e) t1 t2 (u.passages s events)
        ≤ rate.toNat + rate.toNat * (t2 - t1) / 10 ^ 9) ∧
    (u.options.stages.get d = ⟨.pacer, .pacer⟩ → rate ≠ 0 →
      ∀ a b, u.sendingTime (u.ofEntity d e) rate a b (u.passages s events)
        < b - a + 2 * 10 ^ 9) :=
  ⟨fun hstage hmin hsorted => Pipeline.bytesBetween_ofEntity_le hs.wellFormed hlim hcalls
      (fun x hx => (hearly x hx).1.ne_never) hstage hmin hsorted,
    fun hstages hpos => Pipeline.sendingTime_ofEntity_lt hs.wellFormed hlim hcalls hearly hstages hpos⟩

/-! ## Cases

One entity, which all packets belong to, with a limit of a megabyte per second in both directions. -/

namespace OneEntity

/-- Every packet belongs to entity 7, and to no tier. -/
def pipeline : Pipeline := ⟨.standard, .constant (some ⟨7, none⟩)⟩

/-- The entity is limited. -/
def shaper : Shaper := pipeline.step (.empty 1) (.call (.writeRates 7 (.const 1000000)))

theorem limited (d : Direction) : shaper.Limited d 7 1000000 := by
  cases d <;> decide

/-- A packet of a megabyte. -/
def packet (d : Direction) : Packet := ⟨1000000, d, 0, some ⟨.v4 0, .v4 0⟩, 3⟩

/-- Between two packets of a direction the limit is written once more. -/
def events (d : Direction) : List Event :=
  [.packet (packet d) 0, .call (.writeRates 7 (.const 1000000)), .packet (packet d) 1000000000]

/-- A configuration that names the entity twice, the first time with another rate. -/
def repetition : Config :=
  ⟨.const .unset,
    [{ Pod.blank with entity := 7, receiveRate := 2000000 },
      { Pod.blank with entity := 7, receiveRate := 1000000 }], .standard⟩

end OneEntity

section

open OneEntity

/-- Both directions of one entity: a second apart, two packets of a megabyte get through. -/
theorem Shaper.entity_limit_holds_for_one :
    pipeline.bytesBetween (pipeline.ofEntity .ingress 7) 0 1000000000
        (pipeline.passages shaper (events .ingress)) ≤ 1000000 + 1000000 * (1000000000 - 0) / 10 ^ 9 ∧
      pipeline.sendingTime (pipeline.ofEntity .egress 7) 1000000 0 1000000000
        (pipeline.passages shaper (events .egress)) < 1000000000 - 0 + 2 * 10 ^ 9 :=
  ⟨(entity_limit_holds pipeline (.step pipeline _ (.empty 1)) (limited .ingress) (events .ingress)
      ⟨by decide, trivial⟩ (by decide)).1 rfl (by decide) (by decide) 0 1000000000,
    (entity_limit_holds pipeline (.step pipeline _ (.empty 1)) (limited .egress) (events .egress)
      ⟨by decide, trivial⟩ (by decide)).2 rfl (by decide) 0 1000000000⟩

/-- It is not enough that the entity is limited to its rate when a call is over.  A configuration that
names it twice may change the rate and change it back, and then the bucket is as good as new. -/
theorem Shaper.entity_limit_lost_by_repetition :
    ¬ ∀ (u : Pipeline) (s : Shaper) (d : Direction) (e : EntityId) (rate : UInt64)
        (events : List Event), s.Reachable → s.Limited d e rate →
      u.EveryCall (fun s c => (s.call c).2.Limited d e rate) s events →
      (∀ x ∈ u.passages s events, Pacer.Early x.now ∧ Pacer.Early x.packet.departure) →
      (u.options.stages.get d).entity = .tokenBucket → TokenBucket.minimumRate ≤ rate →
      ((u.passages s events).Pairwise fun x y => x.now ≤ y.now) →
      ∀ t1 t2, u.bytesBetween (u.ofEntity d e) t1 t2 (u.passages s events)
        ≤ rate.toNat + rate.toNat * (t2 - t1) / 10 ^ 9 := by
  intro h
  have hbytes := h pipeline shaper .ingress 7 1000000
    [.packet (packet .ingress) 0, .call (.apply repetition), .packet (packet .ingress) 0]
    (.step pipeline _ (.empty 1)) (by decide) ⟨by decide, trivial⟩ (by decide) rfl (by decide)
    (by decide) 0 0
  exact absurd hbytes (by decide)

end

end Shaping
