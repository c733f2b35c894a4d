import Shaping.Proofs.Shaper.Run
import Mathlib.Data.List.Range

/-!
# Entities whose rate is written

A rate that is in force already is not written again, and a new rate starts with a limiter that was not
used yet.  So there are three things that the control plane can make of an entity: it leaves it alone, or
takes its limit away, or gives it a rate that it did not have (`Rewritten`).

No operation but one writes the rate of one entity twice.  That one is to put a whole configuration into
force, which may name an entity more than once; it does one of the three with each of its pods
(`Call.beginnings`, `Shaper.rewrites_call`).

An operation that finds an entity limited to some rate and leaves it limited to that rate has therefore
not touched its bookkeeping.  That is the law `Shaper.entity?_call`, and it says of a limiter what a frame
rule would, though the entity in question may be the one that the call is about.

`Control.Settled` is what an operation leads to and not what it keeps: two operations that both rewrite an
entity may bring it back to its first rate with a limiter that was not used.  That is why a configuration is
cut into its beginnings.  Between two of them there is one pod, which writes each entity once in each
direction; so a limiter can be compared from one beginning to the next, and a chain of them is what is said
of the call.
-/

set_option autoImplicit false

namespace Shaping

/-- The entity is limited to that rate. -/
def Shaper.Limited (s : Shaper) (d : Direction) (e : EntityId) (rate : UInt64) : Prop :=
  (s.entity? d e).map (·.limiter.rate) = some rate

instance (s : Shaper) (d : Direction) (e : EntityId) (rate : UInt64) : Decidable (s.Limited d e rate) :=
  inferInstanceAs (Decidable (_ = _))

/-- What a call is made of.  A configuration is put into force one pod after the other. -/
def Call.beginnings : Call → List Call
  | .apply config =>
    (List.range (config.pods.length + 1)).map fun n =>
      .apply { config with pods := config.pods.take n }
  | c => [c]

/-- What can become of the state of an entity, or of there being none, by writing rates. -/
inductive Rewritten (before : Option EntityState) : Option EntityState → Prop
  /-- It is left alone. -/
  | kept : Rewritten before before
  /-- There is no limit any more. -/
  | lifted : Rewritten before none
  /-- There is another rate, and a limiter that was not used.  The account goes on. -/
  | replaced (rate : UInt64) (h : before.map (·.limiter.rate) ≠ some rate) :
    Rewritten before (some ⟨.idle rate, (before.getD .fresh).counters⟩)

/-- What keeps its rate is left alone. -/
theorem Rewritten.eq_of_rate_eq {before after : Option EntityState} (h : Rewritten before after)
    (hrate : after.map (·.limiter.rate) = before.map (·.limiter.rate)) : after = before := by
  cases h with
  | kept => rfl
  | lifted => exact (Option.map_eq_none_iff.mp hrate.symm).symm
  | replaced rate h => exact absurd hrate.symm h

/-- What gets another rate starts with an unused limiter. -/
theorem Rewritten.eq_idle_of_rate_ne {before after : Option EntityState} (h : Rewritten before after)
    (hrate : after.map (·.limiter.rate) ≠ before.map (·.limiter.rate)) :
    after.map (·.limiter) = (after.map (·.limiter.rate)).map Limiter.idle := by
  cases h with
  | kept => exact absurd rfl hrate
  | lifted => rfl
  | replaced rate h => rfl

/-- Each entity, in each direction, was rewritten at most once. -/
def Shaper.Rewrites (before after : Shaper) : Prop :=
  ∀ d e, Rewritten (before.entity? d e) (after.entity? d e)

namespace Control

variable {d : Direction} {e : EntityId} {o : Option EntityState}

/-- The tables are well-formed, and an entity is in the named state, or has none. -/
def Found (d : Direction) (e : EntityId) (o : Option EntityState) (s : Shaper) : Prop :=
  s.WellFormed ∧ s.entity? d e = o

/-- The tables are well-formed, and the named state of an entity was rewritten at most once. -/
def Settled (d : Direction) (e : EntityId) (o : Option EntityState) (s : Shaper) : Prop :=
  s.WellFormed ∧ Rewritten o (s.entity? d e)

theorem Found.settled (s : Shaper) (h : Found d e o s) : Settled d e o s := ⟨h.1, h.2 ▸ .kept⟩

/-- What does not touch an entity keeps it settled. -/
theorem keeps_settled {α : Type} {op : Control α} (h : ∀ o, Keeps (Found d e o) op) :
    Keeps (Settled d e o) op := by
  intro c hc
  obtain ⟨hwell, hsame⟩ := h (c.shaper.entity? d e) c ⟨hc.1, rfl⟩
  exact ⟨hwell, hsame.symm ▸ hc.2⟩

/-- Writing a rate leaves the entity alone if it is the rate in force. -/
theorem leads_writeRateIn (rate : UInt64) :
    Leads (Found d e o) (Settled d e o) (writeRateIn e d rate) := by
  rintro ⟨s, notes⟩ ⟨hwell, hstate⟩
  rw [writeRateIn]
  split
  · rw [run_bind, run_alter]
    have hafter : Settled d e o (s.eraseEntity d e).2 :=
      ⟨Shaper.stable_wellFormed.eraseEntity s d e trivial hwell,
        Shaper.entity?_eraseEntity hwell d e ▸ .lifted⟩
    dsimp only
    split
    · exact hafter
    · exact hafter
  · rw [run_bind, run_inspect, hstate]
    dsimp only
    split
    · rename_i hother
      rw [run_bind, run_within, run_attempt]
      cases hc : s.claimEntity d e with
      | error full => exact ⟨hwell, hstate ▸ .kept⟩
      | ok r =>
        obtain ⟨created, s'⟩ := r
        have hwell' := Shaper.stable_wellFormed.claimEntity s d e created s' trivial hwell hc
        have hclaimed : s'.entity? d e = some (o.getD .fresh) :=
          hstate ▸ Shaper.entity?_claimEntity hwell hc
        dsimp only
        rw [run_bind, run_change]
        refine ⟨Shaper.stable_wellFormed.modifyEntity s' d e _ trivial hwell', ?_⟩
        dsimp only [run_note]
        rw [Shaper.entity?_modifyEntity hwell', hclaimed]
        exact .replaced rate hother
    · exact ⟨hwell, hstate ▸ .kept⟩

/-- What is written in the other direction, or for another entity, does not matter. -/
theorem keeps_writeRateIn {d' : Direction} {e' : EntityId} (h : d' ≠ d ∨ e' ≠ e) (rate : UInt64)
    (o : Option EntityState) : Keeps (Found d e o) (writeRateIn e' d' rate) :=
  (Shaper.stable_entity d e o).writeRateIn h rate

/-- The limits of the entity itself, in both directions. -/
theorem leads_writeBoth (rates : Direction → UInt64) :
    Leads (Found d e o) (Settled d e o)
      (Direction.all.forM fun d => writeRateIn e d (rates d)) := by
  cases d with
  | ingress =>
    refine (leads_writeRateIn _).bind (fun _ h => h) fun _ => Keeps.forM fun d' hd' => ?_
    rw [List.mem_singleton.mp hd']
    exact keeps_settled (keeps_writeRateIn (Or.inl (by decide)) _)
  | egress =>
    refine Leads.bind (keeps_writeRateIn (Or.inl (by decide)) _ _) Found.settled fun _ => ?_
    exact (leads_writeRateIn _).bind (fun _ h => h) fun _ => Keeps.pure _

/-- What does not touch the entity at all leaves it settled. -/
theorem Keeps.leads_settled {α : Type} {op : Control α} (h : Keeps (Found d e o) op) :
    Leads (Found d e o) (Settled d e o) op :=
  fun c hc => (h c hc).settled

/-- Limits, of this entity or another. -/
theorem leads_writeRates (e' : EntityId) (rates : PerDirection UInt64) :
    Leads (Found d e o) (Settled d e o) (writeRates e' rates) := by
  by_cases he : e' = e
  · subst he
    rw [writeRates]
    split
    · exact Leads.bind (Keeps.throw _) Found.settled fun _ => leads_writeBoth rates.get
    · exact leads_writeBoth rates.get
  · exact ((Shaper.stable_entity d e o).writeRates (fun _ => Or.inr he) rates).leads_settled

/-- To take limits away is to write rate zero. -/
theorem deleteRates_eq (e : EntityId) :
    deleteRates e = Direction.all.forM fun d => writeRateIn e d 0 := by
  simp only [deleteRates, writeRateIn, if_true]

theorem leads_deleteRates (e' : EntityId) :
    Leads (Found d e o) (Settled d e o) (deleteRates e') := by
  by_cases he : e' = e
  · subst he
    rw [deleteRates_eq]
    exact leads_writeBoth fun _ => 0
  · exact ((Shaper.stable_entity d e o).deleteRates fun _ => Or.inr he).leads_settled

/-- A pod, of this entity or another. -/
theorem leads_writePod (pod : Pod) :
    Leads (Found d e o) (Settled d e o) (writePod pod) := by
  have haddress : Keeps (Found d e o) (pod.addresses.forM (writeAddress pod)) :=
    .forM fun a _ => (Shaper.stable_entity d e o).writeAddress pod a
  have hall := Leads.bind haddress Found.settled fun _ =>
    leads_writeRates pod.entity ⟨pod.receiveRate, pod.sendRate⟩
  rw [writePod]
  split
  · exact (Keeps.note _).leads_settled
  · split
    · exact Leads.bind (Keeps.throw _) Found.settled fun _ => hall
    · exact hall

/-! ## Calls

The beginnings of a call are calls themselves, each of them from the shaper at the start.  So nothing has to
be said about shapers in the middle of a call.  That the longer one goes on where the shorter one ended is
an equation between operations (`Control.apply_take_succ`), and it is good for beginnings that fail, too:
then both end at the same place. -/

/-- A configuration is put into force pod after pod. -/
theorem apply_take_succ (config : Config) {n : Nat} {pod : Pod} (h : config.pods[n]? = some pod) :
    apply { config with pods := config.pods.take (n + 1) } = (do
      apply { config with pods := config.pods.take n }
      within (.applyingPod pod.id) (writePod pod)) := by
  simp only [apply, List.take_add_one, h, Option.toList_some, List.forM_eq_forM, List.forM_append,
    List.forM_cons, List.forM_nil, bind_assoc, bind_pure_unit]

/-- The call of an operation that writes the limits of an entity at most once. -/
theorem leads_call {c : Call} (h : ∀ config, c ≠ .apply config) :
    Leads (Found d e o) (Settled d e o) c.control := by
  have hstable := Shaper.stable_entity d e o
  cases c with
  | writePlans plans => exact (hstable.writePlans plans).leads_settled
  | writePod pod => exact leads_writePod pod
  | deletePod pod => exact (hstable.deletePod pod).leads_settled
  | writeRates e' rates => exact leads_writeRates e' rates
  | deleteRates e' => exact leads_deleteRates e'
  | apply config => exact absurd rfl (h config)

end Control

/-- A call is the last of its beginnings. -/
theorem Call.self_mem_beginnings (c : Call) : c ∈ c.beginnings := by
  cases c with
  | apply config =>
    refine List.mem_map.mpr ⟨config.pods.length, List.mem_range.mpr (Nat.lt_succ_self _), ?_⟩
    rw [List.take_length]
  | _ => exact List.mem_singleton.mpr rfl

namespace Shaper

variable {s : Shaper}

/-- A configuration without pods writes no rates. -/
theorem rewrites_apply_nil (h : s.WellFormed) (config : Config) :
    s.Rewrites (s.call (.apply { config with pods := config.pods.take 0 })).2 := by
  intro d e
  have hkeeps : Control.Keeps (Control.Found d e (s.entity? d e))
      (Control.apply { config with pods := config.pods.take 0 }) :=
    (stable_entity d e (s.entity? d e)).apply (by simp)
  exact ((hkeeps ⟨s, #[]⟩ ⟨h, rfl⟩).settled).2

/-- Each pod of a configuration rewrites an entity at most once. -/
theorem rewrites_apply_succ (h : s.WellFormed) (config : Config) {n : Nat}
    (hn : n < config.pods.length) :
    (s.call (.apply { config with pods := config.pods.take n })).2.Rewrites
      (s.call (.apply { config with pods := config.pods.take (n + 1) })).2 := by
  intro d e
  have hfound : Control.Found d e
      ((s.call (.apply { config with pods := config.pods.take n })).2.entity? d e)
      (s.call (.apply { config with pods := config.pods.take n })).2 :=
    ⟨stable_wellFormed.call h _, rfl⟩
  have hsettled : Control.Settled d e
      ((s.call (.apply { config with pods := config.pods.take n })).2.entity? d e)
      (s.call (.apply { config with pods := config.pods.take (n + 1) })).2 := by
    rw [call, call, Call.control, Call.control,
      Control.apply_take_succ config (List.getElem?_eq_getElem hn)]
    exact Control.leads_run_bind hfound Control.Found.settled fun _ => (Control.leads_writePod _).within
  exact hsettled.2

/-- **A call rewrites each entity at most once at a time.** -/
theorem rewrites_call (h : s.WellFormed) (c : Call) :
    List.IsChain Rewrites (s :: c.beginnings.map fun b => (s.call b).2) := by
  by_cases hc : ∃ config, c = .apply config
  · obtain ⟨config, rfl⟩ := hc
    rw [Call.beginnings, List.map_map, List.isChain_cons]
    refine ⟨fun after hafter => ?_, ?_⟩
    · rw [List.range_succ_eq_map, List.map_cons, List.head?_cons, Option.mem_some] at hafter
      exact hafter ▸ rewrites_apply_nil h config
    · rw [List.isChain_map, List.isChain_range_succ]
      exact fun n hn => rewrites_apply_succ h config hn
  · have hne : ∀ config, c ≠ .apply config := fun config hconfig => hc ⟨config, hconfig⟩
    have hone : c.beginnings = [c] := by
      cases c with
      | apply config => exact absurd rfl (hne config)
      | _ => rfl
    rw [hone, List.map_singleton, List.isChain_pair]
    exact fun d e => (call_leads (Control.leads_call hne) ⟨h, rfl⟩).2

/-- **What is kept of an entity whenever it is rewritten is kept of it by every call.** -/
theorem entity?_call_of_rewritten {Q : Option EntityState → Prop}
    (hQ : ∀ {before after}, Rewritten before after → Q before → Q after) (h : s.WellFormed) (c : Call)
    {d : Direction} {e : EntityId} (hs : Q (s.entity? d e)) : Q ((s.call c).2.entity? d e) :=
  (rewrites_call h c).cons_induction (fun s => Q (s.entity? d e)) _
    (fun _ _ hrewrites => hQ (hrewrites d e)) hs _ (List.mem_map_of_mem c.self_mem_beginnings)

/-- What is at the same rate all the time is left alone all the time. -/
theorem entity?_of_isChain {d : Direction} {e : EntityId} {state : EntityState} {later : List Shaper}
    (hchain : List.IsChain Rewrites (s :: later)) (hstate : s.entity? d e = some state)
    (hlim : ∀ s' ∈ later, s'.Limited d e state.limiter.rate) :
    ∀ s' ∈ later, s'.entity? d e = some state := by
  induction later generalizing s with
  | nil => simp
  | cons s' later ih =>
    rw [List.forall_mem_cons] at hlim ⊢
    rw [List.isChain_cons_cons] at hchain
    have hsame := (hchain.1 d e).eq_of_rate_eq (hlim.1.trans (by rw [hstate]; rfl))
    rw [hstate] at hsame
    exact ⟨hsame, ih hchain.2 hsame hlim.2⟩

/-- **A call that leaves an entity at its rate leaves it alone.** -/
theorem entity?_call (h : s.WellFormed) {d : Direction} {e : EntityId} {state : EntityState}
    (hstate : s.entity? d e = some state) {c : Call}
    (hlim : ∀ b ∈ c.beginnings, (s.call b).2.Limited d e state.limiter.rate) :
    (s.call c).2.entity? d e = some state := by
  refine entity?_of_isChain (rewrites_call h c) hstate (fun s' hs' => ?_) _
    (List.mem_map_of_mem c.self_mem_beginnings)
  obtain ⟨b, hb, rfl⟩ := List.mem_map.mp hs'
  exact hlim b hb

end Shaper

end Shaping
