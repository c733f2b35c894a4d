import Shaping.Proofs.Address.Keys
import Shaping.Proofs.Control.Refinement

/-!
# What is read back

A shaper that mirrors a registry is read as the registry is: the directory and the rates are listed in the
order of their keys, whatever order the tables keep, and an address is resolved to the entity that it was
entered for (`Mirrors.pods_eq`, `Mirrors.entityRates_eq`, `Mirrors.resolve_eq`).

The rates of both directions are merged by sorting the entities of both and dropping repeats.  That leaves
every entity once and in order (`mem_dropRepeats`, `ascending_dropRepeats`), which is all that has to be
known of it.

`Pipeline.run_refines_registry` puts it together with how the calls of a run go, and with what becomes of
limiters whose rates are written.

The merged list is the same as that of the registry because both are in strict order and have the same
elements, and there is only one such list.  To follow the sorting and dropping step by step would be of no
use: the tables are listed by their slots, and where a key has its slot depends on the hash.
-/

set_option autoImplicit false

namespace Shaping

/-! ## Lists without repeats -/

namespace Shaper

theorem mem_dropRepeats {e : EntityId} {l : List EntityId} : e ∈ dropRepeats l ↔ e ∈ l := by
  induction l using dropRepeats.induct with
  | case1 => rfl
  | case2 f => rfl
  | case3 f rest ih =>
    rw [dropRepeats, if_pos rfl, ih]
    simp
  | case4 f g rest hne ih =>
    rw [dropRepeats, if_neg hne, List.mem_cons, ih, ← List.mem_cons]

theorem ascending_dropRepeats {l : List EntityId} (h : l.Pairwise (· ≤ ·)) :
    (dropRepeats l).Pairwise (· < ·) := by
  induction l using dropRepeats.induct with
  | case1 => exact .nil
  | case2 f => exact List.pairwise_singleton _ _
  | case3 f rest ih =>
    rw [dropRepeats, if_pos rfl]
    exact ih h.of_cons
  | case4 f g rest hne ih =>
    rw [dropRepeats, if_neg hne]
    refine .cons (fun e he => ?_) (ih h.of_cons)
    have hfg : f < g := UInt64.lt_of_le_of_ne (List.rel_of_pairwise_cons h (by simp)) hne
    rw [mem_dropRepeats, List.mem_cons] at he
    rcases he with rfl | he
    · exact hfg
    · exact UInt64.lt_of_lt_of_le hfg (List.rel_of_pairwise_cons h.of_cons he)

end Shaper

/-! ## Listings of a registry -/

namespace Registry

variable {capacity : Nat} {m : Registry}

/-- Keys that are sorted are in strict order. -/
theorem ascending_pods (m : Registry) :
    m.pods.Pairwise fun p q => p.address.key < q.address.key := by
  rw [pods, List.pairwise_filterMap]
  have hsorted := (m.addresses.keys.pairwise_sort (· ≤ ·)).and (m.addresses.keys.sort_nodup (· ≤ ·))
  refine hsorted.imp fun {key key'} hkeys p hp q hq => ?_
  obtain ⟨entry, -, rfl⟩ := Option.map_eq_some_iff.mp hp
  obtain ⟨entry', -, rfl⟩ := Option.map_eq_some_iff.mp hq
  rw [AddressKey.key_address, AddressKey.key_address]
  exact Std.lt_of_le_of_ne hkeys.1 hkeys.2

theorem ascending_entityRates (m : Registry) :
    m.entityRates.Pairwise fun x y => x.entity < y.entity := by
  rw [entityRates, List.pairwise_map]
  have hsorted := ((m.rates.ingress.keys ∪ m.rates.egress.keys).pairwise_sort (· ≤ ·)).and
    ((m.rates.ingress.keys ∪ m.rates.egress.keys).sort_nodup (· ≤ ·))
  exact hsorted.imp fun hids => UInt64.lt_of_le_of_ne hids.1 hids.2

/-- A rate that is shown as zero is missing. -/
theorem Sound.getD_lookup_eq_zero_iff (h : m.Sound capacity) (d : Direction) (e : EntityId) :
    ((m.rates.get d).lookup e).getD 0 = 0 ↔ (m.rates.get d).lookup e = none := by
  have hne := h.limited d e
  cases hrate : (m.rates.get d).lookup e with
  | none => simp
  | some rate =>
    rw [hrate] at hne
    simpa using hne

end Registry

/-! ## Listings of a shaper -/

namespace Mirrors

variable {capacity : Nat} {s : Shaper} {m : Registry}

theorem pods_eq (h : Mirrors capacity s m) : s.pods = m.pods :=
  h.directory.listing fun key entry => (⟨key.address, entry.entity, entry.classId⟩ : PodInfo)

theorem limitedEntities_eq (h : Mirrors capacity s m) : s.limitedEntities = m.limitedEntities := by
  have hsorted := Shaper.ascending_dropRepeats (ascending_mergeSort
    ((s.lane .ingress).entities.toList.map (·.1) ++ (s.lane .egress).entities.toList.map (·.1)))
  refine eq_of_ascending (hsorted.imp UInt64.le_of_lt) (Finset.pairwise_sort _ _)
    (hsorted.imp UInt64.ne_of_lt) (Finset.sort_nodup _ _) fun e => ?_
  rw [Shaper.limitedEntities, Shaper.mem_dropRepeats, List.mem_mergeSort, List.mem_append,
    Registry.limitedEntities, Finset.mem_sort, Finset.mem_union]
  exact or_congr ((h.entities .ingress).mem_map_fst e) ((h.entities .egress).mem_map_fst e)

theorem entityRates_eq (h : Mirrors capacity s m) : s.entityRates = m.entityRates := by
  rw [Shaper.entityRates, Registry.entityRates, h.limitedEntities_eq]
  simp only [h.rate_eq, PerDirection.get]

/-- An address is resolved to the entity that it was entered for. -/
theorem resolve_eq (h : Mirrors capacity s m) (hsound : m.Sound capacity) (a : Address) :
    s.directory.resolve a = m.resolve a := by
  have hlook := h.directory.lookup a.key
  rw [Option.map_id_apply] at hlook
  rw [Directory.resolve, Registry.resolve, hlook]
  cases hentry : m.addresses.lookup a.key with
  | none => rfl
  | some entry =>
    dsimp only
    rw [if_neg (hsound.owned _ _ hentry), Option.map_some]

end Mirrors

/-! ## Bookkeeping -/

namespace Shaper

/-- The rate of an entity, if it is limited. -/
def rate? (s : Shaper) (d : Direction) (e : EntityId) : Option UInt64 :=
  (s.entity? d e).map (·.limiter.rate)

/-- The limiter of an entity, with all its bookkeeping. -/
def limiter? (s : Shaper) (d : Direction) (e : EntityId) : Option Limiter :=
  (s.entity? d e).map (·.limiter)

/-- A limiter starts anew if it has another rate, and is as before if it has not. -/
def ResetsChanged (before after : Shaper) : Prop :=
  ∀ d e, after.limiter? d e =
    if after.rate? d e = before.rate? d e then before.limiter? d e
    else (after.rate? d e).map Limiter.idle

theorem Rewrites.resetsChanged {before after : Shaper} (h : before.Rewrites after) :
    before.ResetsChanged after := by
  intro d e
  split
  · rename_i hrate
    rw [limiter?, (h d e).eq_of_rate_eq hrate, limiter?]
  · rename_i hrate
    exact (h d e).eq_idle_of_rate_ne hrate

end Shaper

/-! ## The whole -/

/-- **The control plane keeps three finite maps of bounded size.**  After any run from an empty shaper, in
which calls and packets alternate as they like, the calls went as they are supposed to go, with the same
failures; what is read back is what is supposed to be known; addresses and entities are listed in strict
order, and a rate of zero is shown for a direction only if there is none; and no map is larger than it may
be.  Whatever is called next, pod by pod, a limiter is reset if its rate changes, and else left alone. -/
theorem Pipeline.run_refines_registry (u : Pipeline) (maxEntries : Nat) (events : List Event) :
    let capacity := max maxEntries 1
    let s := u.after (Shaper.empty maxEntries) events
    let model := Registry.run capacity .blank events
    u.results (Shaper.empty maxEntries) events = model.1 ∧
      s.pods = model.2.pods ∧
      s.entityRates = model.2.entityRates ∧
      (∀ a, s.directory.resolve a = model.2.resolve a) ∧
      (s.pods.Pairwise fun p q => p.address.key < q.address.key) ∧
      (s.entityRates.Pairwise fun x y => x.entity < y.entity) ∧
      (∀ row ∈ s.entityRates,
        (row.receiveRate = 0 ↔ model.2.rates.ingress.lookup row.entity = none) ∧
        (row.sendRate = 0 ↔ model.2.rates.egress.lookup row.entity = none)) ∧
      model.2.addresses.keys.card ≤ capacity ∧
      (∀ d, (model.2.rates.get d).keys.card ≤ capacity) ∧
      ∀ c : Call, List.IsChain Shaper.ResetsChanged (s :: c.beginnings.map fun b => (s.call b).2) := by
  intro capacity s model
  obtain ⟨hresults, hmirrors⟩ := u.mirrors_run events (mirrors_empty maxEntries)
  have hsound : model.2.Sound capacity := (Registry.sound_blank capacity).run events
  have hrates : s.entityRates = model.2.entityRates := hmirrors.entityRates_eq
  refine ⟨hresults, hmirrors.pods_eq, hrates, hmirrors.resolve_eq hsound, ?_, ?_, fun row hrow => ?_,
    hsound.fits.1, hsound.fits.2, fun c => ?_⟩
  · rw [hmirrors.pods_eq]
    exact model.2.ascending_pods
  · rw [hrates]
    exact model.2.ascending_entityRates
  · rw [hrates] at hrow
    obtain ⟨e, -, rfl⟩ := List.mem_map.mp hrow
    exact ⟨hsound.getD_lookup_eq_zero_iff .ingress e, hsound.getD_lookup_eq_zero_iff .egress e⟩
  · exact (Shaper.rewrites_call hmirrors.wellFormed c).imp fun _ _ h => h.resetsChanged

end Shaping
