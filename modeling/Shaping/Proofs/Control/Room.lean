import Shaping.Proofs.Control.Checking

/-!
# Room for a configuration

Whether a configuration can be loaded does not depend on how much its pods may send, nor on whom their
addresses belong to.  A table only ever refuses a key that it does not have, so of what was written before
it is enough to know the `Keys` that are in use; and a key is refused exactly if with it there would be more
of them than there is room for (`Registry.edit_cases`).  So the writes of a configuration are all done if
and only if at no point more keys are in use than fit (`Mirrors.writes_iff`).

The order of the pods matters.  A limit of zero takes an entity out of its table, so a pod that comes later
may find room that was not there before; and a configuration from which such a pod is missing may have no
room for what comes after it.  To have room is therefore less than to fit (`Config.hasRoom_of_fits`), and
unlike that it can be lost by leaving something out.

`RoomFor` is about all beginnings of the writes and not about the end, since a table that was too small in
between may be large enough in the end.  It is taken apart at the first write (`roomFor_cons`), which is how
the writes are done, and so the equivalence is an induction with one case for each outcome of the first
write.
-/

set_option autoImplicit false

namespace Shaping

/-! ## Keys in use -/

/-- The keys under which something is kept. -/
structure Keys where
  addresses : Finset AddressKey
  limited : PerDirection (Finset EntityId)

namespace Keys

/-- No keys are in use. -/
def none : Keys := ⟨∅, .const ∅⟩

/-- No table has to hold more than it may. -/
structure Fit (capacity : Nat) (k : Keys) : Prop where
  addresses : k.addresses.card ≤ capacity
  limited : ∀ d, (k.limited.get d).card ≤ capacity

/-- The keys in use after a write. -/
def write (k : Keys) : Write → Keys
  | .address _ a => { k with addresses := insert a.key k.addresses }
  | .rate e d limit =>
    { k with limited := k.limited.modify d fun es => if limit = 0 then es.erase e else insert e es }

theorem fit_none (capacity : Nat) : none.Fit capacity :=
  ⟨Nat.zero_le _, fun d => by cases d <;> exact Nat.zero_le _⟩

/-- The keys of one direction are replaced. -/
theorem fit_modify_iff {capacity : Nat} {k : Keys} (h : k.Fit capacity) (d : Direction)
    (f : Finset EntityId → Finset EntityId) :
    Fit capacity { k with limited := k.limited.modify d f } ↔ (f (k.limited.get d)).card ≤ capacity := by
  refine ⟨fun hfit => ?_, fun hcard => ⟨h.addresses, fun d' => ?_⟩⟩
  · have hself := hfit.limited d
    rwa [PerDirection.get_modify_self] at hself
  · by_cases hd : d' = d
    · rw [hd, PerDirection.get_modify_self]
      exact hcard
    · rw [PerDirection.get_modify_of_ne _ hd]
      exact h.limited d'

end Keys

/-- At no point of the writes more keys are in use than fit. -/
def RoomFor (capacity : Nat) (k : Keys) (writes : List Write) : Prop :=
  ∀ earlier, earlier <+: writes → (earlier.foldl Keys.write k).Fit capacity

theorem roomFor_nil {capacity : Nat} {k : Keys} : RoomFor capacity k [] ↔ k.Fit capacity := by
  simp [RoomFor]

theorem roomFor_cons {capacity : Nat} {k : Keys} {w : Write} {writes : List Write} :
    RoomFor capacity k (w :: writes) ↔ k.Fit capacity ∧ RoomFor capacity (k.write w) writes := by
  constructor
  · intro h
    exact ⟨h [] List.nil_prefix, fun earlier hearlier =>
      h (w :: earlier) (List.cons_prefix_cons.mpr ⟨rfl, hearlier⟩)⟩
  · rintro ⟨hfirst, hrest⟩ earlier hearlier
    rcases List.prefix_cons_iff.mp hearlier with rfl | ⟨earlier', rfl, hprefix⟩
    · exact hfirst
    · exact hrest earlier' hprefix

theorem RoomFor.fit {capacity : Nat} {k : Keys} {writes : List Write} (h : RoomFor capacity k writes) :
    k.Fit capacity := h [] List.nil_prefix

/-! ## Writes that find room

The keys of a registry are enough to know whether a write is refused, and to know the keys after it.  So the
values drop out of the induction, and with them everything that makes one configuration different from
another with the same addresses and entities. -/

/-- **A key is refused exactly if there would be too many of them.** -/
theorem BoundedMap.put_cases {κ ν : Type} [DecidableEq κ] {capacity : Nat} {m : BoundedMap κ ν}
    (h : m.keys.card ≤ capacity) (k : κ) (v : ν) :
    (∃ m', m.put capacity k v = .ok m' ∧ m'.keys = insert k m.keys ∧ (insert k m.keys).card ≤ capacity) ∨
      ∃ full, m.put capacity k v = .error full ∧ capacity < (insert k m.keys).card := by
  cases hput : m.put capacity k v with
  | error full =>
    obtain ⟨hk, hfull, -⟩ := put_eq_error_iff.mp hput
    refine .inr ⟨full, rfl, ?_⟩
    rw [Finset.card_insert_of_notMem hk, hfull]
    exact Nat.lt_succ_self _
  | ok m' =>
    have hcard := card_put_le h hput
    obtain ⟨rfl, -⟩ := put_eq_ok hput
    have hkeys : Finmap.keys (m.insert k v) = insert k m.keys := by
      ext j
      rw [Finmap.mem_keys, Finmap.mem_insert, Finset.mem_insert, Finmap.mem_keys]
    exact .inl ⟨_, rfl, hkeys, hkeys ▸ hcard⟩

/-- What a write does to a registry. -/
def Write.edit (capacity : Nat) : Write → Edit
  | .address pod a => Registry.enter capacity ⟨pod.entity, pod.classId⟩ a
  | .rate e d limit => Registry.limit capacity e d limit

namespace Registry

/-- The keys that a registry has in use. -/
def keys (m : Registry) : Keys := ⟨m.addresses.keys, ⟨m.rates.ingress.keys, m.rates.egress.keys⟩⟩

theorem get_keys (m : Registry) (d : Direction) : m.keys.limited.get d = (m.rates.get d).keys := by
  cases d <;> rfl

/-- If the rates of one direction are replaced, so are their keys. -/
theorem keys_modify (m : Registry) {d : Direction} {f : BoundedMap EntityId UInt64 → BoundedMap EntityId UInt64}
    {g : Finset EntityId → Finset EntityId} (h : (f (m.rates.get d)).keys = g (m.rates.get d).keys) :
    keys { m with rates := m.rates.modify d f } = { m.keys with limited := m.keys.limited.modify d g } := by
  cases d with
  | ingress => exact congrArg (fun es => (⟨m.addresses.keys, ⟨es, m.rates.egress.keys⟩⟩ : Keys)) h
  | egress => exact congrArg (fun es => (⟨m.addresses.keys, ⟨m.rates.ingress.keys, es⟩⟩ : Keys)) h

/-- **A write finds room exactly if the keys that are in use afterwards fit.** -/
theorem edit_cases {capacity : Nat} {m : Registry} (h : m.keys.Fit capacity) (w : Write) :
    ((w.edit capacity m).1 = .ok () ∧ (w.edit capacity m).2.keys = m.keys.write w ∧
        (m.keys.write w).Fit capacity) ∨
      (w.edit capacity m).1 ≠ .ok () ∧ ¬ (m.keys.write w).Fit capacity := by
  cases w with
  | address pod a =>
    rw [Write.edit, enter, Keys.write]
    rcases BoundedMap.put_cases h.addresses a.key ⟨pod.entity, pod.classId⟩ with
      ⟨addresses, hput, hkeys, hcard⟩ | ⟨full, hput, hcard⟩
    · rw [hput]
      exact .inl ⟨rfl, congrArg (fun ks => (⟨ks, m.keys.limited⟩ : Keys)) hkeys, hcard, h.limited⟩
    · rw [hput]
      exact .inr ⟨(fun hok => by cases hok), fun hfit => Nat.not_le.mpr hcard hfit.addresses⟩
  | rate e d limit =>
    rw [Write.edit, Registry.limit, Keys.write, Keys.fit_modify_iff h, get_keys]
    have hcard : (m.rates.get d).keys.card ≤ capacity := get_keys m d ▸ h.limited d
    by_cases hzero : limit = 0
    · simp only [hzero, if_true]
      exact .inl ⟨trivial, m.keys_modify (Finmap.keys_erase _ _), Nat.le_trans Finset.card_erase_le hcard⟩
    · simp only [hzero, if_false]
      rcases BoundedMap.put_cases hcard e limit with ⟨rates, hput, hkeys, hcard⟩ | ⟨full, hput, hcard⟩
      · rw [hput]
        exact .inl ⟨rfl, m.keys_modify hkeys, hcard⟩
      · rw [hput]
        exact .inr ⟨(fun hok => by cases hok), Nat.not_le.mpr hcard⟩

end Registry

namespace Mirrors

variable {capacity : Nat} {s : Shaper} {m : Registry}

/-- A write goes as it goes in the registry. -/
theorem write (h : Mirrors capacity s m) (w : Write) :
    (∃ s', s.write w = .ok s' ∧ (w.edit capacity m).1 = .ok () ∧ Mirrors capacity s' (w.edit capacity m).2) ∨
      (∃ full, s.write w = .error full) ∧ (w.edit capacity m).1 ≠ .ok () := by
  have hsimulates : Control.Simulates capacity w.control (w.edit capacity) := by
    cases w with
    | address pod a => exact .writeAddress pod a
    | rate e d limit => exact .writeRateIn e d limit
  obtain ⟨hresult, hmirrors⟩ := hsimulates ⟨s, #[]⟩ m h
  rcases Control.run_write w ⟨s, #[]⟩ with ⟨s', notes, hw, hrun⟩ | ⟨full, hw, hrun⟩
  · rw [hrun] at hresult hmirrors
    exact .inl ⟨s', hw, hresult.symm, hmirrors⟩
  · rw [hrun] at hresult
    exact .inr ⟨⟨full, hw⟩, fun hok => by cases hresult.trans hok⟩

/-- **Writes are all done if and only if there is room at every point.** -/
theorem writes_iff (h : Mirrors capacity s m) (hfit : m.keys.Fit capacity) (writes : List Write) :
    (∃ s', writes.foldlM Shaper.write s = .ok s') ↔ RoomFor capacity m.keys writes := by
  induction writes generalizing s m with
  | nil => exact iff_of_true ⟨s, rfl⟩ (roomFor_nil.mpr hfit)
  | cons w writes ih =>
    rw [List.foldlM_cons, roomFor_cons]
    rcases h.write w with ⟨s', hw, hok, hmirrors⟩ | ⟨⟨full, hw⟩, hrefused⟩
    · obtain ⟨-, hkeys, hfits⟩ := (Registry.edit_cases hfit w).resolve_right fun hno => hno.1 hok
      have hrest := ih hmirrors (hkeys ▸ hfits)
      rw [hw, ← hkeys]
      exact hrest.trans (and_iff_right hfit).symm
    · obtain ⟨-, hcrowded⟩ := (Registry.edit_cases hfit w).resolve_left fun hyes => hrefused hyes.1
      rw [hw]
      exact iff_of_false (fun ⟨s', hs'⟩ => by cases hs') fun hroom => hcrowded hroom.2.fit

end Mirrors

/-! ## Configurations that can be loaded -/

namespace Config

/-- There is a shaper that was given the configuration. -/
def Loads (c : Config) : Prop := ∃ s, c.load.1 = .ok s

/-- The tables have room for what the pods say, at every point of going through them. -/
def HasRoom (c : Config) : Prop := RoomFor (max c.options.maxEntries.toNat 1) .none c.writes

theorem mirrors_install (n : Nat) (plans : PerDirection BandwidthPlan) :
    Mirrors (max n 1) ((Shaper.empty n).install plans) .blank :=
  ((mirrors_empty n).setPlan _ _).setPlan _ _

/-- **What it takes for a configuration to be loaded.**  There can be tables of the size that it asks for; it is
acceptable; and the tables have room. -/
theorem loads_iff (c : Config) :
    c.Loads ↔ OpenTable.checkCapacity c.options.maxEntries.toNat = .ok () ∧ c.Acceptable ∧ c.HasRoom := by
  have hroom : (∃ s, c.writes.foldlM Shaper.write
      ((Shaper.empty c.options.maxEntries.toNat).install c.plans) = .ok s) ↔ c.HasRoom :=
    (mirrors_install c.options.maxEntries.toNat c.plans).writes_iff (Keys.fit_none _) c.writes
  rw [← hroom]
  constructor
  · rintro ⟨s, hload⟩
    obtain ⟨hcapacity, hcall⟩ := c.load_eq_ok_iff.mp hload
    have hacceptable := acceptable_of_call_apply hcall
    exact ⟨hcapacity, hacceptable, s, (call_apply_eq_ok_iff hacceptable).mp hcall⟩
  · rintro ⟨hcapacity, hacceptable, s, hdone⟩
    exact ⟨s, c.load_eq_ok_iff.mpr ⟨hcapacity, (call_apply_eq_ok_iff hacceptable).mpr hdone⟩⟩

/-- A configuration that names no more than fits has room, whatever the order of its pods. -/
theorem hasRoom_of_fits {c : Config} (h : c.Acceptable) (hfits : c.Fits (max c.options.maxEntries.toNat 1)) :
    c.HasRoom := by
  refine ((mirrors_install c.options.maxEntries.toNat c.plans).writes_iff (Keys.fit_none _) c.writes).mp ?_
  exact ⟨_, (call_apply_eq_ok_iff h).mp (Prod.ext (call_apply_of_fits h hfits) rfl)⟩

end Config

end Shaping
