import Shaping.Proofs.OpenTable.Entries
import Mathlib.Data.Finmap

/-!
# An open table is a finite map of bounded size

`BoundedMap` says what a table is supposed to be: a finite map, which refuses a new key once it has as
many as it may.  There is nothing in it of slots, hashes or removal marks.

`perform_refines` compares one operation on a table with the same operation on the map that the table
stands for (`Represents`): the answers are equal, and what comes out stands for what comes out.
`represents_run` is its iteration over any sequence of operations, and
`run_refines_boundedMap` puts it together with what holds of the slots themselves.

The comparison is a forward simulation, with one lemma for each operation.  All of them have the same three
parts: the answers, what the results stand for, and that the capacity is still what it was.  The last part
belongs to the statement because the map does not know how many keys it may have; it is told by each
operation, and a run of operations on the map is given one number for all of them.

What a table stands for could be said by look-ups alone, as these determine the map.  Then a refusal could
not be compared, because the table decides by its counter and the map by the number of its keys.  So that
the two are equal is part of `Represents`, and has to be shown anew after each operation
(`keys_card_insert`, `keys_insert_of_some`, `keys_card_erase`).
-/

set_option autoImplicit false

namespace Shaping

/-! ## What a table is supposed to be

The map answers by `lookup` and by counting its keys.  It is a `Finmap`, so two maps with the same look-ups
are the same map, and there is nothing else in it that could be compared with a table by mistake. -/

/-- Something that is done to a table. -/
inductive TableOp (κ ν : Type) where
  /-- Make sure that a key has an entry, and hand out its value. -/
  | claim (key : κ)
  /-- Hand out the value of a key. -/
  | look (key : κ)
  /-- Write through the value that was handed out for a key. -/
  | write (key : κ) (f : ν → ν)
  /-- Remove the entry of a key. -/
  | erase (key : κ)

/-- The key that an operation is about. -/
def TableOp.key {κ ν : Type} : TableOp κ ν → κ
  | .claim k | .look k | .write k _ | .erase k => k

/-- What is answered. -/
inductive TableAnswer (ν : Type) where
  /-- A claim was granted: was the entry made by it, and what is its value? -/
  | granted (created : Bool) (value : Option ν)
  /-- A claim was refused. -/
  | refused (full : TableFull)
  /-- The value of a key. -/
  | found (value : Option ν)
  /-- Was there an entry to write to, or to remove? -/
  | done (present : Bool)

/-- A finite map that stands for a table. -/
abbrev BoundedMap (κ ν : Type) := Finmap fun _ : κ => ν

namespace BoundedMap

variable {κ ν : Type} [DecidableEq κ]

/-- An operation on a map that may have `capacity` keys and gives new ones the value `fresh`. -/
def perform (capacity : Nat) (fresh : ν) (m : BoundedMap κ ν) :
    TableOp κ ν → TableAnswer ν × BoundedMap κ ν
  | .claim k =>
    match m.lookup k with
    | some v => (.granted false (some v), m)
    | none =>
      if m.keys.card = capacity then (.refused ⟨capacity⟩, m)
      else (.granted true (some fresh), m.insert k fresh)
  | .look k => (.found (m.lookup k), m)
  | .write k f =>
    match m.lookup k with
    | some v => (.done true, m.insert k (f v))
    | none => (.done false, m)
  | .erase k => (.done (m.lookup k).isSome, m.erase k)

/-- Operations one after the other: their answers, and the map afterwards. -/
def run (capacity : Nat) (fresh : ν) (m : BoundedMap κ ν) :
    List (TableOp κ ν) → List (TableAnswer ν) × BoundedMap κ ν
  | [] => ([], m)
  | op :: ops =>
    match m.perform capacity fresh op with
    | (answer, m) =>
      match run capacity fresh m ops with
      | (answers, m) => (answer :: answers, m)

theorem keys_card_insert (m : BoundedMap κ ν) {k : κ} (v : ν) (h : m.lookup k = none) :
    (m.insert k v).keys.card = m.keys.card + 1 := by
  have hk : k ∉ m.keys := by rwa [Finmap.mem_keys, ← Finmap.lookup_eq_none]
  have hkeys : (m.insert k v).keys = Insert.insert k m.keys := by
    ext j
    rw [Finmap.mem_keys, Finmap.mem_insert, Finset.mem_insert, Finmap.mem_keys]
  rw [hkeys, Finset.card_insert_of_notMem hk]

theorem keys_insert_of_some (m : BoundedMap κ ν) {k : κ} {u : ν} (v : ν) (h : m.lookup k = some u) :
    (m.insert k v).keys = m.keys := by
  ext j
  rw [Finmap.mem_keys, Finmap.mem_insert, Finmap.mem_keys]
  exact or_iff_right_of_imp fun hj => hj ▸ Finmap.mem_of_lookup_eq_some h

theorem keys_card_erase (m : BoundedMap κ ν) {k : κ} {v : ν} (h : m.lookup k = some v) :
    (m.erase k).keys.card + 1 = m.keys.card := by
  rw [Finmap.keys_erase]
  exact Finset.card_erase_add_one (Finmap.mem_keys.mpr (Finmap.mem_of_lookup_eq_some h))

end BoundedMap

/-! ## What a table is

Claiming and erasing split by whether the key is in, and claiming a new key once more by whether there is
room.  In each case the equation of the operation for `get?` meets the library lemma about `insert` or
`erase`, for the key itself and for the others. -/

namespace OpenTable

variable {κ ν : Type} [DecidableEq κ] [Hashable κ]

/-- An operation on a table whose new entries have the value `fresh`. -/
def perform (fresh : ν) (t : OpenTable κ ν) : TableOp κ ν → TableAnswer ν × OpenTable κ ν
  | .claim k =>
    match t.claim k fresh with
    | .ok (created, t') => (.granted created (t'.get? k), t')
    | .error full => (.refused full, t)
  | .look k => (.found (t.get? k), t)
  | .write k f =>
    match t.visit k fun v => ((), f v) with
    | (found, t') => (.done found.isSome, t')
  | .erase k =>
    match t.erase k with
    | (found, t') => (.done found, t')

/-- Operations one after the other: their answers, and the table afterwards. -/
def run (fresh : ν) (t : OpenTable κ ν) :
    List (TableOp κ ν) → List (TableAnswer ν) × OpenTable κ ν
  | [] => ([], t)
  | op :: ops =>
    match t.perform fresh op with
    | (answer, t) =>
      match run fresh t ops with
      | (answers, t) => (answer :: answers, t)

/-- What is kept by whatever is done is kept by a sequence of operations. -/
theorem Kept.run {P : OpenTable κ ν → Prop} (hP : Kept P) (fresh : ν) (ops : List (TableOp κ ν))
    {t : OpenTable κ ν} (h : P t) : P (t.run fresh ops).2 := by
  induction ops generalizing t with
  | nil => exact h
  | cons op ops ih =>
    rw [OpenTable.run]
    refine ih ?_
    cases op with
    | claim k =>
      rw [perform]
      split
      · rename_i created t' hclaim
        exact hP.claim t k fresh created t' h hclaim
      · exact h
    | look k => exact h
    | write k f => exact hP.visit t k (fun v => ((), f v)) h
    | erase k => exact hP.erase t k h

/-- A table stands for a map. -/
structure Represents (t : OpenTable κ ν) (m : BoundedMap κ ν) : Prop where
  wellFormed : WellFormed t
  /-- Look-ups agree. -/
  lookup : ∀ k, t.get? k = m.lookup k
  /-- So do the sizes. -/
  size : t.size = m.keys.card

theorem get?_empty (capacity : Nat) (k : κ) : (empty capacity : OpenTable κ ν).get? k = none := by
  rw [(wellFormed_empty capacity).get?_eq_none_iff]
  rintro v ⟨i, hi⟩
  rw [empty, Array.getElem?_replicate] at hi
  split at hi <;> cases hi

theorem represents_empty (capacity : Nat) : Represents (empty capacity : OpenTable κ ν) ∅ where
  wellFormed := wellFormed_empty capacity
  lookup k := by rw [get?_empty, Finmap.lookup_empty]
  size := rfl

/-- Claiming a key of a table and of its map comes to the same. -/
theorem claim_refines {t : OpenTable κ ν} {m : BoundedMap κ ν} (h : Represents t m) (fresh : ν)
    (k : κ) :
    (t.perform fresh (.claim k)).1 = (m.perform t.capacity fresh (.claim k)).1 ∧
      Represents (t.perform fresh (.claim k)).2 (m.perform t.capacity fresh (.claim k)).2 ∧
      (t.perform fresh (.claim k)).2.capacity = t.capacity := by
  have hlook := h.lookup k
  cases hv : t.get? k with
  | some v =>
    rw [hv] at hlook
    simp only [perform, BoundedMap.perform, h.wellFormed.claim_of_some hv, ← hlook, hv]
    exact ⟨trivial, h, trivial⟩
  | none =>
    rw [hv] at hlook
    rcases Nat.eq_or_lt_of_le h.wellFormed.bounded with hfull | hroom
    · simp only [perform, BoundedMap.perform, h.wellFormed.claim_of_full hv hfull, ← hlook,
        if_pos (h.size.symm.trans hfull)]
      exact ⟨trivial, h, trivial⟩
    · obtain ⟨t', ht', hwell, hsize, hcap, hget⟩ := h.wellFormed.claim_of_room hv hroom fresh
      have hne : m.keys.card ≠ t.capacity := h.size ▸ Nat.ne_of_lt hroom
      simp only [perform, BoundedMap.perform, ht', ← hlook, if_neg hne, hget, if_true]
      refine ⟨trivial, ⟨hwell, fun j => ?_, ?_⟩, hcap⟩
      · rw [hget]
        split
        · rename_i hj; rw [hj, Finmap.lookup_insert]
        · rename_i hj; rw [Finmap.lookup_insert_of_ne _ hj, h.lookup]
      · rw [hsize, BoundedMap.keys_card_insert m fresh hlook.symm, h.size]

/-- Writing to an entry of a table and of its map comes to the same. -/
theorem write_refines {t : OpenTable κ ν} {m : BoundedMap κ ν} (h : Represents t m) (fresh : ν)
    (k : κ) (f : ν → ν) :
    (t.perform fresh (.write k f)).1 = (m.perform t.capacity fresh (.write k f)).1 ∧
      Represents (t.perform fresh (.write k f)).2 (m.perform t.capacity fresh (.write k f)).2 ∧
      (t.perform fresh (.write k f)).2.capacity = t.capacity := by
  have hlook := h.lookup k
  have hwell := h.wellFormed.visit k fun v => ((), f v)
  have hget := h.wellFormed.get?_visit k fun v => ((), f v)
  rcases t.visit_eq k fun v => ((), f v) with ⟨hnone, heq⟩ | ⟨i, v, hv, -, heq⟩
  · rw [hnone] at hlook
    simp only [perform, BoundedMap.perform, heq, ← hlook]
    exact ⟨rfl, h, trivial⟩
  · rw [hv] at hlook
    have hkeys := BoundedMap.keys_insert_of_some m (f v) hlook.symm
    simp only [perform, BoundedMap.perform, heq, ← hlook] at hwell hget ⊢
    refine ⟨rfl, ⟨hwell, fun j => ?_, ?_⟩, trivial⟩
    · rw [hget]
      split
      · rename_i hj; rw [hj, hv, Finmap.lookup_insert, Option.map_some]
      · rename_i hj; rw [Finmap.lookup_insert_of_ne _ hj, h.lookup]
    · rw [hkeys]
      exact h.size

/-- Erasing a key of a table and of its map comes to the same. -/
theorem erase_refines {t : OpenTable κ ν} {m : BoundedMap κ ν} (h : Represents t m) (fresh : ν)
    (k : κ) :
    (t.perform fresh (.erase k)).1 = (m.perform t.capacity fresh (.erase k)).1 ∧
      Represents (t.perform fresh (.erase k)).2 (m.perform t.capacity fresh (.erase k)).2 ∧
      (t.perform fresh (.erase k)).2.capacity = t.capacity := by
  have hlook := h.lookup k
  have hagree : ∀ j, (t.erase k).2.get? j = (m.erase k).lookup j := by
    intro j
    rw [h.wellFormed.get?_erase]
    split
    · rename_i hj; rw [hj, Finmap.lookup_erase]
    · rename_i hj; rw [Finmap.lookup_erase_ne hj, h.lookup]
  refine ⟨?_, ⟨h.wellFormed.erase k, hagree, ?_⟩, ?_⟩
  · simp only [perform, BoundedMap.perform, h.wellFormed.erase_fst, hlook]
  · cases hv : t.get? k with
    | none =>
      have hk : k ∉ m.keys := by rw [Finmap.mem_keys, ← Finmap.lookup_eq_none, ← hlook, hv]
      simp only [perform, BoundedMap.perform, h.wellFormed.erase_of_none hv, Finmap.keys_erase,
        Finset.erase_eq_of_notMem hk]
      exact h.size
    | some v =>
      obtain ⟨t', ht', -, hsize, -⟩ := h.wellFormed.erase_of_some hv
      have hcard := BoundedMap.keys_card_erase m (hlook ▸ hv)
      simp only [perform, BoundedMap.perform, ht']
      have := h.size
      omega
  · cases hv : t.get? k with
    | none => simp only [perform, h.wellFormed.erase_of_none hv]
    | some v =>
      obtain ⟨t', ht', -, -, hcap, -⟩ := h.wellFormed.erase_of_some hv
      simp only [perform, ht', hcap]

/-- **One operation.**  A table answers as its map does, and goes on standing for it. -/
theorem perform_refines {t : OpenTable κ ν} {m : BoundedMap κ ν} (h : Represents t m) (fresh : ν)
    (op : TableOp κ ν) :
    (t.perform fresh op).1 = (m.perform t.capacity fresh op).1 ∧
      Represents (t.perform fresh op).2 (m.perform t.capacity fresh op).2 ∧
      (t.perform fresh op).2.capacity = t.capacity := by
  cases op with
  | claim k => exact claim_refines h fresh k
  | look k => exact ⟨congrArg TableAnswer.found (h.lookup k), h, rfl⟩
  | write k f => exact write_refines h fresh k f
  | erase k => exact erase_refines h fresh k

/-- **Any sequence of operations.** -/
theorem represents_run (fresh : ν) (ops : List (TableOp κ ν)) {t : OpenTable κ ν}
    {m : BoundedMap κ ν} (h : Represents t m) :
    (t.run fresh ops).1 = (m.run t.capacity fresh ops).1 ∧
      Represents (t.run fresh ops).2 (m.run t.capacity fresh ops).2 ∧
      (t.run fresh ops).2.capacity = t.capacity := by
  induction ops generalizing t m with
  | nil => exact ⟨rfl, h, rfl⟩
  | cons op ops ih =>
    obtain ⟨hanswer, hrep, hcap⟩ := perform_refines h fresh op
    obtain ⟨hanswers, hreps, hcaps⟩ := ih hrep
    rw [hcap] at hanswers hreps hcaps
    simp only [run, BoundedMap.run]
    exact ⟨by rw [hanswer, hanswers], hreps, hcaps⟩

/-- An operation leaves the values of other keys alone. -/
theorem get?_perform_of_ne {t : OpenTable κ ν} (h : WellFormed t) (fresh : ν) (op : TableOp κ ν)
    {k : κ} (hk : k ≠ op.key) : (t.perform fresh op).2.get? k = t.get? k := by
  cases op with
  | claim j =>
    have hkj : k ≠ j := hk
    rw [perform]
    split
    · rename_i created t' ht'
      rw [(h.claim_eq_ok ht').2.2.2.2 k, if_neg hkj]
    · rfl
  | look j => rfl
  | write j f =>
    have hkj : k ≠ j := hk
    simp only [perform, h.get?_visit, if_neg hkj]
  | erase j =>
    have hkj : k ≠ j := hk
    simp only [perform, h.get?_erase, if_neg hkj]

/-! ## Who is in

That a key is in the table if it was claimed and not erased since is a statement about the past alone.
`wasClaimed` reads it off what was asked and what was answered, without a map and without a table, so that
it can be compared with either.  A claim that was refused does not count, which is why the answers are
needed. -/

/-- Is a key in, given whether it was before an operation that was answered? -/
def noted (k : κ) (before : Bool) : TableOp κ ν × TableAnswer ν → Bool
  | (.claim j, .granted _ _) => before || j = k
  | (.erase j, _) => before && j ≠ k
  | _ => before

/-- Was a key claimed with success, and not erased since? -/
def wasClaimed (k : κ) (history : List (TableOp κ ν × TableAnswer ν)) : Bool :=
  history.foldl (noted k) false

theorem isSome_get?_perform {t : OpenTable κ ν} (h : WellFormed t) (fresh : ν) (op : TableOp κ ν)
    (k : κ) : ((t.perform fresh op).2.get? k).isSome
      = noted k (t.get? k).isSome (op, (t.perform fresh op).1) := by
  by_cases hk : k = op.key
  · subst hk
    cases op with
    | claim j =>
      simp only [perform, TableOp.key]
      cases hc : t.claim j fresh with
      | ok r =>
        obtain ⟨created, t'⟩ := r
        simp [noted, (h.claim_eq_ok hc).2.2.2.2 j]
      | error full => rfl
    | look j => rfl
    | write j f => simp [perform, TableOp.key, noted, h.get?_visit]
    | erase j => simp [perform, TableOp.key, noted, h.get?_erase]
  · rw [get?_perform_of_ne h fresh op hk]
    cases op with
    | claim j =>
      have hjk : j ≠ k := fun hj => hk hj.symm
      simp only [perform]
      cases t.claim j fresh with
      | ok r => simp [noted, hjk]
      | error full => rfl
    | look j => rfl
    | write j f => rfl
    | erase j =>
      have hjk : j ≠ k := fun hj => hk hj.symm
      simp [noted, hjk]

theorem isSome_get?_run (fresh : ν) (k : κ) (ops : List (TableOp κ ν)) {t : OpenTable κ ν}
    {m : BoundedMap κ ν} (h : Represents t m) : ((t.run fresh ops).2.get? k).isSome
      = (ops.zip (t.run fresh ops).1).foldl (noted k) (t.get? k).isSome := by
  induction ops generalizing t m with
  | nil => rfl
  | cons op ops ih =>
    rw [run, List.zip_cons_cons, List.foldl_cons, ← isSome_get?_perform h.wellFormed fresh op k]
    exact ih (perform_refines h fresh op).2.1

/-! ## The whole -/

/-- **An open table is a finite map of bounded size**, for every hash and every capacity.  After any
operations on the empty table, the answers were those of the map, and look-ups find a key exactly if it
was claimed and not erased since.  No key is in two slots; the listing names each key that is in, and
once; the size is counted; other keys keep their values; and a new key always finds a free slot, so that
a claim is only ever refused for the number of entries. -/
theorem run_refines_boundedMap (capacity : Nat) (fresh : ν) (ops : List (TableOp κ ν)) :
    let after := (empty capacity : OpenTable κ ν).run fresh ops
    let model := (∅ : BoundedMap κ ν).run (max capacity 1) fresh ops
    after.1 = model.1 ∧
      (∀ k, after.2.get? k = model.2.lookup k) ∧
      (∀ k, (after.2.get? k).isSome = wasClaimed k (ops.zip after.1)) ∧
      (∀ (i j : Nat) (k : κ) (v w : ν), after.2.slots[i]? = some (.live k v) →
        after.2.slots[j]? = some (.live k w) → i = j) ∧
      (after.2.toList.map Prod.fst).Nodup ∧
      (∀ k v, (k, v) ∈ after.2.toList ↔ model.2.lookup k = some v) ∧
      after.2.size = model.2.keys.card ∧
      after.2.size = after.2.toList.length ∧
      after.2.size ≤ max capacity 1 ∧
      (∀ (op : TableOp κ ν) (k : κ), k ≠ op.key →
        (after.2.perform fresh op).2.get? k = after.2.get? k) ∧
      ∀ start, after.2.size < max capacity 1 →
        ∃ d, freeDistance? after.2.slots start 0 after.2.slots.size = some d := by
  intro after model
  obtain ⟨hanswers, hrep, hcap⟩ := represents_run fresh ops (represents_empty capacity)
  have hwell : WellFormed after.2 := hrep.wellFormed
  have hcap : after.2.capacity = max capacity 1 := hcap
  refine ⟨hanswers, hrep.lookup, fun k => ?_, hwell.tidy.unique, hwell.nodup_toList, fun k v => ?_,
    hrep.size, ?_, hcap ▸ hwell.bounded, fun op k => get?_perform_of_ne hwell fresh op,
    fun start hroom => hwell.exists_freeDistance (hcap ▸ hroom) start⟩
  · have hin := isSome_get?_run fresh k ops (represents_empty (ν := ν) capacity)
    rwa [get?_empty] at hin
  · rw [mem_toList, ← hwell.get?_eq_some_iff]
    exact iff_of_eq (congrArg (· = some v) (hrep.lookup k))
  · rw [length_toList, hwell.counted]

end OpenTable

end Shaping
