import Shaping.Control

/-!
# What operations of the control plane do

A `Control` is a computation that may fail and that changes a shaper either way.  Its parts are few,
and each has one equation here that says what it gives and what it leaves (`run_bind` and the others).

Most of what has to be known about an operation is what it does *not* do, and for that there is no need
to follow it step by step.  `Keeps P op` says that `op` leaves a shaper with `P` if it finds one with
`P`, whether it fails or not, and has a rule for each part.  `Leads P Q op` is the same with a property of
its own for the shaper that is left.

The failing run is part of both properties, and it has to be.  An operation that is cut short leaves what
its first parts did, so a property that is only kept by runs that come to their end would say nothing about
a call that fails.
-/

set_option autoImplicit false

namespace Shaping

namespace Control

variable {α β : Type}

/-! ## Equations

These are the only place where the layers of the monad are opened.  Everything below, and in the modules
that use this one, rewrites with them. -/

theorem run_bind (op : Control α) (f : α → Control β) (c : Controlled) :
    (op >>= f).run.run c =
      match op.run.run c with
      | (.ok a, c') => (f a).run.run c'
      | (.error e, c') => (.error e, c') := by
  show (ExceptT.bind op f).run.run c = _
  simp only [ExceptT.bind, ExceptT.run, ExceptT.mk, StateT.run, bind, StateT.bind]
  cases op c with
  | mk r c' => cases r <;> rfl

theorem run_throw (e : Failure) (c : Controlled) :
    (throw e : Control α).run.run c = (.error e, c) := rfl

theorem run_note (n : Note) (c : Controlled) :
    (note n).run.run c = (.ok (), ⟨c.shaper, c.notes.push n⟩) := rfl

/-- Notes are left or not left, and that is all. -/
theorem run_noteIf (left : Bool) (n : Note) (c : Controlled) :
    ∃ notes, (if left then note n else pure () : Control Unit).run.run c
      = (.ok (), ⟨c.shaper, notes⟩) := by
  cases left with
  | false => exact ⟨c.notes, rfl⟩
  | true => exact ⟨c.notes.push n, rfl⟩

theorem run_inspect (look : Shaper → α) (c : Controlled) :
    (inspect look).run.run c = (.ok (look c.shaper), c) := rfl

theorem run_change (f : Shaper → Shaper) (c : Controlled) :
    (change f).run.run c = (.ok (), ⟨f c.shaper, c.notes⟩) := rfl

theorem run_alter (f : Shaper → α × Shaper) (c : Controlled) :
    (alter f).run.run c = (.ok (f c.shaper).1, ⟨(f c.shaper).2, c.notes⟩) := rfl

theorem run_attempt (f : Shaper → Except TableFull (α × Shaper)) (c : Controlled) :
    (attempt f).run.run c =
      match f c.shaper with
      | .ok (a, s) => (.ok a, ⟨s, c.notes⟩)
      | .error full => (.error (.of (.tableFull full)), c) := by
  rw [attempt, run_bind, run_inspect]
  simp only [id]
  cases f c.shaper with
  | ok r => rfl
  | error full => rfl

theorem run_within (context : Context) (op : Control α) (c : Controlled) :
    (within context op).run.run c =
      match op.run.run c with
      | (.ok a, c') => (.ok a, c')
      | (.error e, c') => (.error (e.within context), c') := by
  show (ExceptT.tryCatch op _).run.run c = _
  simp only [ExceptT.tryCatch, ExceptT.run, ExceptT.mk, StateT.run, bind, StateT.bind]
  cases op c with
  | mk r c' => cases r <;> rfl

/-- A refusal that is passed on with what was being done. -/
theorem run_within_attempt (context : Context) (f : Shaper → Except TableFull (α × Shaper))
    (c : Controlled) :
    (within context (attempt f)).run.run c =
      match f c.shaper with
      | .ok (a, s) => (.ok a, ⟨s, c.notes⟩)
      | .error full => (.error ⟨[context], .tableFull full⟩, c) := by
  rw [run_within, run_attempt]
  cases f c.shaper with
  | ok r => rfl
  | error full => rfl

/-! ## What is kept

In `Leads` what the first operation leads to must be enough for the whole (`hQ`), as the second one may not
be reached.  Where the two properties are the same this is trivial, and then nothing is left of a rule but
one premise for each part. -/

/-- The operation leads from one property of the shaper to another, even if it fails. -/
def Leads (P Q : Shaper → Prop) (op : Control α) : Prop :=
  ∀ c : Controlled, P c.shaper → Q (op.run.run c).2.shaper

/-- The operation keeps a property of the shaper, even if it fails. -/
def Keeps (P : Shaper → Prop) (op : Control α) : Prop := Leads P P op

/-- The second operation need not be reached, so what the first one leads to has to be enough. -/
theorem leads_run_bind {Q R : Shaper → Prop} {op : Control α} {f : α → Control β} {c : Controlled}
    (h : Q (op.run.run c).2.shaper) (hQ : ∀ s, Q s → R s) (hf : ∀ a, Leads Q R (f a)) :
    R ((op >>= f).run.run c).2.shaper := by
  rw [run_bind]
  generalize op.run.run c = r at h
  obtain ⟨r | a, c'⟩ := r
  · exact hQ _ h
  · exact hf a c' h

namespace Leads

variable {P Q R : Shaper → Prop}

theorem bind {op : Control α} {f : α → Control β} (h : Leads P Q op) (hQ : ∀ s, Q s → R s)
    (hf : ∀ a, Leads Q R (f a)) : Leads P R (op >>= f) :=
  fun c hc => leads_run_bind (h c hc) hQ hf

theorem within {context : Context} {op : Control α} (h : Leads P Q op) :
    Leads P Q (within context op) := by
  intro c hc
  have hop := h c hc
  rw [run_within]
  generalize op.run.run c = r at hop
  obtain ⟨r | a, c'⟩ := r <;> exact hop

end Leads

namespace Keeps

variable {P : Shaper → Prop}

theorem bind {op : Control α} {f : α → Control β} (h : Keeps P op) (hf : ∀ a, Keeps P (f a)) :
    Keeps P (op >>= f) :=
  Leads.bind h (fun _ hs => hs) hf

theorem pure (a : α) : Keeps P (Pure.pure a : Control α) := fun _ hc => hc

theorem throw (e : Failure) : Keeps P (throw e : Control α) := fun _ hc => hc

theorem note (n : Note) : Keeps P (note n) := fun _ hc => hc

theorem inspect (look : Shaper → α) : Keeps P (inspect look) := fun _ hc => hc

theorem change {f : Shaper → Shaper} (h : ∀ s, P s → P (f s)) : Keeps P (change f) :=
  fun c hc => h c.shaper hc

theorem alter {f : Shaper → α × Shaper} (h : ∀ s, P s → P (f s).2) : Keeps P (alter f) :=
  fun c hc => h c.shaper hc

theorem attempt {f : Shaper → Except TableFull (α × Shaper)}
    (h : ∀ s a s', P s → f s = .ok (a, s') → P s') : Keeps P (attempt f) := by
  intro c hc
  rw [run_attempt]
  split
  · rename_i a s' hf
    exact h c.shaper a s' hc hf
  · exact hc

theorem within {context : Context} {op : Control α} (h : Keeps P op) :
    Keeps P (within context op) :=
  Leads.within h

theorem forM {f : α → Control Unit} {xs : List α} (h : ∀ x ∈ xs, Keeps P (f x)) :
    Keeps P (xs.forM f) := by
  induction xs with
  | nil => exact pure ()
  | cons x xs ih =>
    rw [List.forall_mem_cons] at h
    exact bind h.1 fun _ => ih h.2

end Keeps

end Control

end Shaping
