import Acceptor.Operation
import Mathlib.Logic.Basic

/-!
# What operations leave behind

`perform` follows an operation step by step: a check leaves everything as it is (`perform_check_bind`), and what
comes behind a step works on what the step has left (`perform_bind`). An operation is `Atomic` if a refusal
changes nothing. One that makes its checks first and cannot be refused after that is atomic (`Atomic.check_bind`,
`Sure.atomic`).
-/

namespace Acceptor.Operation

variable {σ α β : Type} {s t : σ} {a : α} {fault : Fault} {op : Operation σ α} {f : α → Operation σ β}

@[simp] theorem perform_modify (g : σ → σ) (s : σ) : (modify g : Operation σ Unit).perform s = (g s, .ok ()) := rfl

@[simp] theorem perform_check (x : Except Fault α) (s : σ) : (liftM x : Operation σ α).perform s = (s, x) := by
  cases x <;> rfl

@[simp] theorem perform_map (g : α → β) (op : Operation σ α) (s : σ) :
    (g <$> op).perform s = ((op.perform s).1, (op.perform s).2.map g) := by
  rw [perform, perform, map_eq_pure_bind, EStateM.run_bind]
  cases op.run s <;> rfl

/-- What was done before the fault is still there when it is handled. -/
theorem perform_tryCatch (op : Operation σ α) (handle : Fault → Operation σ α) (s : σ) :
    (tryCatch op handle).perform s = match op.perform s with
      | (t, .ok a) => (t, .ok a)
      | (t, .error fault) => (handle fault).perform t := by
  cases h : op s with
  | ok a t =>
    have hrun : (tryCatch op handle).run s = .ok a t := by
      show EStateM.tryCatch op handle s = _
      delta EStateM.tryCatch
      simp only [h]
    rw [perform, perform, hrun, show op.run s = .ok a t from h]
  | error fault t =>
    have hrun : (tryCatch op handle).run s = (handle fault).run t := by
      show EStateM.tryCatch op handle s = _
      delta EStateM.tryCatch
      simp only [h]
      rfl
    rw [perform, perform, hrun, show op.run s = .error fault t from h]
    rfl

theorem perform_bind (op : Operation σ α) (f : α → Operation σ β) (s : σ) :
    (op >>= f).perform s = match op.perform s with
      | (t, .ok a) => (f a).perform t
      | (t, .error fault) => (t, .error fault) := by
  rw [perform, perform, EStateM.run_bind]
  cases op.run s <;> rfl

theorem perform_bind_of_ok (h : op.perform s = (t, .ok a)) : (op >>= f).perform s = (f a).perform t := by
  rw [perform_bind, h]

theorem perform_bind_of_error (h : op.perform s = (t, .error fault)) :
    (op >>= f).perform s = (t, .error fault) := by
  rw [perform_bind, h]

theorem perform_get_bind (f : σ → Operation σ β) (s : σ) : (get >>= f).perform s = (f s).perform s := rfl

theorem perform_modify_bind (g : σ → σ) (f : Unit → Operation σ β) (s : σ) :
    (modify g >>= f).perform s = (f ()).perform (g s) := rfl

theorem perform_check_bind {x : Except Fault α} (h : x = .ok a) : (liftM x >>= f).perform s = (f a).perform s :=
  perform_bind_of_ok (by rw [perform_check, h])

theorem perform_check_bind_error {x : Except Fault α} (h : x = .error fault) :
    (liftM x >>= f).perform s = (s, .error fault) :=
  perform_bind_of_error (by rw [perform_check, h])

theorem perform_check_map (x : Except Fault α) (g : α → β) (s : σ) :
    (liftM x >>= fun a => pure (g a) : Operation σ β).perform s = (s, x.map g) := by
  cases x <;> rfl

theorem perform_check_bind_eq_ok_iff {x : Except Fault α} {b : β} :
    (liftM x >>= f).perform s = (t, .ok b) ↔ ∃ a, x = .ok a ∧ (f a).perform s = (t, .ok b) := by
  cases x with
  | error fault => simp [perform_check_bind_error (x := .error fault) rfl]
  | ok a => simp [perform_check_bind (x := .ok a) rfl]

theorem outcome_eq_ok_iff : op.outcome s = .ok t ↔ ∃ a, op.perform s = (t, .ok a) := by
  rw [outcome]
  rcases op.perform s with ⟨t', fault | a⟩ <;> simp [Except.map]

theorem outcome_eq_error_iff : op.outcome s = .error fault ↔ (op.perform s).2 = .error fault := by
  rw [outcome]
  rcases op.perform s with ⟨t', fault | a⟩ <;> simp [Except.map]

/-- Whenever the operation is refused, everything is as it was. -/
def Atomic (op : Operation σ α) : Prop := ∀ s fault, (op.perform s).2 = .error fault → (op.perform s).1 = s

/-- The operation is never refused. -/
def Sure (op : Operation σ α) : Prop := ∀ s, ∃ t a, op.perform s = (t, .ok a)

namespace Sure

theorem modify (g : σ → σ) : Sure (modify g : Operation σ Unit) := fun s => ⟨g s, (), rfl⟩

theorem bind (h : Sure op) (hf : ∀ a, Sure (f a)) : Sure (op >>= f) := by
  intro s
  obtain ⟨t, a, ht⟩ := h s
  rw [perform_bind_of_ok ht]
  exact hf a t

theorem atomic (h : Sure op) : Atomic op := by
  intro s fault hfault
  obtain ⟨t, a, ht⟩ := h s
  rw [ht] at hfault; cases hfault

end Sure

namespace Atomic

theorem get_bind {f : σ → Operation σ β} (h : ∀ s, Atomic (f s)) : Atomic (get >>= f) := fun s => h s s

/-- What comes behind a check may rely on it. -/
theorem check_bind {x : Except Fault α} (h : ∀ a, x = .ok a → Atomic (f a)) : Atomic (liftM x >>= f) := by
  intro s fault hfault
  cases hx : x with
  | error fault' => rw [perform_check_bind_error rfl]
  | ok a =>
    rw [hx, perform_check_bind rfl] at hfault
    rw [perform_check_bind rfl]
    exact h a hx s fault hfault

theorem perform_eq (h : Atomic op) (hfault : op.outcome s = .error fault) : op.perform s = (s, .error fault) := by
  have hresult := outcome_eq_error_iff.1 hfault
  exact Prod.ext (h s fault hresult) hresult

end Atomic

end Acceptor.Operation
