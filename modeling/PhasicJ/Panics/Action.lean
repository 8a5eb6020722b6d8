import Mathlib.Tactic

/-! Actions that read and change a state, and that may panic or have no defined behaviour. -/

namespace PhasicJ.Panics

variable {σ α β : Type}

inductive Outcome (σ α : Type) where
  | returned (a : α) (s : σ)
  | panicked (message : String) (s : σ)
  | undefined

def Outcome.state? : Outcome σ α → Option σ
  | returned _ s | panicked _ s => some s
  | undefined => none

structure Action (σ α : Type) where
  run : σ → Outcome σ α

namespace Action

def bind (x : Action σ α) (f : α → Action σ β) : Action σ β where
  run s :=
    match x.run s with
    | .returned a s' => (f a).run s'
    | .panicked message s' => .panicked message s'
    | .undefined => .undefined

instance : Monad (Action σ) where
  pure a := ⟨fun s => .returned a s⟩
  bind := bind

def panic (message : String) : Action σ α := ⟨fun s => .panicked message s⟩

def undefined : Action σ α := ⟨fun _ => .undefined⟩

def require (b : Bool) (message : String) : Action σ Unit :=
  if b then pure () else panic message

def catchPanic (x handler : Action σ α) : Action σ α where
  run s :=
    match x.run s with
    | .panicked _ s' => handler.run s'
    | .returned a s' => .returned a s'
    | .undefined => .undefined

@[simp] lemma run_pure (a : α) (s : σ) : (pure a : Action σ α).run s = .returned a s := rfl

@[simp] lemma run_panic (message : String) (s : σ) :
    (panic message : Action σ α).run s = .panicked message s := rfl

@[simp] lemma run_undefined (s : σ) : (undefined : Action σ α).run s = .undefined := rfl

lemma run_bind (x : Action σ α) (f : α → Action σ β) (s : σ) :
    (x >>= f).run s = match x.run s with
      | .returned a s' => (f a).run s'
      | .panicked message s' => .panicked message s'
      | .undefined => .undefined := rfl

lemma bind_returned {x : Action σ α} {s s' : σ} {a : α} (h : x.run s = .returned a s')
    (f : α → Action σ β) : (x >>= f).run s = (f a).run s' := by
  rw [run_bind, h]

lemma bind_panicked {x : Action σ α} {s s' : σ} {message : String}
    (h : x.run s = .panicked message s') (f : α → Action σ β) :
    (x >>= f).run s = .panicked message s' := by
  rw [run_bind, h]

lemma catchPanic_returned {x : Action σ α} {s s' : σ} {a : α} (h : x.run s = .returned a s')
    (handler : Action σ α) : (catchPanic x handler).run s = .returned a s' := by
  simp only [catchPanic, h]

lemma catchPanic_panicked {x : Action σ α} {s s' : σ} {message : String}
    (h : x.run s = .panicked message s') (handler : Action σ α) :
    (catchPanic x handler).run s = handler.run s' := by
  simp only [catchPanic, h]

lemma bind_eq_returned {x : Action σ α} {f : α → Action σ β} {s u : σ} {b : β} :
    (x >>= f).run s = .returned b u ↔
      ∃ a s', x.run s = .returned a s' ∧ (f a).run s' = .returned b u := by
  rw [run_bind]
  cases x.run s <;> simp

lemma require_eq_returned {b : Bool} {message : String} {s u : σ} {a : Unit} :
    (require b message).run s = .returned a u ↔ b = true ∧ u = s := by
  cases b <;> simp [require, eq_comm]

end Action

end PhasicJ.Panics
