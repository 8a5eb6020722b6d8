import Mathlib.Tactic

/-! Mutexes, which a panic of their holder poisons, and channels, as values. -/

namespace PhasicJ.Sync

variable {τ α : Type}

structure Mutex (τ α : Type) where
  holder : Option τ
  poisoned : Bool
  data : α

namespace Mutex

def new (a : α) : Mutex τ α := ⟨none, false, a⟩

/-- The task `i` gets the mutex, and `lock` gives no error. -/
def Locks (m : Mutex τ α) (i : τ) (m' : Mutex τ α) : Prop :=
  m.holder = none ∧ m.poisoned = false ∧ m' = { m with holder := some i }

/-- A task gets the mutex, but `lock` gives an error, which lets go of it again. -/
def LockFails (m : Mutex τ α) : Prop := m.holder = none ∧ m.poisoned = true

def unlock (m : Mutex τ α) : Mutex τ α := { m with holder := none }

def poison (m : Mutex τ α) : Mutex τ α := { m with holder := none, poisoned := true }

def write (m : Mutex τ α) (a : α) : Mutex τ α := { m with data := a }

section Simp

variable (m : Mutex τ α) (a : α)

@[simp] lemma unlock_data : m.unlock.data = m.data := rfl
@[simp] lemma unlock_holder : m.unlock.holder = none := rfl
@[simp] lemma unlock_poisoned : m.unlock.poisoned = m.poisoned := rfl
@[simp] lemma poison_data : m.poison.data = m.data := rfl
@[simp] lemma poison_holder : m.poison.holder = none := rfl
@[simp] lemma write_data : (m.write a).data = a := rfl
@[simp] lemma write_holder : (m.write a).holder = m.holder := rfl
@[simp] lemma write_poisoned : (m.write a).poisoned = m.poisoned := rfl

end Simp

section Locks

variable {m m' : Mutex τ α} {i : τ}

lemma Locks.free (h : m.Locks i m') : m.holder = none := h.1

lemma Locks.data (h : m.Locks i m') : m'.data = m.data := by rw [h.2.2]

lemma Locks.holder (h : m.Locks i m') : m'.holder = some i := by rw [h.2.2]

lemma Locks.poisoned (h : m.Locks i m') : m'.poisoned = false := by rw [h.2.2, h.2.1]

end Locks

end Mutex

structure Channel (α : Type) where
  queue : List α
  receiverAlive : Bool

namespace Channel

def new : Channel α := ⟨[], true⟩

def Sends (c : Channel α) (a : α) (c' : Channel α) : Prop :=
  c.receiverAlive = true ∧ c' = { c with queue := c.queue ++ [a] }

def Receives (c : Channel α) (a : α) (c' : Channel α) : Prop :=
  ∃ rest, c.queue = a :: rest ∧ c' = { c with queue := rest }

def ReceiveFails (c : Channel α) (senderAlive : Bool) : Prop := c.queue = [] ∧ senderAlive = false

def dropReceiver (c : Channel α) : Channel α := { c with receiverAlive := false }

variable {c c' : Channel α} {a : α}

lemma Sends.length (h : c.Sends a c') : c'.queue.length = c.queue.length + 1 := by
  rw [h.2, List.length_append, List.length_singleton]

lemma Sends.receiverAlive (h : c.Sends a c') : c'.receiverAlive = true := by rw [h.2, h.1]

lemma Receives.length (h : c.Receives a c') : c.queue.length = c'.queue.length + 1 := by
  obtain ⟨rest, hq, rfl⟩ := h
  rw [hq, List.length_cons]

lemma Receives.receiverAlive (h : c.Receives a c') : c'.receiverAlive = c.receiverAlive := by
  obtain ⟨rest, -, rfl⟩ := h
  rfl

end Channel

end PhasicJ.Sync
