import Mathlib.Tactic

/-! Bounded pipes. -/

namespace PhasicJ.Pipes

variable {α : Type}

structure Pipe (α : Type) where
  capacity : ℕ
  content : List α
  writerOpen : Bool
  readerOpen : Bool
  fits : content.length ≤ capacity

namespace Pipe

def fresh (α : Type) (capacity : ℕ) : Pipe α := ⟨capacity, [], true, true, Nat.zero_le _⟩

def closeWriter (p : Pipe α) : Pipe α := { p with writerOpen := false }

def closeReader (p : Pipe α) : Pipe α := { p with readerOpen := false }

@[simp] lemma closeWriter_content (p : Pipe α) : p.closeWriter.content = p.content := rfl
@[simp] lemma closeWriter_capacity (p : Pipe α) : p.closeWriter.capacity = p.capacity := rfl
@[simp] lemma closeWriter_writer (p : Pipe α) : p.closeWriter.writerOpen = false := rfl
@[simp] lemma closeWriter_reader (p : Pipe α) : p.closeWriter.readerOpen = p.readerOpen := rfl
@[simp] lemma closeReader_content (p : Pipe α) : p.closeReader.content = p.content := rfl
@[simp] lemma closeReader_capacity (p : Pipe α) : p.closeReader.capacity = p.capacity := rfl
@[simp] lemma closeReader_writer (p : Pipe α) : p.closeReader.writerOpen = p.writerOpen := rfl
@[simp] lemma closeReader_reader (p : Pipe α) : p.closeReader.readerOpen = false := rfl

/-- A write puts some bytes in, as many as fit, while the pipe has a reader. -/
structure Writes (p : Pipe α) (chunk : List α) (q : Pipe α) : Prop where
  some : chunk ≠ []
  reader : p.readerOpen
  content : q.content = p.content ++ chunk
  capacity : q.capacity = p.capacity
  writerOpen : q.writerOpen = p.writerOpen
  readerOpen : q.readerOpen = p.readerOpen

structure Reads (p : Pipe α) (chunk : List α) (q : Pipe α) : Prop where
  some : chunk ≠ []
  content : p.content = chunk ++ q.content
  capacity : q.capacity = p.capacity
  writerOpen : q.writerOpen = p.writerOpen
  readerOpen : q.readerOpen = p.readerOpen

def AtEnd (p : Pipe α) : Prop := p.content = [] ∧ p.writerOpen = false

lemma can_write {p : Pipe α} (hr : p.readerOpen) (hc : p.content.length < p.capacity) (x : α) :
    ∃ q, Writes p [x] q :=
  ⟨⟨p.capacity, p.content ++ [x], p.writerOpen, p.readerOpen, by simpa using hc⟩,
    ⟨by simp, hr, rfl, rfl, rfl, rfl⟩⟩

lemma can_read {p : Pipe α} (hc : p.content ≠ []) : ∃ chunk q, Reads p chunk q :=
  ⟨p.content, ⟨p.capacity, [], p.writerOpen, p.readerOpen, Nat.zero_le _⟩,
    ⟨hc, by simp, rfl, rfl, rfl⟩⟩

lemma nonempty_of_full {p : Pipe α} (h : 0 < p.capacity) (hf : ¬ p.content.length < p.capacity) :
    p.content ≠ [] := by
  intro he
  rw [he] at hf
  exact hf h

end Pipe

end PhasicJ.Pipes
