import Mathlib.Tactic

/-! Memory as a list of blocks, whose cells may not be initialized yet. -/

namespace PhasicJ.CMemory

variable {α : Type}

structure Pointer where
  block : ℕ
  offset : ℕ
  deriving DecidableEq

structure Memory (α : Type) where
  blocks : List (List (Option α))

namespace Memory

/-- A read that is out of bounds, or of a cell without a value, has no result. -/
def read (m : Memory α) (p : Pointer) (idx : ℕ) : Option α :=
  (m.blocks[p.block]?.bind fun block => block[p.offset + idx]?).join

def write (m : Memory α) (p : Pointer) (idx : ℕ) (a : α) : Option (Memory α) :=
  m.blocks[p.block]?.bind fun block =>
    if p.offset + idx < block.length then
      some ⟨m.blocks.set p.block (block.set (p.offset + idx) (some a))⟩
    else none

def malloc (m : Memory α) (size : ℕ) : Pointer × Memory α :=
  (⟨m.blocks.length, 0⟩, ⟨m.blocks ++ [List.replicate size none]⟩)

/-- The cells of the block are gone. -/
def free (m : Memory α) (p : Pointer) : Memory α := ⟨m.blocks.set p.block []⟩

def readFrom (m : Memory α) (p : Pointer) (idx : ℕ) : ℕ → Option (List α)
  | 0 => some []
  | size + 1 => (m.read p idx).bind fun a => (readFrom m p (idx + 1) size).map (a :: ·)

def Holds (m : Memory α) (p : Pointer) (xs : List α) : Prop :=
  ∀ idx a, xs[idx]? = some a → m.read p idx = some a

variable {m m' : Memory α} {p : Pointer} {xs : List α}

lemma Holds.mono (h : m.Holds p xs) (hm : m.blocks <+: m'.blocks) : m'.Holds p xs := by
  obtain ⟨later, hl⟩ := hm
  intro idx a ha
  have hr := h idx a ha
  rw [read, Option.join_eq_some_iff, Option.bind_eq_some_iff] at hr
  obtain ⟨block, hb, hc⟩ := hr
  obtain ⟨hlt, -⟩ := List.getElem?_eq_some_iff.mp hb
  rw [read, ← hl, List.getElem?_append_left hlt, hb, Option.bind_some, hc, Option.join_some]

lemma Holds.same (h : m.Holds p xs) (hb : m'.blocks[p.block]? = m.blocks[p.block]?) :
    m'.Holds p xs := by
  intro idx a ha
  rw [read, hb]
  exact h idx a ha

lemma free_other {q : Pointer} {block : ℕ} (h : block ≠ q.block) :
    (m.free q).blocks[block]? = m.blocks[block]? :=
  List.getElem?_set_ne (Ne.symm h)

lemma length_free (m : Memory α) (q : Pointer) : (m.free q).blocks.length = m.blocks.length :=
  List.length_set

lemma holds_last (blocks : List (List (Option α))) (xs : List α) :
    Holds ⟨blocks ++ [xs.map some]⟩ ⟨blocks.length, 0⟩ xs := by
  intro idx a ha
  simp [read, ha]

lemma write_last (blocks : List (List (Option α))) (before after : List (Option α))
    (c : Option α) (a : α) :
    write ⟨blocks ++ [before ++ c :: after]⟩ ⟨blocks.length, 0⟩ before.length a =
      some ⟨blocks ++ [before ++ some a :: after]⟩ := by
  simp [write]

lemma Holds.readFrom (before after : List α) (h : m.Holds p (before ++ after)) :
    m.readFrom p before.length after.length = some after := by
  induction after generalizing before with
  | nil => rfl
  | cons a after ih =>
    have ha : m.read p before.length = some a := h before.length a (by simp)
    have hrest := ih (before ++ [a]) (by simpa using h)
    rw [List.length_append, List.length_singleton] at hrest
    rw [List.length_cons, Memory.readFrom, ha, Option.bind_some, hrest, Option.map_some]

end Memory

end PhasicJ.CMemory
