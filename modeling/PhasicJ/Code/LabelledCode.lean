import PhasicJ.Transitions.LabelledRuns

/-! Straight-line code with labels, jumps and a table of exception handlers. -/

namespace PhasicJ.Code

open Transitions

structure Handler (L T : Type) where
  start : L
  stop : L
  target : L
  catches : T

inductive Effect (L X R F : Type) where
  | next (frame : F)
  | goto (label : L) (frame : F)
  | raise (x : X) (frame : F)
  | finish (result : R)

/-- The meaning of a kind of events: which of them are labels or entries of the handler table, how
each of them may change a frame, and how an exception enters a handler. -/
structure Semantics (E L T X R F : Type) where
  label? : E → Option L
  handler? : E → Option (Handler L T)
  effect : E → F → Effect L X R F → Prop
  catches : T → X → Bool
  enter : X → F → F

inductive Config (X R F : Type) where
  | running (pc : ℕ) (frame : F)
  | finished (result : R)
  | uncaught (x : X) (frame : F)

structure Item (E F : Type) where
  pc : ℕ
  event : E
  frame : F

namespace Semantics

variable {E L T X R F : Type} [DecidableEq L] (S : Semantics E L T X R F)

def position (code : List E) (l : L) : Option ℕ := code.findIdx? fun e => S.label? e = some l

def covers (code : List E) (h : Handler L T) (pc : ℕ) : Bool :=
  match S.position code h.start, S.position code h.stop with
  | some start, some stop => start < pc && pc < stop
  | _, _ => false

def dispatch (code : List E) (x : X) (pc : ℕ) : Option (Handler L T) :=
  (code.filterMap S.handler?).find? fun h => S.covers code h pc && S.catches h.catches x

inductive Step (code : List E) : Config X R F → Item E F → Config X R F → Prop
  | next {pc : ℕ} {e : E} {f f' : F} :
      code[pc]? = some e → S.effect e f (.next f') →
      Step code (.running pc f) ⟨pc, e, f⟩ (.running (pc + 1) f')
  | goto {pc q : ℕ} {e : E} {f f' : F} {l : L} :
      code[pc]? = some e → S.effect e f (.goto l f') → S.position code l = some q →
      Step code (.running pc f) ⟨pc, e, f⟩ (.running q f')
  | caught {pc q : ℕ} {e : E} {f f' : F} {x : X} {h : Handler L T} :
      code[pc]? = some e → S.effect e f (.raise x f') → S.dispatch code x pc = some h →
      S.position code h.target = some q →
      Step code (.running pc f) ⟨pc, e, f⟩ (.running q (S.enter x f'))
  | uncaught {pc : ℕ} {e : E} {f f' : F} {x : X} :
      code[pc]? = some e → S.effect e f (.raise x f') → S.dispatch code x pc = none →
      Step code (.running pc f) ⟨pc, e, f⟩ (.uncaught x f')
  | finish {pc : ℕ} {e : E} {f : F} {r : R} :
      code[pc]? = some e → S.effect e f (.finish r) →
      Step code (.running pc f) ⟨pc, e, f⟩ (.finished r)

variable {S} {code : List E}

lemma Step.source {c d : Config X R F} {it : Item E F} (h : S.Step code c it d) :
    c = .running it.pc it.frame ∧ code[it.pc]? = some it.event := by
  cases h <;> exact ⟨rfl, by assumption⟩

end Semantics

end PhasicJ.Code
