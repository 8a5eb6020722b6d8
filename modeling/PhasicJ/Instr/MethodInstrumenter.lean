import PhasicJ.Code.Splicing
import PhasicJ.Instr.MethodEvents

/-! The method visitor that emits an event call before every monitor instruction. -/

namespace PhasicJ.Instr

open Code

def applicationEventsIsInterface : Bool := false

def eventCall (eventHandlerClass event : String) : MethodEvent :=
  .methodInsn Opcodes.INVOKESTATIC (.object eventHandlerClass) event voidMethodDescr
    applicationEventsIsInterface

namespace MethodInstrumenter

variable (eventHandlerClass : String)

def visitInsn (opcode : ℕ) : List MethodEvent :=
  (if opcode = Opcodes.MONITORENTER then
    [eventCall eventHandlerClass "phasicj$agent$rt$monitorEnter"] else []) ++
  (if opcode = Opcodes.MONITOREXIT then
    [eventCall eventHandlerClass "phasicj$agent$rt$monitorExit"] else []) ++
  [.insn opcode]

/-- The events that the visitor emits to its delegate; only `visitInsn` is overridden. -/
def visit : MethodEvent → List MethodEvent
  | .insn opcode => visitInsn eventHandlerClass opcode
  | e => [e]

def accept (body : List MethodEvent) : List MethodEvent := body.flatMap (visit eventHandlerClass)

def monitorCall : MethodEvent → Option MethodEvent
  | .insn opcode =>
    if opcode = Opcodes.MONITORENTER then
      some (eventCall eventHandlerClass "phasicj$agent$rt$monitorEnter")
    else if opcode = Opcodes.MONITOREXIT then
      some (eventCall eventHandlerClass "phasicj$agent$rt$monitorExit")
    else none
  | _ => none

def inserted (e : MethodEvent) : List MethodEvent := (monitorCall eventHandlerClass e).toList

variable {eventHandlerClass}

lemma exit_ne_enter : Opcodes.MONITOREXIT ≠ Opcodes.MONITORENTER := by decide

lemma visit_eq (e : MethodEvent) :
    visit eventHandlerClass e = inserted eventHandlerClass e ++ [e] := by
  cases e with
  | insn opcode =>
    by_cases he : opcode = Opcodes.MONITORENTER
    · simp [visit, visitInsn, inserted, monitorCall, he, exit_ne_enter.symm]
    · by_cases hx : opcode = Opcodes.MONITOREXIT <;>
        simp [visit, visitInsn, inserted, monitorCall, he, hx, exit_ne_enter]
  | _ => rfl

lemma accept_eq (body : List MethodEvent) :
    accept eventHandlerClass body = splice (inserted eventHandlerClass) body := by
  rw [accept, splice]
  exact congrArg₂ _ (funext visit_eq) rfl

variable (eventHandlerClass) in
lemma monitorCall_isSome (e : MethodEvent) :
    (monitorCall eventHandlerClass e).isSome = e.isMonitor := by
  cases e with
  | insn opcode =>
    by_cases he : opcode = Opcodes.MONITORENTER <;>
      by_cases hx : opcode = Opcodes.MONITOREXIT <;>
      simp [monitorCall, MethodEvent.isMonitor, he, hx, exit_ne_enter]
  | _ => rfl

lemma monitorCall_eq {e call : MethodEvent} (h : monitorCall eventHandlerClass e = some call) :
    e = .insn Opcodes.MONITORENTER ∧
        call = eventCall eventHandlerClass "phasicj$agent$rt$monitorEnter" ∨
      e = .insn Opcodes.MONITOREXIT ∧
        call = eventCall eventHandlerClass "phasicj$agent$rt$monitorExit" := by
  cases e with
  | insn opcode =>
    by_cases he : opcode = Opcodes.MONITORENTER
    · simp only [monitorCall, he, if_true, Option.some.injEq] at h
      exact .inl ⟨by rw [he], h.symm⟩
    · by_cases hx : opcode = Opcodes.MONITOREXIT
      · simp only [monitorCall, hx, if_neg exit_ne_enter, if_true, Option.some.injEq] at h
        exact .inr ⟨by rw [hx], h.symm⟩
      · simp [monitorCall, he, hx] at h
  | _ => simp [monitorCall] at h

lemma accept_filter {p : MethodEvent → Bool}
    (h : ∀ event, p (eventCall eventHandlerClass event) = false)
    (body : List MethodEvent) : (accept eventHandlerClass body).filter p = body.filter p := by
  induction body with
  | nil => rfl
  | cons e body ih =>
    have hv : (visit eventHandlerClass e).filter p = [e].filter p := by
      have hn : (inserted eventHandlerClass e).filter p = [] := by
        rw [inserted]
        cases hc : monitorCall eventHandlerClass e with
        | none => rfl
        | some call => rcases monitorCall_eq hc with ⟨-, rfl⟩ | ⟨-, rfl⟩ <;> simp [h]
      rw [visit_eq, List.filter_append, hn, List.nil_append]
    rw [accept, List.flatMap_cons, List.filter_append, hv, ← accept, ih, ← List.filter_append]
    rfl

end MethodInstrumenter

end PhasicJ.Instr
