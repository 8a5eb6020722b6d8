import PhasicJ.Code.Unsplicing
import PhasicJ.Instr.Instrumenter

/-! Deleting the event calls of an instrumented class gives back the class. -/

namespace PhasicJ.Instr

open Code

namespace MethodInstrumenter

variable {eventHandlerClass : String}

lemma accept_eq_spliceBefore :
    accept eventHandlerClass = spliceBefore (monitorCall eventHandlerClass) :=
  funext accept_eq

lemma monitorCall_call (e call : MethodEvent) (h : monitorCall eventHandlerClass e = some call) :
    monitorCall eventHandlerClass call = none := by
  rcases monitorCall_eq h with ⟨-, rfl⟩ | ⟨-, rfl⟩ <;> rfl

variable (eventHandlerClass) in
lemma accept_eq_self {body : List MethodEvent} :
    accept eventHandlerClass body = body ↔ ∀ e ∈ body, e.isMonitor = false := by
  rw [accept_eq_spliceBefore, spliceBefore_eq_self]
  apply forall₂_congr
  intro e _
  rw [← monitorCall_isSome eventHandlerClass, Option.isSome_eq_false_iff, Option.isNone_iff_eq_none]

end MethodInstrumenter

namespace MonitorInsnInstrumenter

open MethodInstrumenter

variable (i : MonitorInsnInstrumenter)

def removeEventCallsFromMethod (m : MethodMember) : MethodMember :=
  { m with body := unsplice (monitorCall i.eventHandlerClass) m.body }

def removeEventCalls (cls : ClassFile) : ClassFile :=
  { cls with methods := cls.methods.map i.removeEventCallsFromMethod }

variable {i} {cls : ClassFile}

lemma removeEventCallsFromMethod_visitMethod (m : MethodMember) :
    i.removeEventCallsFromMethod (i.visitMethod m) = m := by
  rw [removeEventCallsFromMethod, visitMethod, accept_eq_spliceBefore,
    unsplice_spliceBefore monitorCall_call]

lemma visitMethod_eq_self {m : MethodMember} :
    i.visitMethod m = m ↔ ∀ e ∈ m.body, e.isMonitor = false := by
  rw [← accept_eq_self i.eventHandlerClass, visitMethod]
  constructor
  · exact congrArg MethodMember.body
  · intro h
    rw [h]

lemma visitMethod_iterate (n : ℕ) (m : MethodMember) :
    i.visitMethod^[n] m =
      { m with body := (accept i.eventHandlerClass)^[n] m.body } := by
  induction n with
  | zero => rfl
  | succ n ih =>
    rw [Function.iterate_succ_apply', Function.iterate_succ_apply', ih]
    rfl

section NotAmended

variable (hc : ∀ a ∈ i.amendments, cls.name ≠ a.classToAmend)

include hc

lemma instrument_eq_of_not_amended :
    i.instrument cls = { cls with methods := cls.methods.map i.visitMethod } := by
  have ha : i.amendmentsOf cls.name = [] := by
    rw [amendmentsOf, List.filter_eq_nil_iff]
    simpa using hc
  simp [instrument, ha]

lemma removeEventCalls_instrument : i.removeEventCalls (i.instrument cls) = cls := by
  have hm : i.removeEventCallsFromMethod ∘ i.visitMethod = id :=
    funext removeEventCallsFromMethod_visitMethod
  rw [instrument_eq_of_not_amended hc, removeEventCalls, List.map_map, hm, List.map_id]

lemma instrument_eq_self_iff :
    i.instrument cls = cls ↔ ∀ m ∈ cls.methods, ∀ e ∈ m.body, e.isMonitor = false := by
  rw [instrument_eq_of_not_amended hc]
  constructor
  · intro h m hm
    have hl : cls.methods.map i.visitMethod = cls.methods.map id := by
      simpa using congrArg ClassFile.methods h
    exact visitMethod_eq_self.mp (List.map_inj_left.mp hl m hm)
  · intro h
    have hl : cls.methods.map i.visitMethod = cls.methods.map id :=
      List.map_inj_left.mpr fun m hm => visitMethod_eq_self.mpr (h m hm)
    rw [hl, List.map_id]

lemma instrument_iterate (n : ℕ) :
    i.instrument^[n] cls = { cls with methods := cls.methods.map i.visitMethod^[n] } := by
  induction n with
  | zero => simp
  | succ n ih =>
    rw [Function.iterate_succ_apply', ih, instrument_eq_of_not_amended (by exact hc),
      List.map_map, ← Function.iterate_succ']

end NotAmended

theorem instrument_undone (hc : ∀ a ∈ i.amendments, cls.name ≠ a.classToAmend) :
    i.removeEventCalls (i.instrument cls) = cls ∧
      (∀ other : ClassFile, (∀ a ∈ i.amendments, other.name ≠ a.classToAmend) →
        i.instrument other = i.instrument cls → other = cls) ∧
      (i.instrument cls = cls ↔ ∀ m ∈ cls.methods, ∀ e ∈ m.body, e.isMonitor = false) ∧
      ∀ n, i.instrument^[n] cls = { cls with
        methods := cls.methods.map fun m => { m with
          body := m.body.flatMap fun e =>
            (inserted i.eventHandlerClass e).flatMap (List.replicate n) ++ [e] } } := by
  refine ⟨removeEventCalls_instrument hc, ?_, instrument_eq_self_iff hc, ?_⟩
  · intro other ho h
    rw [← removeEventCalls_instrument ho, h, removeEventCalls_instrument hc]
  · intro n
    rw [instrument_iterate hc]
    congr 2
    funext m
    rw [visitMethod_iterate, accept_eq_spliceBefore, spliceBefore_iterate monitorCall_call]
    rfl

def nestedLocks : ClassFile :=
  { JavaLangObjectAmendment.classFile with
    name := "NestedLocks"
    fields := []
    methods := [JavaLangObjectAmendment.voidMethod 9 "run"
      [.code, eventCall "java/lang/Object" "phasicj$agent$rt$monitorEnter",
        .insn Opcodes.MONITORENTER, .insn Opcodes.MONITORENTER, .insn Opcodes.MONITOREXIT,
        .insn Opcodes.RETURN, .maxs 2 1, .methodEnd]] }

theorem instrument_undone_nestedLocks :
    getInstrumenter.removeEventCalls (getInstrumenter.instrument nestedLocks) = nestedLocks ∧
      getInstrumenter.instrument nestedLocks ≠ nestedLocks := by
  have hc : ∀ a ∈ getInstrumenter.amendments, nestedLocks.name ≠ a.classToAmend := by decide
  obtain ⟨hr, -, he, -⟩ := instrument_undone hc
  exact ⟨hr, mt he.mp (by decide)⟩

end MonitorInsnInstrumenter

end PhasicJ.Instr
