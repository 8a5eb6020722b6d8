import PhasicJ.AgentJvm.HookResult

/-! When the class-load hook returns, and when it takes the virtual machine down. -/

namespace PhasicJ.AgentJvm

open Panics AgentConf InstrumenterProcess

/-- The arguments as JVMTI gives them: the places are there, and no pointer to them is null. -/
structure HookArgs.Passed (args : HookArgs) (env : JvmtiEnv) (cls : Bytes) : Prop
    extends args.Valid env cls where
  classData_nonnull : args.classData ≠ nullPtr
  newClassDataLen_nonnull : args.newClassDataLen ≠ nullPtr
  newClassData_nonnull : args.newClassData ≠ nullPtr

/-- The instrumented class can be handed over: it fits into a new block and its size into a
`jint`. -/
def HandsOver (A : Allocator) (env : JvmtiEnv) (out : Bytes) : Prop :=
  out ≠ [] ∧ out.length < 2 ^ 31 ∧ ∃ buf, A.allocate env.memory out.length = .ok buf

/-- The hook has nothing to do for a class of the runtime. For any other class the dumps that the
configuration asks for must succeed, and so must the handing over of the class. -/
def HookSucceeds (A : Allocator) (answers : HookAnswers) (env : JvmtiEnv) (conf : PjAgentConf)
    (name : String) (cls : Bytes) : Prop :=
  startsWith name "phasicj/agent/rt/" = true ∨
    (conf.debugDumpClassesBeforeInstr = true → answers.dumpBefore = true) ∧
      ∀ out, answers.instrument conf.phasicjExec cls = some out →
        (conf.debugDumpClassesAfterInstr = true → answers.dumpAfter = true) ∧ HandsOver A env out

section Returning

variable {A : Allocator} {answers : HookAnswers} {args : HookArgs} {env : JvmtiEnv} {cls : Bytes}

lemma run_require {b : Bool} {message : String} (h : b = true) (env : JvmtiEnv) :
    (Action.require b message).run env = .returned () env :=
  Action.require_eq_returned.mpr ⟨h, rfl⟩

lemma not_or_eq_true {flag ok : Bool} : (!flag || ok) = true ↔ (flag = true → ok = true) := by
  cases flag <;> simp

lemma returnClass_returns (hargs : args.Passed env cls) {out : Bytes} :
    (∃ u, (returnClass A args out).run env = .returned () u) ↔ HandsOver A env out := by
  constructor
  · rintro ⟨u, h⟩
    obtain ⟨buf, e₁, h₁, h⟩ := Action.bind_eq_returned.mp h
    obtain ⟨_, e₂, h₂, h⟩ := Action.bind_eq_returned.mp h
    obtain ⟨_, e₃, h₃, -⟩ := Action.bind_eq_returned.mp h
    obtain ⟨hlt, -⟩ := Action.require_eq_returned.mp h₃
    obtain ⟨hn, -⟩ := Jvmti.copyNonoverlapping_returned h₂
    refine ⟨?_, of_decide_eq_true hlt, ?_⟩
    · rintro rfl
      exact hn (Jvmti.allocate_empty h₁)
    · simp only [Jvmti.allocate] at h₁
      split at h₁
      · exact ⟨_, by assumption⟩
      · cases h₁
  · rintro ⟨hne, hlt, buf, hbuf⟩
    have hpos : 0 < out.length := List.length_pos_of_ne_nil hne
    obtain ⟨hnull, hfresh⟩ := A.fresh _ _ _ hpos hbuf
    obtain ⟨n, hn⟩ := hargs.newClassDataLen
    obtain ⟨p, hp⟩ := hargs.newClassData
    have hlen : args.newClassDataLen ≠ buf := by
      rintro rfl
      rw [hfresh] at hn
      cases hn
    have hdata : args.newClassData ≠ buf := by
      rintro rfl
      rw [hfresh] at hp
      cases hp
    have hcells : args.newClassData ≠ args.newClassDataLen := by
      intro he
      rw [he, hn] at hp
      cases hp
    have h₁ : (Jvmti.allocate A out.length).run env =
        .returned buf (env.set buf (some (.uninit out.length))) := by
      simp [Jvmti.allocate, hbuf, hne]
    have h₂ : (Jvmti.copyNonoverlapping out buf).run (env.set buf (some (.uninit out.length))) =
        .returned () (env.set buf (some (.bytes out))) := by
      simp [Jvmti.copyNonoverlapping, JvmtiEnv.block?, hnull, JvmtiEnv.set]
    have h₃ : (Jvmti.writeJint args.newClassDataLen out.length).run
        (env.set buf (some (.bytes out))) =
        .returned () ((env.set buf (some (.bytes out))).set args.newClassDataLen
          (some (.jint out.length))) := by
      simp [Jvmti.writeJint, JvmtiEnv.block?, hargs.newClassDataLen_nonnull,
        JvmtiEnv.set_other hlen, hn]
    refine ⟨handedOver env args buf out, ?_⟩
    rw [returnClass, Action.bind_returned h₁, Action.bind_returned h₂,
      Action.bind_returned (run_require (decide_eq_true hlt) _), Action.bind_returned h₃]
    simp [Jvmti.writePointer, JvmtiEnv.block?, hargs.newClassData_nonnull,
      JvmtiEnv.set_other hcells, JvmtiEnv.set_other hdata, hp, handedOver]

lemma readClass_returns (hargs : args.Passed env cls) :
    (jintToUsize args.classDataLen).run env = .returned cls.length env ∧
      (Jvmti.sliceFromRawParts args.classData cls.length).run env = .returned cls env := by
  constructor
  · have hz : decide ((0 : ℤ) ≤ cls.length) = true := decide_eq_true (Int.natCast_nonneg _)
    rw [jintToUsize, hargs.classDataLen, Action.bind_returned (run_require hz env)]
    simp
  · have hb := JvmtiEnv.block?_eq_some.mpr ⟨hargs.classData_nonnull, hargs.classData⟩
    simp [Jvmti.sliceFromRawParts, hb]

lemma hookWithConf_returns (hargs : args.Passed env cls) {conf : PjAgentConf} :
    (∃ u, (hookWithConf A answers args conf).run env = .returned () u) ↔
      ∃ name, args.name.bind fromUtf8 = some name ∧
        HookSucceeds A answers env conf name cls := by
  cases hname : args.name.bind fromUtf8 with
  | none =>
    have hstr : ∀ s u, (toStr args.name).run env ≠ .returned s u := by
      intro s u h
      unfold toStr at h
      cases hb : args.name with
      | none => rw [hb] at h; cases h
      | some bytes =>
        rw [hb, Option.bind_some] at hname
        simp only [hb, hname] at h
        cases h
    simp only [reduceCtorEq, false_and, exists_false, iff_false, not_exists]
    intro u h
    obtain ⟨s, e, hs, -⟩ := Action.bind_eq_returned.mp h
    exact hstr s e hs
  | some name =>
    obtain ⟨bytes, hb, hs⟩ := Option.bind_eq_some_iff.mp hname
    have hstr : (toStr args.name).run env = .returned name env := by
      simp only [hb, toStr, hs, Action.run_pure]
    obtain ⟨hlen, hslice⟩ := readClass_returns hargs
    simp only [Option.some.injEq, exists_eq_left']
    rw [hookWithConf, Action.bind_returned hstr, HookSucceeds]
    cases startsWith name "phasicj/agent/rt/" with
    | true => simp
    | false =>
      rw [if_neg (by simp), Action.bind_returned hlen, Action.bind_returned hslice]
      simp only [Bool.false_eq_true, false_or, ← not_or_eq_true]
      cases hd : (!conf.debugDumpClassesBeforeInstr || answers.dumpBefore) with
      | false => simp [Action.require, Action.run_bind]
      | true =>
        rw [Action.bind_returned (run_require rfl env)]
        cases ho : answers.instrument conf.phasicjExec cls with
        | none => simp
        | some out =>
          simp only [Option.some.injEq, forall_eq', true_and]
          cases ha : (!conf.debugDumpClassesAfterInstr || answers.dumpAfter) with
          | false => simp [Action.require, Action.run_bind]
          | true =>
            rw [Action.bind_returned (run_require rfl env), returnClass_returns hargs]
            simp

end Returning

/-- The hook returns, and leaves its out parameters alone where it could not instrument, exactly
when the name is there and in UTF-8 and neither a dump nor the handing over fails. -/
theorem hook_returns (A : Allocator) (answers : HookAnswers) {args : HookArgs} {env : JvmtiEnv}
    {storage ptr : Addr} {conf : PjAgentConf} {cls : Bytes} (hs : Stores env storage ptr conf)
    (hargs : args.Passed env cls) :
    (∃ u, (pjClassFileLoadHook A answers args).run env = .returned () u ∧
      (answers.instrument conf.phasicjExec cls = none →
        u.memory args.newClassData = env.memory args.newClassData ∧
          u.memory args.newClassDataLen = env.memory args.newClassDataLen)) ↔
      ∃ name, args.name.bind fromUtf8 = some name ∧
        HookSucceeds A answers env conf name cls := by
  have hrun : (pjClassFileLoadHook A answers args).run env =
      (hookWithConf A answers args conf).run env := by
    rw [pjClassFileLoadHook, Action.bind_returned (of_stores hs)]
  rw [← hookWithConf_returns hargs, hrun]
  constructor
  · rintro ⟨u, h, -⟩
    exact ⟨u, h⟩
  · rintro ⟨u, h⟩
    refine ⟨u, h, fun hi => ?_⟩
    obtain ⟨name, hname, -⟩ := (hookWithConf_returns hargs).mp ⟨u, h⟩
    rcases hookWithConf_returned hname hargs.classData hargs.classDataLen h with
      ⟨-, rfl⟩ | ⟨-, out, ho, -⟩
    · exact ⟨rfl, rfl⟩
    · rw [hi] at ho
      cases ho

section Example

def dumpingEnv : JvmtiEnv :=
  smallEnv.set 8 (some (.rawEnvStorage (.ofConf
    { PjAgentConf.newWithDefaults with debugDumpClassesBeforeInstr := true } nullPtr 0)))

lemma smallArgs_passed (name : Option Bytes) :
    { smallArgs with name := name }.Passed smallEnv smallClassData where
  classData := rfl
  classDataLen := rfl
  newClassDataLen := ⟨0, rfl⟩
  newClassData := ⟨nullPtr, rfl⟩
  classData_nonnull := (by decide : smallArgs.classData ≠ nullPtr)
  newClassDataLen_nonnull := (by decide : smallArgs.newClassDataLen ≠ nullPtr)
  newClassData_nonnull := (by decide : smallArgs.newClassData ≠ nullPtr)

theorem hook_returns_small :
    ∃ u, (pjClassFileLoadHook oneBlock smallAnswers smallArgs).run smallEnv = .returned () u := by
  have hs : HookSucceeds oneBlock smallAnswers smallEnv .newWithDefaults "A" smallClassData := by
    refine .inr ⟨fun _ => rfl, ?_⟩
    intro out ho
    obtain rfl : smallClassData = out := Option.some.inj ho
    exact ⟨fun _ => rfl, by decide, by decide, 64, rfl⟩
  obtain ⟨u, h, -⟩ := (hook_returns oneBlock smallAnswers smallEnv_stores
    (smallArgs_passed (some (asBytes "A")))).mpr ⟨"A", fromUtf8_asBytes "A", hs⟩
  exact ⟨u, h⟩

theorem hook_takes_vm_down :
    (Stores smallEnv 8 nullPtr .newWithDefaults ∧
      ∀ name, { smallArgs with name := name }.Passed smallEnv smallClassData) ∧
    (pjClassFileLoadHook oneBlock smallAnswers { smallArgs with name := none }).run smallEnv =
      .undefined ∧
    (pjClassFileLoadHook oneBlock smallAnswers
      { smallArgs with name := some [0xED, 0xA0, 0xBD, 0xED, 0xB8, 0x80] }).run smallEnv =
      .panicked unwrapNone smallEnv ∧
    (pjClassFileLoadHook oneBlock { smallAnswers with dumpBefore := false } smallArgs).run
      dumpingEnv = .panicked unwrapErr dumpingEnv := by
  refine ⟨⟨smallEnv_stores, smallArgs_passed⟩, ?_, ?_, ?_⟩
  · rw [pjClassFileLoadHook, Action.bind_returned (of_stores smallEnv_stores)]
    rfl
  · have hn : fromUtf8 [0xED, 0xA0, 0xBD, 0xED, 0xB8, 0x80] = none := by decide
    rw [pjClassFileLoadHook, Action.bind_returned (of_stores smallEnv_stores)]
    simp [hookWithConf, toStr, hn, Action.run_bind]
  · have hstores : Stores dumpingEnv 8 nullPtr
        { PjAgentConf.newWithDefaults with debugDumpClassesBeforeInstr := true } :=
      ⟨rfl, by decide, 0, rfl, rfl⟩
    have hname : (toStr smallArgs.name).run dumpingEnv = .returned "A" dumpingEnv := by
      simp [toStr, smallArgs, fromUtf8_asBytes]
    rw [pjClassFileLoadHook, Action.bind_returned (of_stores hstores)]
    simp only
    rw [hookWithConf, Action.bind_returned hname, if_neg (by decide)]
    rfl

end Example

end PhasicJ.AgentJvm
