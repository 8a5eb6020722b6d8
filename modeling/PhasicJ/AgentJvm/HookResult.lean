import PhasicJ.AgentJvm.ClassFileLoadHook
import PhasicJ.Instr.Instrumenter
import PhasicJ.InstrumenterProcess.Invocation

/-! What the class-load hook hands to the virtual machine. -/

namespace PhasicJ.AgentJvm

open Panics Instr InstrumenterProcess

structure HookArgs.Valid (args : HookArgs) (env : JvmtiEnv) (cls : Bytes) : Prop where
  classData : env.memory args.classData = some (.bytes cls)
  classDataLen : args.classDataLen = cls.length
  newClassDataLen : ∃ n, env.memory args.newClassDataLen = some (.jint n)
  newClassData : ∃ a, env.memory args.newClassData = some (.pointer a)

/-- When the hook returns, the virtual machine gets nothing, or the whole instrumentation of the
class in a new block. It gets that exactly when the class is not one of the runtime's and the child
ended well. -/
theorem hook_returns_whole_class (classReader : Bytes → Option ClassFile)
    (toByteArray : ClassFile → Option Bytes) {A : Allocator} {answers : HookAnswers}
    {args : HookArgs} {env u : JvmtiEnv} {name : String} {cls : Bytes}
    {status : Option ExitStatus} (hname : args.name.bind fromUtf8 = some name)
    (hargs : args.Valid env cls)
    (hinv : ∀ exec, Invocation (getInstrumenter.instrumentBytes classReader toByteArray) cls status
      (answers.instrument exec cls))
    (h : (pjClassFileLoadHook A answers args).run env = .returned () u) :
    (startsWith name "phasicj/agent/rt/" = false ∧ EndedWell status →
      ∃ out buf, getInstrumenter.instrumentBytes classReader toByteArray cls = some out ∧
        buf ≠ nullPtr ∧ env.memory buf = none ∧ u.memory buf = some (.bytes out) ∧
        u.memory args.newClassData = some (.pointer buf) ∧
        u.memory args.newClassDataLen = some (.jint out.length)) ∧
    (¬ (startsWith name "phasicj/agent/rt/" = false ∧ EndedWell status) →
      u.memory args.newClassData = env.memory args.newClassData ∧
        u.memory args.newClassDataLen = env.memory args.newClassDataLen) ∧
    u.memory args.classData = env.memory args.classData := by
  obtain ⟨storage, e, h₁, h₂⟩ := Action.bind_eq_returned.mp h
  obtain rfl := of_returned h₁
  cases storage with
  | none => simp at h₂
  | some storage =>
    obtain ⟨hwell, hbad⟩ := (hinv storage.conf.phasicjExec).result
    obtain ⟨n, hn⟩ := hargs.newClassDataLen
    obtain ⟨p, hp⟩ := hargs.newClassData
    have hcls := hargs.classData
    rcases hookWithConf_returned hname hargs.classData hargs.classDataLen h₂ with
      ⟨hskip, rfl⟩ | ⟨hstart, out, hout, buf, hbuf, hfresh, rfl⟩
    · refine ⟨?_, fun _ => ⟨rfl, rfl⟩, rfl⟩
      rintro ⟨hstart, hended⟩
      obtain ⟨out, ho, -⟩ := hwell hended
      rcases hskip with hs | hs
      · rw [hs] at hstart
        cases hstart
      · rw [hs] at ho
        cases ho
    · have hended : EndedWell status := by
        by_contra hne
        rw [hbad hne] at hout
        cases hout
      obtain ⟨out', ho, hinstr⟩ := hwell hended
      obtain rfl : out = out' := Option.some.inj (hout.symm.trans ho)
      have hcells : args.newClassDataLen ≠ args.newClassData := by
        intro he
        rw [he, hp] at hn
        cases hn
      have hbufLen : buf ≠ args.newClassDataLen := by
        rintro rfl
        rw [hfresh] at hn
        cases hn
      have hbufData : buf ≠ args.newClassData := by
        rintro rfl
        rw [hfresh] at hp
        cases hp
      refine ⟨fun _ => ⟨out, buf, hinstr, hbuf, hfresh, ?_, ?_, ?_⟩,
        fun hn => absurd ⟨hstart, hended⟩ hn, ?_⟩
      · rw [handedOver, JvmtiEnv.set_other hbufData, JvmtiEnv.set_other hbufLen,
          JvmtiEnv.set_same]
      · rw [handedOver, JvmtiEnv.set_same]
      · rw [handedOver, JvmtiEnv.set_other hcells, JvmtiEnv.set_same]
      · apply handedOver_memory
        · rintro he
          rw [he, hfresh] at hcls
          cases hcls
        · intro he
          rw [he, hn] at hcls
          cases hcls
        · intro he
          rw [he, hp] at hcls
          cases hcls

section Example

def smallClass : ClassFile where
  version := 55
  access := 33
  name := "A"
  signature := none
  superName := some "java/lang/Object"
  interfaces := []
  attributes := []
  fields := []
  methods := []

def smallClassData : Bytes :=
  [0xCA, 0xFE, 0xBA, 0xBE, 0, 0, 0, 55, 0, 5, 1, 0, 1, 65, 7, 0, 1, 1, 0, 16, 106, 97, 118, 97, 47,
    108, 97, 110, 103, 47, 79, 98, 106, 101, 99, 116, 7, 0, 3, 0, 33, 0, 2, 0, 4, 0, 0, 0, 0, 0,
    0, 0, 0]

def smallWriter (cls : ClassFile) : Option Bytes :=
  if cls = smallClass then some smallClassData else none

def smallArgs : HookArgs where
  name := some (asBytes "A")
  classDataLen := smallClassData.length
  classData := 16
  newClassDataLen := 24
  newClassData := 32

def smallEnv : JvmtiEnv where
  memory a :=
    if a = 8 then some (.rawEnvStorage (.ofConf .newWithDefaults nullPtr 0))
    else if a = 16 then some (.bytes smallClassData)
    else if a = 24 then some (.jint 0)
    else if a = 32 then some (.pointer nullPtr)
    else none
  localStorage := 8

def smallAnswers : HookAnswers := ⟨true, true, fun _ _ => some smallClassData⟩

lemma smallEnv_stores : Stores smallEnv 8 nullPtr .newWithDefaults :=
  ⟨rfl, by decide, 0, rfl, rfl⟩

def syncClass (body : List MethodEvent) : ClassFile where
  version := 55
  access := 33
  name := "A"
  signature := none
  superName := some "java/lang/Object"
  interfaces := []
  attributes := []
  fields := []
  methods := [⟨1, "f", voidMethodDescr, none, [], body⟩]

def syncBody : List MethodEvent :=
  [.code, .varInsn Opcodes.ALOAD 0, .insn Opcodes.MONITORENTER, .varInsn Opcodes.ALOAD 0,
    .insn Opcodes.MONITOREXIT, .insn Opcodes.RETURN, .maxs 1 1, .methodEnd]

def syncBodyInstrumented : List MethodEvent :=
  [.code, .varInsn Opcodes.ALOAD 0,
    .methodInsn Opcodes.INVOKESTATIC (.object "java/lang/Object") "phasicj$agent$rt$monitorEnter"
      voidMethodDescr false,
    .insn Opcodes.MONITORENTER, .varInsn Opcodes.ALOAD 0,
    .methodInsn Opcodes.INVOKESTATIC (.object "java/lang/Object") "phasicj$agent$rt$monitorExit"
      voidMethodDescr false,
    .insn Opcodes.MONITOREXIT, .insn Opcodes.RETURN, .maxs 1 1, .methodEnd]

def syncClassData : Bytes :=
  [0xCA, 0xFE, 0xBA, 0xBE, 0, 0, 0, 55, 0, 8, 1, 0, 1, 65, 7, 0, 1, 1, 0, 16, 106, 97, 118, 97, 47,
    108, 97, 110, 103, 47, 79, 98, 106, 101, 99, 116, 7, 0, 3, 1, 0, 1, 102, 1, 0, 3, 40, 41, 86, 1,
    0, 4, 67, 111, 100, 101, 0, 33, 0, 2, 0, 4, 0, 0, 0, 0, 0, 1, 0, 1, 0, 5, 0, 6, 0, 1, 0, 7, 0,
    0, 0, 17, 0, 1, 0, 1, 0, 0, 0, 5, 42, 194, 42, 195, 177, 0, 0, 0, 0, 0, 0]

def syncClassInstrumented : Bytes :=
  [0xCA, 0xFE, 0xBA, 0xBE, 0, 0, 0, 55, 0, 14, 1, 0, 1, 65, 7, 0, 1, 1, 0, 16, 106, 97, 118, 97, 47,
    108, 97, 110, 103, 47, 79, 98, 106, 101, 99, 116, 7, 0, 3, 1, 0, 1, 102, 1, 0, 3, 40, 41, 86, 1,
    0, 29, 112, 104, 97, 115, 105, 99, 106, 36, 97, 103, 101, 110, 116, 36, 114, 116, 36, 109, 111,
    110, 105, 116, 111, 114, 69, 110, 116, 101, 114, 12, 0, 7, 0, 6, 10, 0, 4, 0, 8, 1, 0, 28, 112,
    104, 97, 115, 105, 99, 106, 36, 97, 103, 101, 110, 116, 36, 114, 116, 36, 109, 111, 110, 105,
    116, 111, 114, 69, 120, 105, 116, 12, 0, 10, 0, 6, 10, 0, 4, 0, 11, 1, 0, 4, 67, 111, 100, 101,
    0, 33, 0, 2, 0, 4, 0, 0, 0, 0, 0, 1, 0, 1, 0, 5, 0, 6, 0, 1, 0, 13, 0, 0, 0, 23, 0, 1, 0, 1, 0,
    0, 0, 11, 42, 184, 0, 9, 194, 42, 184, 0, 12, 195, 177, 0, 0, 0, 0, 0, 0]

def syncReader (classData : Bytes) : Option ClassFile :=
  if classData = syncClassData then some (syncClass syncBody) else none

def syncWriter (cls : ClassFile) : Option Bytes :=
  if cls = syncClass syncBodyInstrumented then some syncClassInstrumented else none

def syncArgs : HookArgs := { smallArgs with classDataLen := syncClassData.length }

def syncEnv : JvmtiEnv := smallEnv.set 16 (some (.bytes syncClassData))

def syncAnswers : HookAnswers := ⟨true, true, fun _ _ => some syncClassInstrumented⟩

lemma syncEnv_stores : Stores syncEnv 8 nullPtr .newWithDefaults :=
  ⟨rfl, by decide, 0, rfl, rfl⟩

lemma syncInstrumenter :
    getInstrumenter.instrumentBytes syncReader syncWriter syncClassData =
      some syncClassInstrumented := by
  have hi : getInstrumenter.instrument (syncClass syncBody) = syncClass syncBodyInstrumented := by
    decide
  rw [MonitorInsnInstrumenter.instrumentBytes, syncReader, if_pos rfl, Option.bind_some, hi,
    syncWriter, if_pos rfl]

-- the length of the class is counted to its end
set_option maxRecDepth 2000 in
lemma syncHook_returns :
    (pjClassFileLoadHook oneBlock syncAnswers syncArgs).run syncEnv =
      .returned () (handedOver syncEnv syncArgs 64 syncClassInstrumented) := by
  have hname : (toStr syncArgs.name).run syncEnv = .returned "A" syncEnv := by
    simp [toStr, syncArgs, smallArgs, fromUtf8_asBytes]
  rw [pjClassFileLoadHook, Action.bind_returned (of_stores syncEnv_stores)]
  simp only
  rw [hookWithConf, Action.bind_returned hname, if_neg (by decide)]
  have hset : (syncEnv.set 64 (some (.uninit syncClassInstrumented.length))).set 64
      (some (.bytes syncClassInstrumented)) =
        syncEnv.set 64 (some (.bytes syncClassInstrumented)) := by
    simp [JvmtiEnv.set]
  rw [handedOver, ← hset]
  rfl

theorem hook_returns_whole_class_sync :
    ∃ out buf, getInstrumenter.instrumentBytes syncReader syncWriter syncClassData = some out ∧
      out ≠ syncClassData ∧ buf ≠ nullPtr ∧ syncEnv.memory buf = none ∧
      (handedOver syncEnv syncArgs 64 syncClassInstrumented).memory buf = some (.bytes out) ∧
      (handedOver syncEnv syncArgs 64 syncClassInstrumented).memory 32 = some (.pointer buf) ∧
      (handedOver syncEnv syncArgs 64 syncClassInstrumented).memory 24 =
        some (.jint out.length) := by
  obtain ⟨hreturned, -⟩ := hook_returns_whole_class syncReader syncWriter
    (by simp [syncArgs, smallArgs, fromUtf8_asBytes] : syncArgs.name.bind fromUtf8 = some "A")
    ⟨rfl, rfl, ⟨0, rfl⟩, ⟨nullPtr, rfl⟩⟩
    (fun _ => Invocation.completes (by decide) syncInstrumenter (by decide) (by decide))
    syncHook_returns
  obtain ⟨out, buf, hout, hbuf⟩ := hreturned ⟨by decide, _, rfl, rfl⟩
  refine ⟨out, buf, hout, ?_, hbuf⟩
  obtain rfl : syncClassInstrumented = out := Option.some.inj (syncInstrumenter.symm.trans hout)
  decide

end Example

end PhasicJ.AgentJvm
