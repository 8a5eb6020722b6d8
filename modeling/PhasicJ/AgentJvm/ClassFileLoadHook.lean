import PhasicJ.AgentJvm.EnvStorage
import PhasicJ.Instr.MonitorInsnInstrumenter

/-! The class-load hook of the agent. -/

namespace PhasicJ.AgentJvm

open Panics AgentConf InstrumenterProcess

/-- The arguments of a callback: the bytes of the name, if there is one, and the addresses of the
class and of the two out parameters. -/
structure HookArgs where
  name : Option Bytes
  classDataLen : ℤ
  classData : Addr
  newClassDataLen : Addr
  newClassData : Addr

/-- What the hook is answered: whether the dumps succeed, and what an instrumenter that runs an
executable makes of a class, where an I/O error is no result. -/
structure HookAnswers where
  dumpBefore : Bool
  dumpAfter : Bool
  instrument : Option String → Bytes → Option Bytes

def storageMissing : String := "Failed to get JVMTI environment-local storage."

def unwrapNone : String := "called `Option::unwrap()` on a `None` value"

def toStr : Option Bytes → Jvmti String
  | none => Action.undefined
  | some name =>
    match fromUtf8 name with
    | some s => pure s
    | none => Action.panic unwrapNone

def jintToUsize (n : ℤ) : Jvmti ℕ := do
  Action.require (0 ≤ n) unwrapErr
  pure n.toNat

def returnClass (A : Allocator) (args : HookArgs) (instrumentedClass : Bytes) : Jvmti Unit := do
  let bufSize := instrumentedClass.length
  let jvmtiBuf ← Jvmti.allocate A bufSize
  Jvmti.copyNonoverlapping instrumentedClass jvmtiBuf
  Action.require (bufSize < 2 ^ 31) unwrapErr
  Jvmti.writeJint args.newClassDataLen bufSize
  Jvmti.writePointer args.newClassData jvmtiBuf

def hookWithConf (A : Allocator) (answers : HookAnswers) (args : HookArgs) (conf : PjAgentConf) :
    Jvmti Unit := do
  let className ← toStr args.name
  if startsWith className "phasicj/agent/rt/" then pure ()
  else do
    let len ← jintToUsize args.classDataLen
    let cls ← Jvmti.sliceFromRawParts args.classData len
    Action.require (!conf.debugDumpClassesBeforeInstr || answers.dumpBefore) unwrapErr
    match answers.instrument conf.phasicjExec cls with
    | none => pure ()
    | some instrumentedClass => do
      Action.require (!conf.debugDumpClassesAfterInstr || answers.dumpAfter) unwrapErr
      returnClass A args instrumentedClass

def pjClassFileLoadHook (A : Allocator) (answers : HookAnswers) (args : HookArgs) :
    Jvmti Unit := do
  match ← EnvStorage.of with
  | none => Action.panic storageMissing
  | some envStorage => hookWithConf A answers args envStorage.conf

section Results

variable {A : Allocator} {answers : HookAnswers} {args : HookArgs} {env u : JvmtiEnv} {x : Unit}

def handedOver (env : JvmtiEnv) (args : HookArgs) (buf : Addr) (instrumentedClass : Bytes) :
    JvmtiEnv :=
  ((env.set buf (some (.bytes instrumentedClass))).set args.newClassDataLen
    (some (.jint instrumentedClass.length))).set args.newClassData (some (.pointer buf))

lemma handedOver_memory {a buf : Addr} {out : Bytes} (h₁ : a ≠ buf) (h₂ : a ≠ args.newClassDataLen)
    (h₃ : a ≠ args.newClassData) : (handedOver env args buf out).memory a = env.memory a := by
  rw [handedOver, JvmtiEnv.set_other h₃, JvmtiEnv.set_other h₂, JvmtiEnv.set_other h₁]

lemma returnClass_returned {cls : Bytes} (h : (returnClass A args cls).run env = .returned x u) :
    ∃ buf, buf ≠ nullPtr ∧ env.memory buf = none ∧ u = handedOver env args buf cls := by
  obtain ⟨buf, e₁, h₁, h⟩ := Action.bind_eq_returned.mp h
  obtain ⟨_, e₂, h₂, h⟩ := Action.bind_eq_returned.mp h
  obtain ⟨_, e₃, h₃, h⟩ := Action.bind_eq_returned.mp h
  obtain ⟨_, e₄, h₄, h₅⟩ := Action.bind_eq_returned.mp h
  obtain ⟨-, rfl⟩ := Action.require_eq_returned.mp h₃
  obtain rfl := Jvmti.writeJint_returned h₄
  obtain rfl := Jvmti.writePointer_returned h₅
  obtain ⟨hn, -, rfl⟩ := Jvmti.copyNonoverlapping_returned h₂
  rcases Nat.eq_zero_or_pos cls.length with hz | hpos
  -- an empty class gets the null pointer, to which nothing can be copied
  · exact absurd (Jvmti.allocate_empty (hz ▸ h₁)) hn
  · obtain ⟨-, hf, rfl⟩ := Jvmti.allocate_returned h₁ hpos
    refine ⟨buf, hn, hf, ?_⟩
    simp [handedOver, JvmtiEnv.set]

lemma jintToUsize_returned {n : ℤ} {len : ℕ} (h : (jintToUsize n).run env = .returned len u) :
    len = n.toNat ∧ u = env := by
  obtain ⟨_, e, h₁, h₂⟩ := Action.bind_eq_returned.mp h
  obtain ⟨-, rfl⟩ := Action.require_eq_returned.mp h₁
  simp only [Action.run_pure, Outcome.returned.injEq] at h₂
  exact ⟨h₂.1.symm, h₂.2.symm⟩

lemma toStr_returned {name : Option Bytes} {s : String}
    (h : (toStr name).run env = .returned s u) : u = env := by
  unfold toStr at h
  split at h
  · cases h
  · split at h
    · simp only [Action.run_pure, Outcome.returned.injEq] at h
      exact h.2.symm
    · cases h

lemma hookWithConf_keeps {conf : PjAgentConf}
    (h : (hookWithConf A answers args conf).run env = .returned x u) :
    u = env ∨ ∃ out buf, buf ≠ nullPtr ∧ env.memory buf = none ∧
      u = handedOver env args buf out := by
  obtain ⟨name, e, hname, hrest⟩ := Action.bind_eq_returned.mp h
  obtain rfl := toStr_returned hname
  split at hrest
  · simp only [Action.run_pure, Outcome.returned.injEq, true_and] at hrest
    exact .inl hrest.symm
  · obtain ⟨len, e₁, h₁, hslice⟩ := Action.bind_eq_returned.mp hrest
    obtain ⟨cls, e₂, h₂, hdump⟩ := Action.bind_eq_returned.mp hslice
    obtain ⟨_, e₃, h₃, hinstr⟩ := Action.bind_eq_returned.mp hdump
    obtain ⟨-, rfl⟩ := jintToUsize_returned h₁
    obtain ⟨rfl, -⟩ := Jvmti.sliceFromRawParts_returned h₂
    obtain ⟨-, rfl⟩ := Action.require_eq_returned.mp h₃
    cases ho : answers.instrument conf.phasicjExec cls with
    | none =>
      simp only [ho, Action.run_pure, Outcome.returned.injEq, true_and] at hinstr
      exact .inl hinstr.symm
    | some out =>
      simp only [ho] at hinstr
      obtain ⟨_, e₄, h₄, hreturn⟩ := Action.bind_eq_returned.mp hinstr
      obtain ⟨-, rfl⟩ := Action.require_eq_returned.mp h₄
      exact .inr ⟨out, returnClass_returned hreturn⟩

/-- When the hook returns, it has either changed nothing, because the class is one of the runtime's
or could not be instrumented, or it has handed over what the instrumenter made of the class. -/
lemma hookWithConf_returned {conf : PjAgentConf} {name : String} {cls : Bytes}
    (hname : args.name.bind fromUtf8 = some name)
    (hcls : env.memory args.classData = some (.bytes cls)) (hlen : args.classDataLen = cls.length)
    (h : (hookWithConf A answers args conf).run env = .returned x u) :
    (startsWith name "phasicj/agent/rt/" = true ∨ answers.instrument conf.phasicjExec cls = none) ∧
      u = env ∨
    startsWith name "phasicj/agent/rt/" = false ∧
      ∃ out, answers.instrument conf.phasicjExec cls = some out ∧
        ∃ buf, buf ≠ nullPtr ∧ env.memory buf = none ∧ u = handedOver env args buf out := by
  obtain ⟨bytes, hbytes, hutf8⟩ := Option.bind_eq_some_iff.mp hname
  have hstr : (toStr args.name).run env = .returned name env := by
    simp only [hbytes, toStr, hutf8, Action.run_pure]
  rw [hookWithConf, Action.bind_returned hstr] at h
  cases hp : startsWith name "phasicj/agent/rt/" with
  | true =>
    rw [if_pos hp] at h
    simp only [Action.run_pure, Outcome.returned.injEq, true_and] at h
    exact .inl ⟨.inl rfl, h.symm⟩
  | false =>
    rw [if_neg (by simp [hp])] at h
    obtain ⟨len, e₁, h₁, hslice⟩ := Action.bind_eq_returned.mp h
    obtain ⟨cls', e₂, h₂, hdump⟩ := Action.bind_eq_returned.mp hslice
    obtain ⟨_, e₃, h₃, hrest⟩ := Action.bind_eq_returned.mp hdump
    clear h hslice hdump
    obtain ⟨rfl, rfl⟩ := jintToUsize_returned h₁
    obtain ⟨rfl, whole, hwhole, rfl⟩ := Jvmti.sliceFromRawParts_returned h₂
    obtain ⟨-, rfl⟩ := Action.require_eq_returned.mp h₃
    obtain rfl : cls = whole := by simpa [hcls] using hwhole
    rw [hlen, Int.toNat_natCast, List.take_length] at hrest
    cases ho : answers.instrument conf.phasicjExec cls with
    | none =>
      simp only [ho] at hrest
      rw [Action.run_pure, Outcome.returned.injEq] at hrest
      exact .inl ⟨.inr rfl, hrest.2.symm⟩
    | some out =>
      simp only [ho] at hrest
      obtain ⟨_, e, h₄, hreturn⟩ := Action.bind_eq_returned.mp hrest
      obtain ⟨-, rfl⟩ := Action.require_eq_returned.mp h₄
      exact .inr ⟨rfl, out, rfl, returnClass_returned hreturn⟩

end Results

end PhasicJ.AgentJvm
