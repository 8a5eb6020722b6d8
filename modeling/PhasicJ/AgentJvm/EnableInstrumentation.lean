import PhasicJ.AgentJvm.ClassLoads
import PhasicJ.AgentJvm.Memory

/-! The call that enables the instrumentation when the virtual machine starts. -/

namespace PhasicJ.AgentJvm

open Instr Panics Transitions

def descriptorText : JType → String
  | .void => "V"
  | .boolean => "Z"
  | .char => "C"
  | .byte => "B"
  | .short => "S"
  | .int => "I"
  | .float => "F"
  | .long => "J"
  | .double => "D"
  | .array element => "[" ++ descriptorText element
  | .object name => "L" ++ name ++ ";"

def signatureText (d : MethodDescriptor) : String :=
  "(" ++ String.join (d.params.map descriptorText) ++ ")" ++ descriptorText d.result

def Declares (c : ClassFile) (name sig : String) : Prop :=
  ∃ m ∈ c.methods, m.name = name ∧ signatureText m.descriptor = sig ∧ m.access.testBit 3

instance (c : ClassFile) (name sig : String) : Decidable (Declares c name sig) :=
  inferInstanceAs (Decidable (∃ m ∈ c.methods, _))

structure JniEnv where
  findClass : String → Addr
  getStaticMethodID : Addr → String → String → Addr

/-- The calls of static methods so far, each with its class and its method ID. -/
abbrev Calls := List (Addr × Addr)

abbrev Jni (α : Type) := Action Calls α

namespace Jni

def explicitPanic : String := "explicit panic"

def findClass (env : JniEnv) (name : String) : Jni Addr := do
  let cls := env.findClass name
  if cls = nullPtr then Action.panic explicitPanic else pure cls

def getStaticMethodId (env : JniEnv) (cls : Addr) (name sig : String) : Jni Addr := do
  let methodId := env.getStaticMethodID cls name sig
  -- it is the class that is compared with null here
  if cls = nullPtr then Action.panic explicitPanic else pure methodId

def callStaticVoidMethod (cls methodId : Addr) : Jni Unit where
  run calls := .returned () (calls ++ [(cls, methodId)])

end Jni

def objectClass : String := "java/lang/Object"

def enableMethod : String := "phasicj$agent$rt$enableInstrumentation"

def enableSignature : String := "()V"

def enableInstrumentation (env : JniEnv) : Jni Unit := do
  let javaLangObjectClass ← Jni.findClass env objectClass
  let enableInstrMethod ←
    Jni.getStaticMethodId env javaLangObjectClass enableMethod enableSignature
  Jni.callStaticVoidMethod javaLangObjectClass enableInstrMethod

def pjVmStart (env : JniEnv) : Jni Unit := enableInstrumentation env

/-- A class that is found is one that the virtual machine has received, and there are IDs only for
methods that it declares. -/
def JniEnv.Consistent (env : JniEnv) (received : List Received) : Prop :=
  ∀ name, env.findClass name ≠ nullPtr → ∃ r ∈ received, r.definition.name = name ∧
    ∀ method sig, env.getStaticMethodID (env.findClass name) method sig ≠ nullPtr →
      Declares r.definition method sig

def JniEnv.Complete (env : JniEnv) (received : List Received) : Prop :=
  ∀ name method sig, env.findClass name ≠ nullPtr →
    (∀ r ∈ received, r.definition.name = name → Declares r.definition method sig) →
      env.getStaticMethodID (env.findClass name) method sig ≠ nullPtr

def EnablesSafely (received : List Received) (outcome : Outcome Calls Unit) : Prop :=
  (∃ message, outcome = .panicked message []) ∨
    ∃ cls methodId, outcome = .returned () [(cls, methodId)] ∧ cls ≠ nullPtr ∧
      methodId ≠ nullPtr ∧ ∃ r ∈ received, r.definition.name = objectClass ∧
        Declares r.definition enableMethod enableSignature

variable {env : JniEnv} {calls : Calls} {received : List Received} {loads : List ClassLoad}

def ClassLoad.Enables (load : ClassLoad) : Prop :=
  load.instrumenterSucceeds ∨ Declares load.cls enableMethod enableSignature

lemma vmStart_missing (h : env.findClass objectClass = nullPtr) :
    (pjVmStart env).run calls = .panicked Jni.explicitPanic calls := by
  have hf : (Jni.findClass env objectClass).run calls = .panicked Jni.explicitPanic calls := by
    simp [Jni.findClass, h]
  exact Action.bind_panicked hf _

lemma vmStart_found (h : env.findClass objectClass ≠ nullPtr) (calls : Calls) :
    (pjVmStart env).run calls = .returned () (calls ++ [(env.findClass objectClass,
      env.getStaticMethodID (env.findClass objectClass) enableMethod enableSignature)]) := by
  have hf : (Jni.findClass env objectClass).run calls =
      .returned (env.findClass objectClass) calls := by
    simp [Jni.findClass, h]
  have hm : (Jni.getStaticMethodId env (env.findClass objectClass) enableMethod
      enableSignature).run calls = .returned (env.getStaticMethodID (env.findClass objectClass)
        enableMethod enableSignature) calls := by
    simp [Jni.getStaticMethodId, h]
  rw [pjVmStart, enableInstrumentation, Action.bind_returned hf, Action.bind_returned hm]
  rfl

lemma hook_name (load : ClassLoad) : (classFileLoadHook load).definition.name = load.cls.name := by
  rw [hook_eq]
  cases load.instruments <;> rfl

lemma amendment_enables : ∃ m ∈ getJavaLangObjectAmendment.memberMethods,
    m.name = enableMethod ∧ signatureText m.descriptor = enableSignature ∧ m.access.testBit 3 := by
  decide

lemma hook_enables {load : ClassLoad} (h : load.cls.name = objectClass) :
    Declares (classFileLoadHook load).definition enableMethod enableSignature ↔ load.Enables := by
  rw [hook_eq, instruments_object h, ClassLoad.Enables]
  cases load.instrumenterSucceeds with
  | false => simp
  | true =>
    obtain ⟨m, hm, hd⟩ := amendment_enables
    exact iff_of_true ⟨_, mem_instrument_object h hm, hd⟩ (.inl rfl)

lemma enablesSafely_missing (h : env.findClass objectClass = nullPtr) :
    EnablesSafely received ((pjVmStart env).run []) :=
  .inl ⟨_, vmStart_missing h⟩

lemma enablesSafely_iff (hj : env.Consistent received) :
    EnablesSafely received ((pjVmStart env).run []) ↔ env.findClass objectClass = nullPtr ∨
      env.getStaticMethodID (env.findClass objectClass) enableMethod enableSignature ≠ nullPtr := by
  by_cases hf : env.findClass objectClass = nullPtr
  · exact iff_of_true (enablesSafely_missing hf) (.inl hf)
  have hrun := vmStart_found hf []
  rw [List.nil_append] at hrun
  rw [EnablesSafely, hrun, or_iff_right hf]
  constructor
  · rintro (⟨message, hp⟩ | ⟨cls, methodId, hret, -, hid, -⟩)
    · cases hp
    · simp only [Outcome.returned.injEq, List.cons.injEq, Prod.mk.injEq, and_true,
        true_and] at hret
      exact hret.2 ▸ hid
  · intro hid
    obtain ⟨r, hr, hn, hd⟩ := hj _ hf
    exact .inr ⟨_, _, rfl, hf, hid, r, hr, hn, hd _ _ hid⟩

lemma found_iff_enables {object : ClassLoad} (hn : object.cls.name = objectClass)
    (hone : ∀ load ∈ loads, load.cls.name = objectClass → load = object)
    (hj : env.Consistent (loads.map classFileLoadHook))
    (hc : env.Complete (loads.map classFileLoadHook)) (hf : env.findClass objectClass ≠ nullPtr) :
    env.getStaticMethodID (env.findClass objectClass) enableMethod enableSignature ≠ nullPtr ↔
      object.Enables := by
  rw [← hook_enables hn]
  have heq : ∀ r ∈ loads.map classFileLoadHook, r.definition.name = objectClass →
      r = classFileLoadHook object := by
    intro r hr hrn
    obtain ⟨load, hl, rfl⟩ := List.mem_map.mp hr
    rw [hone load hl (hook_name load ▸ hrn)]
  constructor
  · intro hid
    obtain ⟨r, hr, hrn, hd⟩ := hj _ hf
    exact heq r hr hrn ▸ hd _ _ hid
  · intro hd
    exact hc _ _ _ hf fun r hr hrn => heq r hr hrn ▸ hd

/-- The null check of the class is the only one: a method that was not found is called all the same.
Where the JVM finds the methods that a class declares, and `java/lang/Object` has been loaded once,
that happens exactly if this load was not amended (and did not declare the method itself). -/
theorem enables_safely (h : Run HookStep [] loads received) (hj : env.Consistent received) :
    (EnablesSafely received ((pjVmStart env).run []) ↔
      env.findClass objectClass = nullPtr ∨
        env.getStaticMethodID (env.findClass objectClass) enableMethod enableSignature ≠
          nullPtr) ∧
    ∀ object ∈ loads, object.cls.name = objectClass →
      (∀ load ∈ loads, load.cls.name = objectClass → load = object) → env.Complete received →
        (EnablesSafely received ((pjVmStart env).run []) ↔
          env.findClass objectClass = nullPtr ∨ object.Enables) := by
  have hr := run_received h
  rw [List.nil_append] at hr
  subst hr
  refine ⟨enablesSafely_iff hj, fun object _ hn hone hc => ?_⟩
  rw [enablesSafely_iff hj]
  by_cases hf : env.findClass objectClass = nullPtr
  · exact iff_of_true (.inl hf) (.inl hf)
  · rw [or_iff_right hf, or_iff_right hf, found_iff_enables hn hone hj hc hf]

section Example

def jniEnv (methodId : Addr) : JniEnv where
  findClass name := if name = objectClass then 1 else nullPtr
  getStaticMethodID _ name sig :=
    if name = enableMethod ∧ sig = enableSignature then methodId else nullPtr

def objectLoads (succeeds : Bool) : List ClassLoad := [⟨plainClass objectClass [], succeeds⟩]

lemma jniEnv_consistent {methodId : Addr} {succeeds : Bool}
    (h : methodId ≠ nullPtr → succeeds) :
    (jniEnv methodId).Consistent ((objectLoads succeeds).map classFileLoadHook) := by
  intro name hname
  have hn : name = objectClass := by
    by_contra hne
    exact hname (if_neg hne)
  subst hn
  refine ⟨_, List.mem_singleton.mpr rfl, hook_name _, fun method sig hid => ?_⟩
  have hm : method = enableMethod ∧ sig = enableSignature := by
    by_contra hne
    exact hid (if_neg hne)
  obtain ⟨rfl, rfl⟩ := hm
  rw [hook_enables rfl]
  exact .inl (h fun he => hid (by simp [jniEnv, he]))

theorem enables_safely_amended :
    EnablesSafely ((objectLoads true).map classFileLoadHook) ((pjVmStart (jniEnv 2)).run []) :=
  (enables_safely (hook_run _) (jniEnv_consistent fun _ => rfl)).1.mpr (.inr (by decide))

theorem enables_null_method :
    ¬ ∀ loads received env, Run HookStep [] loads received → JniEnv.Consistent env received →
      EnablesSafely received ((pjVmStart env).run []) := by
  intro h
  have hj : (jniEnv nullPtr).Consistent ((objectLoads false).map classFileLoadHook) :=
    jniEnv_consistent fun hn => absurd rfl hn
  rcases (enablesSafely_iff hj).mp (h _ _ _ (hook_run (objectLoads false)) hj) with hf | hid
  · exact absurd hf (by decide)
  · exact hid (by decide)

end Example

end PhasicJ.AgentJvm
