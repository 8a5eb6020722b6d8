import PhasicJ.Code.TypeChecking
import PhasicJ.Instr.Execution
import PhasicJ.Instr.MonitorInsnInstrumenter

/-! Instrumented methods pass type checking with the stack maps that they had before. -/

namespace PhasicJ.Instr

open Code

/-- A verifier that checks a method by its stack map, for the class and the header of the method. The
labels at an instruction are given for `new`, whose results the stack map names by them. -/
structure Verifier (K : Type) where
  types : List Label → MethodEvent → K → Option K → List (Label × K) → Prop
  declare : ℕ → List FrameType → List FrameType → K → K
  assignable : K → K → Prop
  enter : Option String → K → K
  first : K

namespace Verifier

variable {K : Type} (V : Verifier K)

def declares (k : K) : MethodEvent → Option K
  | .frame kind locals stack => some (V.declare kind locals stack k)
  | _ => none

def typing : Typing MethodEvent Label (Option String) K where
  isInstruction e := !e.isMetadata
  declares := V.declares
  types := V.types
  assignable := V.assignable
  enter := V.enter

/-- Where the labels and the exception handlers of a body are. -/
def tables : Semantics MethodEvent Label (Option String) Unit Unit Unit where
  label? := Jvm.label?
  handler? := Jvm.handler?
  effect _ _ _ := False
  catches _ _ := true
  enter _ _ := ()

/-- The two event calls, of static methods without parameters and result, take nothing from the
stack and put nothing on it, and the monitor instructions are typed without their labels. -/
structure EventCallsTyped (eventHandlerClass : String) : Prop where
  call : ∀ e call, MethodInstrumenter.monitorCall eventHandlerClass e = some call →
    ∀ labels f next jumps, V.types labels call f next jumps ↔ next = some f ∧ jumps = []
  monitor : ∀ e : MethodEvent, e.isMonitor → ∀ labels f next jumps,
    V.types labels e f next jumps ↔ V.types [] e f next jumps

end Verifier

def MethodMember.header (m : MethodMember) : MethodMember :=
  { m with body := m.body.filter MethodEvent.isMaxs }

/-- The code of the method, if it has some, passes the verifier for its header. -/
def MethodMember.Verified {K : Type} (V : MethodMember → Verifier K) (m : MethodMember) : Prop :=
  .code ∈ m.body → (V m.header).typing.TypeSafe Verifier.tables m.body (V m.header).first

section Accept

open MethodInstrumenter

variable {K : Type} {eventHandlerClass : String}

lemma inserted_separate : Separate Verifier.tables (inserted eventHandlerClass) := by
  refine ⟨?_, ?_, ?_⟩
  · intro e i hi
    rcases monitorCall_eq (Option.mem_toList.mp hi) with ⟨-, rfl⟩ | ⟨-, rfl⟩ <;> rfl
  · intro e i hi
    rcases monitorCall_eq (Option.mem_toList.mp hi) with ⟨-, rfl⟩ | ⟨-, rfl⟩ <;> rfl
  · intro e he
    cases e <;> first | rfl | cases he

lemma inserted_neutral {V : Verifier K} (h : V.EventCallsTyped eventHandlerClass) :
    V.typing.Neutral (inserted eventHandlerClass) := by
  have hcall : ∀ e, ∀ i ∈ inserted eventHandlerClass e, ∃ event,
      i = eventCall eventHandlerClass event := by
    intro e i hi
    rcases monitorCall_eq (Option.mem_toList.mp hi) with ⟨-, rfl⟩ | ⟨-, rfl⟩ <;> exact ⟨_, rfl⟩
  refine ⟨?_, ?_, ?_, ?_, ?_⟩
  · intro e he
    cases e <;> first | rfl | cases he
  · intro e i hi
    obtain ⟨event, rfl⟩ := hcall e i hi
    rfl
  · intro e i hi k
    obtain ⟨event, rfl⟩ := hcall e i hi
    rfl
  · intro e i hi
    exact h.call e i (Option.mem_toList.mp hi)
  · intro e hne
    refine h.monitor e ?_
    rw [← monitorCall_isSome eventHandlerClass]
    cases hc : monitorCall eventHandlerClass e with
    | none => exact absurd (by rw [MethodInstrumenter.inserted, hc]; rfl) hne
    | some call => rfl

lemma accept_typeSafe {V : Verifier K} (h : V.EventCallsTyped eventHandlerClass)
    (body : List MethodEvent) (first : K) :
    V.typing.TypeSafe Verifier.tables (accept eventHandlerClass body) first ↔
      V.typing.TypeSafe Verifier.tables body first := by
  rw [accept_eq]
  exact typeSafe_splice inserted_separate (inserted_neutral h)

lemma code_mem_accept (body : List MethodEvent) :
    .code ∈ accept eventHandlerClass body ↔ .code ∈ body := by
  have hf : ((accept eventHandlerClass body).filter fun e => e = MethodEvent.code) =
      body.filter fun e => e = MethodEvent.code := accept_filter (fun _ => rfl) body
  have hmem : ∀ l : List MethodEvent, .code ∈ l ↔ .code ∈ l.filter fun e => e = MethodEvent.code := by
    intro l
    simp [List.mem_filter]
  rw [hmem, hf, ← hmem]

lemma visitMethod_header (i : MonitorInsnInstrumenter) (m : MethodMember) :
    (i.visitMethod m).header = m.header := by
  have hf : (accept i.eventHandlerClass m.body).filter MethodEvent.isMaxs =
      m.body.filter MethodEvent.isMaxs := accept_filter (fun _ => rfl) m.body
  simp only [MethodMember.header, MonitorInsnInstrumenter.visitMethod, hf]

lemma visitMethod_verified {V : MethodMember → Verifier K} (i : MonitorInsnInstrumenter)
    (h : ∀ m, (V m).EventCallsTyped i.eventHandlerClass) (m : MethodMember) :
    (i.visitMethod m).Verified V ↔ m.Verified V := by
  rw [MethodMember.Verified, MethodMember.Verified, visitMethod_header]
  exact imp_congr (code_mem_accept m.body) (accept_typeSafe (h _) m.body _)

end Accept

/-- The methods of an instrumented class pass the verifier, with their stack maps and stack sizes
as they were, if and only if those of the class and of its amendments do. -/
theorem instrument_verified {K : Type} (V : MethodMember → Verifier K)
    (i : MonitorInsnInstrumenter) (h : ∀ m, (V m).EventCallsTyped i.eventHandlerClass)
    (cls : ClassFile) :
    (∀ m ∈ (i.instrument cls).methods, m.Verified V) ↔ (∀ m ∈ cls.methods, m.Verified V) ∧
      ∀ a ∈ i.amendmentsOf cls.name, ∀ m ∈ a.memberMethods, m.Verified V := by
  have hvisit : ∀ l : List MethodMember,
      (∀ m ∈ l.map i.visitMethod, m.Verified V) ↔ ∀ m ∈ l, m.Verified V := by
    intro l
    simp only [List.forall_mem_map, visitMethod_verified i h]
  rw [MonitorInsnInstrumenter.instrument, List.forall_mem_append, hvisit, hvisit]
  exact and_congr_right fun _ => List.forall_mem_flatMap

section Example

/-- The stack of a frame, where a new object is named by the label of its `new`. -/
def stackNext (labels : List Label) :
    MethodEvent → List FrameType → Option (Option (List FrameType))
  | .typeInsn 187 _, f => labels.head?.map fun new => some (.uninitialized new :: f)
  | .insn 89, t :: f => some (some (t :: t :: f))
  | .methodInsn 183 owner "<init>" _ _, .uninitialized new :: f =>
    some (some (f.map fun t => if t = .uninitialized new then .object owner else t))
  | .methodInsn 184 _ name _ _, f => if name = "<init>" then none else some (some f)
  | .insn 194, .object _ :: f | .insn 195, .object _ :: f => some (some f)
  | .insn 177, _ => some none
  | _, _ => none

def stackVerifier : Verifier (List FrameType) where
  types labels e f next jumps := stackNext labels e f = some next ∧ jumps = []
  declare _ _ stack _ := stack
  assignable f f' := f = f'
  enter type _ := [.object (.object (type.getD "java/lang/Throwable"))]
  first := []

lemma stackVerifier_eventCalls : stackVerifier.EventCallsTyped "java/lang/Object" := by
  refine ⟨?_, ?_⟩
  · intro e call hc labels f next jumps
    have hnext : stackNext labels call f = some (some f) := by
      rcases MethodInstrumenter.monitorCall_eq hc with ⟨-, rfl⟩ | ⟨-, rfl⟩ <;> rfl
    change stackNext labels call f = some next ∧ jumps = [] ↔ _
    rw [hnext, Option.some.injEq, eq_comm]
  · intro e he labels f next jumps
    have hm : e = .insn 194 ∨ e = .insn 195 :=
      (Bool.or_eq_true _ _ ▸ he).imp of_decide_eq_true of_decide_eq_true
    rcases hm with rfl | rfl <;> rcases f with _ | ⟨_ | _, f⟩ <;> rfl

def lockingMethod : MethodMember :=
  ⟨9, "run", voidMethodDescr, none, [], [.code, .label 0,
    .typeInsn 187 (.object "java/lang/Object"), .insn 89,
    .methodInsn 183 (.object "java/lang/Object") "<init>" voidMethodDescr false,
    .insn 89, .insn Opcodes.MONITORENTER, .insn Opcodes.MONITOREXIT, .insn 177, .maxs 2 0,
    .methodEnd]⟩

def lockingClass : ClassFile where
  version := 55
  access := 1
  name := "Locks"
  signature := none
  superName := some "java/lang/Object"
  interfaces := []
  attributes := []
  fields := []
  methods := [lockingMethod]

lemma lockingMethod_verified : lockingMethod.Verified fun _ => stackVerifier := by
  have hnone : lockingMethod.body.filterMap Verifier.tables.handler? = [] := rfl
  have hinsn : ∀ {labels e rest pc f next}, stackVerifier.typing.isInstruction e = true →
      stackNext labels e f = some next →
      stackVerifier.typing.Checked Verifier.tables lockingMethod.body [] rest (pc + 1) [] [] next →
      stackVerifier.typing.Checked Verifier.tables lockingMethod.body [] (e :: rest) pc labels []
        (some f) := by
    intro labels e rest pc f next he hnext hrest
    rw [Typing.Checked, if_pos he]
    refine ⟨f, next, [], rfl, ⟨hnext, rfl⟩, fun h hm => ?_, fun j hj => ?_, hrest⟩
    · rw [hnone] at hm
      cases hm
    · cases hj
  refine fun _ => ⟨fun h hm => ?_, ?_⟩
  · rw [hnone] at hm
    cases hm
  -- the label is passed on to `new`
  · change stackVerifier.typing.Checked _ _ [] (lockingMethod.body.drop 2) 2 [0] [] (some [])
    iterate 7 refine hinsn rfl rfl ?_
    rfl

theorem instrument_verified_locking :
    (MonitorInsnInstrumenter.visitMethod ⟨"java/lang/Object", []⟩ lockingMethod).Verified
      fun _ => stackVerifier := by
  refine (instrument_verified (fun _ => stackVerifier) ⟨"java/lang/Object", []⟩
    (fun _ => stackVerifier_eventCalls) lockingClass).mpr ⟨?_, nofun⟩ _ List.mem_cons_self
  intro m hm
  obtain rfl := List.mem_singleton.mp hm
  exact lockingMethod_verified

end Example

end PhasicJ.Instr
