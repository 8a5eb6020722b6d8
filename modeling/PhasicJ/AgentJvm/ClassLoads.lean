import PhasicJ.Instr.Instrumenter
import PhasicJ.Transitions.LabelledRuns

/-! Runs of class-load hook callbacks, and whether the calls they insert can be resolved. -/

namespace PhasicJ.AgentJvm

open Instr Transitions

structure ClassLoad where
  cls : ClassFile
  instrumenterSucceeds : Bool

structure Received where
  definition : ClassFile
  instrumented : Bool
  deriving DecidableEq

def ClassLoad.instruments (load : ClassLoad) : Bool :=
  !startsWith load.cls.name "phasicj/agent/rt/" && load.instrumenterSucceeds

def classFileLoadHook (load : ClassLoad) : Received :=
  -- our own runtime classes are not instrumented
  if startsWith load.cls.name "phasicj/agent/rt/" then ⟨load.cls, false⟩
  -- a class that cannot be instrumented is loaded as it is
  else if load.instrumenterSucceeds then ⟨getInstrumenter.instrument load.cls, true⟩
  else ⟨load.cls, false⟩

def HookStep (received : List Received) (load : ClassLoad) (received' : List Received) : Prop :=
  received' = received ++ [classFileLoadHook load]

def eventMethods : List String := ["phasicj$agent$rt$monitorEnter", "phasicj$agent$rt$monitorExit"]

def IsEventCall (e : MethodEvent) : Prop := ∃ name ∈ eventMethods, e = eventCall "java/lang/Object" name

def CallsEvents (c : ClassFile) : Prop := ∃ m ∈ c.methods, ∃ e ∈ m.body, IsEventCall e

def NeedsEvents (c : ClassFile) : Prop :=
  ∃ m ∈ c.methods, ∃ e ∈ m.body, e.isMonitor ∨ IsEventCall e

/-- The event methods are there, public and static. -/
def DeclaresEvents (c : ClassFile) : Prop :=
  ∀ name ∈ eventMethods, ∃ m ∈ c.methods, m.name = name ∧ m.descriptor = voidMethodDescr ∧
    m.access.testBit 0 ∧ m.access.testBit 3

/-- The amended `java/lang/Object`: the one that came out of the instrumenter, with the event
methods. -/
structure Received.IsAmendedObject (object : Received) : Prop where
  name : object.definition.name = "java/lang/Object"
  instrumented : object.instrumented
  declares : DeclaresEvents object.definition

/-- If the virtual machine received an instrumented class with event calls, then the class that it
received first is the amended `java/lang/Object`. -/
def Resolvable (received : List Received) : Prop :=
  ∀ r ∈ received, r.instrumented → CallsEvents r.definition →
    ∃ object, received.head? = some object ∧ object.IsAmendedObject

instance (e : MethodEvent) : Decidable (IsEventCall e) :=
  inferInstanceAs (Decidable (∃ name ∈ eventMethods, _))

instance (c : ClassFile) : Decidable (CallsEvents c) :=
  inferInstanceAs (Decidable (∃ m ∈ c.methods, _))

lemma isEventCall_monitorCall {e call : MethodEvent}
    (h : MethodInstrumenter.monitorCall "java/lang/Object" e = some call) : IsEventCall call := by
  rcases MethodInstrumenter.monitorCall_eq h with ⟨-, rfl⟩ | ⟨-, rfl⟩
  · exact ⟨_, .head _, rfl⟩
  · exact ⟨_, .tail _ (.head _), rfl⟩

lemma accept_calls (body : List MethodEvent) :
    (∃ e ∈ MethodInstrumenter.accept "java/lang/Object" body, IsEventCall e) ↔
      ∃ e ∈ body, e.isMonitor ∨ IsEventCall e := by
  simp only [MethodInstrumenter.accept, List.mem_flatMap]
  constructor
  · rintro ⟨call, ⟨e, he, hcall⟩, hc⟩
    rw [MethodInstrumenter.visit_eq] at hcall
    rcases List.mem_append.mp hcall with h | h
    · refine ⟨e, he, .inl ?_⟩
      rw [← MethodInstrumenter.monitorCall_isSome "java/lang/Object",
        Option.mem_toList.mp h]
      rfl
    · obtain rfl := List.mem_singleton.mp h
      exact ⟨call, he, .inr hc⟩
  · rintro ⟨e, he, hm | hc⟩
    · rw [← MethodInstrumenter.monitorCall_isSome "java/lang/Object"] at hm
      obtain ⟨call, hcall⟩ := Option.isSome_iff_exists.mp hm
      refine ⟨call, ⟨e, he, ?_⟩, isEventCall_monitorCall hcall⟩
      rw [MethodInstrumenter.visit_eq]
      exact List.mem_append_left _ (Option.mem_toList.mpr hcall)
    · refine ⟨e, ⟨e, he, ?_⟩, hc⟩
      rw [MethodInstrumenter.visit_eq]
      exact List.mem_append_right _ (List.mem_singleton_self e)

lemma amendment_quiet {m : MethodMember} (hm : m ∈ getJavaLangObjectAmendment.memberMethods) :
    ¬ ∃ e ∈ m.body, e.isMonitor ∨ IsEventCall e := by
  have h : ∀ m ∈ getJavaLangObjectAmendment.memberMethods,
      ∀ e ∈ m.body, ¬ (e.isMonitor ∨ IsEventCall e) := by decide
  rintro ⟨e, he, hn⟩
  exact h m hm e he hn

lemma amendmentsOf_eq (name : String) : getInstrumenter.amendmentsOf name =
    if name = "java/lang/Object" then [getJavaLangObjectAmendment] else [] := by
  by_cases h : name = "java/lang/Object" <;>
    simp [MonitorInsnInstrumenter.amendmentsOf, getInstrumenter, getJavaLangObjectAmendment,
      Amendment.create, h]

lemma instrument_calls (c : ClassFile) :
    CallsEvents (getInstrumenter.instrument c) ↔ NeedsEvents c := by
  constructor
  · rintro ⟨m', hm', hc⟩
    rcases List.mem_append.mp hm' with h | h
    · obtain ⟨m, hm, rfl⟩ := List.mem_map.mp h
      exact ⟨m, hm, (accept_calls m.body).mp hc⟩
    · obtain ⟨m, hm, rfl⟩ := List.mem_map.mp h
      refine absurd ((accept_calls m.body).mp hc) (amendment_quiet ?_)
      rw [amendmentsOf_eq] at hm
      split at hm
      · simpa using hm
      · simp at hm
  · rintro ⟨m, hm, hn⟩
    exact ⟨_, List.mem_append_left _ (List.mem_map_of_mem hm), (accept_calls m.body).mpr hn⟩

lemma mem_instrument_object {c : ClassFile} (h : c.name = "java/lang/Object") {m : MethodMember}
    (hm : m ∈ getJavaLangObjectAmendment.memberMethods) :
    getInstrumenter.visitMethod m ∈ (getInstrumenter.instrument c).methods := by
  refine List.mem_append_right _ (List.mem_map_of_mem ?_)
  rw [h, amendmentsOf_eq, if_pos rfl]
  simpa using hm

lemma instrument_declares {c : ClassFile} (h : c.name = "java/lang/Object") :
    DeclaresEvents (getInstrumenter.instrument c) := by
  have hd : ∀ name ∈ eventMethods, ∃ m ∈ getJavaLangObjectAmendment.memberMethods,
      m.name = name ∧ m.descriptor = voidMethodDescr ∧ m.access.testBit 0 ∧
        m.access.testBit 3 := by decide
  intro name hname
  obtain ⟨m, hm, hn⟩ := hd name hname
  exact ⟨_, mem_instrument_object h hm, hn⟩

lemma hook_eq (load : ClassLoad) : classFileLoadHook load =
    if load.instruments then ⟨getInstrumenter.instrument load.cls, true⟩
    else ⟨load.cls, false⟩ := by
  unfold classFileLoadHook ClassLoad.instruments
  cases startsWith load.cls.name "phasicj/agent/rt/" <;> cases load.instrumenterSucceeds <;> rfl

lemma instruments_object {load : ClassLoad} (h : load.cls.name = "java/lang/Object") :
    load.instruments = load.instrumenterSucceeds := by
  have hs : startsWith "java/lang/Object" "phasicj/agent/rt/" = false := by decide
  rw [ClassLoad.instruments, h, hs, Bool.not_false, Bool.true_and]

lemma hook_run (loads : List ClassLoad) : Run HookStep [] loads (loads.map classFileLoadHook) := by
  induction loads using List.reverseRecOn with
  | nil => exact .nil []
  | append_singleton loads load ih => exact ih.snoc List.map_append

lemma run_received {loads : List ClassLoad} {received received' : List Received}
    (h : Run HookStep received loads received') :
    received' = received ++ loads.map classFileLoadHook := by
  induction h with
  | nil => simp
  | snoc _ hs ih => rw [hs, ih, List.map_append, List.append_assoc]; rfl

lemma hook_object {object : ClassLoad} (ho : object.cls.name = "java/lang/Object") :
    (classFileLoadHook object).IsAmendedObject ↔ object.instrumenterSucceeds := by
  rw [hook_eq, instruments_object ho]
  cases object.instrumenterSucceeds with
  | false => exact iff_of_false (fun h => Bool.false_ne_true h.instrumented) Bool.false_ne_true
  | true => exact iff_of_true ⟨ho, rfl, instrument_declares ho⟩ rfl

lemma hook_calls (load : ClassLoad) :
    (classFileLoadHook load).instrumented ∧ CallsEvents (classFileLoadHook load).definition ↔
      load.instruments ∧ NeedsEvents load.cls := by
  rw [hook_eq]
  cases load.instruments with
  | false => simp
  | true => simp [instrument_calls]

/-- In a run that starts with `java/lang/Object`, every inserted call can be resolved if and only
if that class was instrumented, or no class that was instrumented after it needs the event
methods. -/
theorem calls_resolvable {object : ClassLoad} {loads : List ClassLoad} {received : List Received}
    (ho : object.cls.name = "java/lang/Object")
    (h : Run HookStep [] (object :: loads) received) :
    Resolvable received ↔ object.instrumenterSucceeds ∨
      ∀ load ∈ loads, load.instruments → ¬ NeedsEvents load.cls := by
  have hr := run_received h
  rw [List.nil_append, List.map_cons] at hr
  have hhead : received.head? = some (classFileLoadHook object) := by rw [hr, List.head?_cons]
  rw [← hook_object ho]
  constructor
  · intro hres
    by_cases hd : (classFileLoadHook object).IsAmendedObject
    · exact .inl hd
    · refine .inr fun load hl hins hneed => hd ?_
      obtain ⟨hins', hcalls⟩ := (hook_calls load).mpr ⟨hins, hneed⟩
      obtain ⟨obj, hobj, hamended⟩ := hres (classFileLoadHook load)
        (hr ▸ List.mem_cons_of_mem _ (List.mem_map_of_mem hl)) hins' hcalls
      rw [hhead, Option.some.injEq] at hobj
      exact hobj ▸ hamended
  · rintro (hd | hq) r hmem hins hcalls
    · exact ⟨_, hhead, hd⟩
    · rw [hr] at hmem
      rcases List.mem_cons.mp hmem with rfl | hmem
      · refine ⟨_, hhead, (hook_object ho).mpr ?_⟩
        rw [← instruments_object ho]
        exact ((hook_calls object).mp ⟨hins, hcalls⟩).1
      · obtain ⟨load, hl, rfl⟩ := List.mem_map.mp hmem
        obtain ⟨hins', hneed⟩ := (hook_calls load).mp ⟨hins, hcalls⟩
        exact absurd hneed (hq load hl hins')

def plainClass (name : String) (methods : List MethodMember) : ClassFile where
  version := 55
  access := 33
  name := name
  signature := none
  superName := some "java/lang/Object"
  interfaces := []
  attributes := []
  fields := []
  methods := methods

def synchronizing : MethodMember :=
  JavaLangObjectAmendment.voidMethod 9 "run"
    [.code, .varInsn 25 0, .insn Opcodes.MONITORENTER, .varInsn 25 0, .insn Opcodes.MONITOREXIT,
      .insn 177, .maxs 1 1, .methodEnd]

def twoLoads (objectSucceeds : Bool) : List ClassLoad :=
  [⟨plainClass "java/lang/Object" [], objectSucceeds⟩, ⟨plainClass "App" [synchronizing], true⟩]

theorem calls_resolvable_twoLoads : Resolvable ((twoLoads true).map classFileLoadHook) :=
  (calls_resolvable rfl (hook_run (twoLoads true))).mpr (.inl rfl)

theorem calls_unresolvable :
    Run HookStep [] (twoLoads false) ((twoLoads false).map classFileLoadHook) ∧
      ¬ Resolvable ((twoLoads false).map classFileLoadHook) := by
  refine ⟨hook_run _, fun h => ?_⟩
  obtain ⟨object, ho, hd⟩ := h (classFileLoadHook ⟨plainClass "App" [synchronizing], true⟩)
    (by simp [twoLoads]) rfl (by decide)
  obtain rfl : classFileLoadHook ⟨plainClass "java/lang/Object" [], false⟩ = object :=
    Option.some.inj ho
  cases hd.instrumented

end PhasicJ.AgentJvm
