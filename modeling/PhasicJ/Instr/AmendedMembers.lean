import PhasicJ.Instr.References
import PhasicJ.Instr.Undo

/-! The members that the amendments add to the class that they target. -/

namespace PhasicJ.Instr

open Code MethodInstrumenter

/-- The arguments of an amendment, whose class is renamed only when the amendment is created. -/
structure AmendmentArgs where
  classToAmend : String
  amendmentMembersPrefix : String
  amendWithClass : ClassFile
  amendWithClassName : String

namespace AmendmentArgs

variable (a : AmendmentArgs)

def amendment : Amendment :=
  .create a.classToAmend a.amendmentMembersPrefix a.amendWithClass a.amendWithClassName

def remapper : String → String := simpleRemapper a.amendWithClassName a.classToAmend

def prefixed : ClassFile :=
  { a.amendWithClass with
    name := a.amendWithClassName
    fields := a.amendWithClass.fields.filter fun f => startsWith f.name a.amendmentMembersPrefix
    methods := a.amendWithClass.methods.filter fun m => startsWith m.name a.amendmentMembersPrefix }

def SelfContained : Prop :=
  ∀ r ∈ a.prefixed.fields.flatMap FieldMember.memberRefs ++
      a.prefixed.methods.flatMap MethodMember.memberRefs,
    r.owner = .object a.amendWithClassName → a.prefixed.Declares r

instance : Decidable a.SelfContained := inferInstanceAs (Decidable (∀ r ∈ _, _ → _))

lemma memberFields_amendment :
    a.amendment.memberFields = a.prefixed.fields.map (FieldMember.remap a.remapper) := by
  rw [Amendment.memberFields, amendment, Amendment.create, Amendment.renameClass, ClassFile.remap,
    List.filter_map]
  rfl

lemma memberMethods_amendment :
    a.amendment.memberMethods = a.prefixed.methods.map (MethodMember.remap a.remapper) := by
  rw [Amendment.memberMethods, amendment, Amendment.create, Amendment.renameClass,
    ClassFile.remap, List.filter_map]
  rfl

lemma prefixed_field_name {f : FieldMember} (hf : f ∈ a.prefixed.fields) :
    startsWith f.name a.amendmentMembersPrefix :=
  (List.mem_filter.mp hf).2

lemma prefixed_method_name {m : MethodMember} (hm : m ∈ a.prefixed.methods) :
    startsWith m.name a.amendmentMembersPrefix :=
  (List.mem_filter.mp hm).2

end AmendmentArgs

namespace MethodEvent

lemma isMonitor_remap (map : String → String) (e : MethodEvent) :
    (e.remap map).isMonitor = e.isMonitor := by
  cases e <;> rfl

end MethodEvent

namespace MonitorInsnInstrumenter

def create (eventHandlerClass : String) (args : List AmendmentArgs) : MonitorInsnInstrumenter :=
  ⟨eventHandlerClass, args.map AmendmentArgs.amendment⟩

def targeting (args : List AmendmentArgs) (className : String) : List AmendmentArgs :=
  args.filter fun a => className = a.classToAmend

variable (eventHandlerClass : String) (args : List AmendmentArgs) (cls : ClassFile)

def emittedMethod (a : AmendmentArgs) (m : MethodMember) : MethodMember :=
  (create eventHandlerClass []).visitMethod (m.remap a.remapper)

lemma amendmentsOf_create (className : String) :
    (create eventHandlerClass args).amendmentsOf className =
      (targeting args className).map AmendmentArgs.amendment := by
  rw [amendmentsOf, create, List.filter_map]
  rfl

lemma instrument_fields : ((create eventHandlerClass args).instrument cls).fields =
    cls.fields ++ (targeting args cls.name).flatMap fun a =>
      a.prefixed.fields.map (FieldMember.remap a.remapper) := by
  simp only [instrument, amendmentsOf_create, List.flatMap_map,
    AmendmentArgs.memberFields_amendment]

lemma instrument_methods : ((create eventHandlerClass args).instrument cls).methods =
    cls.methods.map (create eventHandlerClass args).visitMethod ++
      (targeting args cls.name).flatMap fun a =>
        a.prefixed.methods.map (emittedMethod eventHandlerClass a) := by
  simp only [instrument, amendmentsOf_create, List.flatMap_map, List.map_flatMap,
    AmendmentArgs.memberMethods_amendment, List.map_map]
  rfl

lemma emittedMethod_eq_remap {a : AmendmentArgs} {m : MethodMember} :
    emittedMethod eventHandlerClass a m = m.remap a.remapper ↔
      ∀ e ∈ m.body, e.isMonitor = false := by
  rw [emittedMethod, visitMethod_eq_self, MethodMember.remap, List.forall_mem_map]
  simp only [MethodEvent.isMonitor_remap]

section Copies

variable {cls} {before after : List AmendmentArgs} {a : AmendmentArgs}

lemma getElem?_targeting {α : Type} {members : AmendmentArgs → List α} (own : List α)
    (hc : cls.name = a.classToAmend) {k : ℕ} {x : α} (hx : (members a)[k]? = some x) :
    (own ++ (targeting (before ++ a :: after) cls.name).flatMap members)[
      (own ++ (targeting before cls.name).flatMap members).length + k]? = some x := by
  have hk : k < (members a).length := (List.getElem?_eq_some_iff.mp hx).1
  have ht : targeting (before ++ a :: after) cls.name =
      targeting before cls.name ++ a :: targeting after cls.name := by
    simp [targeting, hc]
  rw [ht, List.flatMap_append, ← List.append_assoc, List.getElem?_append_right (by omega),
    Nat.add_sub_cancel_left, List.flatMap_cons, List.getElem?_append_left hk, hx]

lemma instrument_field_at (hc : cls.name = a.classToAmend) {k : ℕ} {f : FieldMember}
    (hf : a.prefixed.fields[k]? = some f) :
    ((create eventHandlerClass (before ++ a :: after)).instrument cls).fields[
      ((create eventHandlerClass before).instrument cls).fields.length + k]? =
        some (f.remap a.remapper) := by
  rw [instrument_fields, instrument_fields]
  apply getElem?_targeting cls.fields hc
  rw [List.getElem?_map, hf]
  rfl

lemma instrument_method_at (hc : cls.name = a.classToAmend) {k : ℕ} {m : MethodMember}
    (hm : a.prefixed.methods[k]? = some m) :
    ((create eventHandlerClass (before ++ a :: after)).instrument cls).methods[
      ((create eventHandlerClass before).instrument cls).methods.length + k]? =
        some (emittedMethod eventHandlerClass a m) := by
  rw [instrument_methods, instrument_methods]
  apply getElem?_targeting (cls.methods.map (create eventHandlerClass before).visitMethod) hc
  rw [List.getElem?_map, hm]
  rfl

variable (before after a cls) in
theorem amended_member_copied (hc : cls.name = a.classToAmend) (k : ℕ) :
    (∀ f, a.prefixed.fields[k]? = some f →
      ((create eventHandlerClass (before ++ a :: after)).instrument cls).fields[
        ((create eventHandlerClass before).instrument cls).fields.length + k]? =
          some (f.remap a.remapper)) ∧
    ∀ m, a.prefixed.methods[k]? = some m →
      (((create eventHandlerClass (before ++ a :: after)).instrument cls).methods[
        ((create eventHandlerClass before).instrument cls).methods.length + k]? =
          some (m.remap a.remapper) ↔
        ∀ e ∈ m.body, e ≠ .insn Opcodes.MONITORENTER ∧ e ≠ .insn Opcodes.MONITOREXIT) := by
  constructor
  · intro f hf
    exact instrument_field_at eventHandlerClass hc hf
  · intro m hm
    rw [instrument_method_at eventHandlerClass hc hm, Option.some.injEq, emittedMethod_eq_remap]
    simp [MethodEvent.isMonitor]

def javaLangObjectAmendment (cls : ClassFile) : AmendmentArgs where
  classToAmend := "java/lang/Object"
  amendmentMembersPrefix := "phasicj$agent$rt$"
  amendWithClass := cls
  amendWithClassName := JavaLangObjectAmendment.className

def objectClass : ClassFile :=
  { JavaLangObjectAmendment.classFile with
    name := "java/lang/Object"
    superName := none
    fields := []
    methods := [JavaLangObjectAmendment.init] }

theorem amended_member_copied_shipped :
    ((create "java/lang/Object" [javaLangObjectAmendment JavaLangObjectAmendment.classFile]).instrument
      objectClass).methods[1]? =
        some (JavaLangObjectAmendment.enableInstrumentation.remap
          (simpleRemapper JavaLangObjectAmendment.className "java/lang/Object")) :=
  ((amended_member_copied "java/lang/Object" objectClass [] []
    (javaLangObjectAmendment JavaLangObjectAmendment.classFile) rfl 0).2 _ (by decide)).mpr
      (by decide)

def lockingMethod : MethodMember :=
  JavaLangObjectAmendment.voidMethod 9 "phasicj$agent$rt$monitorEnter"
    [.code, .ldcInsn (.type (.object JavaLangObjectAmendment.className)),
      .insn Opcodes.MONITORENTER, .ldcInsn (.type (.object JavaLangObjectAmendment.className)),
      .insn Opcodes.MONITOREXIT, .insn Opcodes.RETURN, .maxs 1 0, .methodEnd]

def lockingAmendment : AmendmentArgs :=
  javaLangObjectAmendment { JavaLangObjectAmendment.classFile with methods := [lockingMethod] }

theorem amended_member_not_copied :
    ¬ ∀ (eventHandlerClass : String) (args : List AmendmentArgs) (cls : ClassFile), ∀ a ∈ args,
      cls.name = a.classToAmend → ∀ m ∈ a.prefixed.methods,
        m.remap a.remapper ∈ ((create eventHandlerClass args).instrument cls).methods := by
  intro h
  have hm := h "java/lang/Object" [lockingAmendment] objectClass lockingAmendment
    (List.mem_singleton_self _) rfl lockingMethod (by decide)
  revert hm
  decide

end Copies

end MonitorInsnInstrumenter

end PhasicJ.Instr
