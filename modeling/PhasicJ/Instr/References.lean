import PhasicJ.Instr.ClassFile

/-! The classes and the members that a member of a class file refers to. -/

namespace PhasicJ.Instr

structure MemberRef where
  owner : JType
  name : String
  descriptor : JType ⊕ MethodDescriptor
  deriving DecidableEq

def MemberRef.remap (map : String → String) (r : MemberRef) : MemberRef where
  owner := r.owner.remap map
  name := r.name
  descriptor := r.descriptor.map (JType.remap map) (MethodDescriptor.remap map)

def JType.classNames : JType → List String
  | .array element => element.classNames
  | .object name => [name]
  | _ => []

def MethodDescriptor.classNames (d : MethodDescriptor) : List String :=
  d.params.flatMap JType.classNames ++ d.result.classNames

def Handle.classNames (h : Handle) : List String :=
  h.owner.classNames ++ h.descriptor.elim JType.classNames MethodDescriptor.classNames

def Handle.memberRef (h : Handle) : MemberRef := ⟨h.owner, h.name, h.descriptor⟩

namespace Constant

def classNames : Constant → List String
  | .type t => t.classNames
  | .methodType d => d.classNames
  | .handle h => h.classNames
  | _ => []

def memberRefs : Constant → List MemberRef
  | .handle h => [h.memberRef]
  | _ => []

end Constant

def SignaturePart.classNames : SignaturePart → List String
  | .className name => [name]
  | .text _ => []

def Signature.classNames (s : Option Signature) : List String :=
  s.toList.flatMap fun parts => parts.flatMap SignaturePart.classNames

namespace Attribute

def classNames : Attribute → List String
  | .annotated descriptor _ values =>
    descriptor.classNames ++ values.flatMap fun v => v.2.classNames
  | .nonstandard .. => []

def memberRefs : Attribute → List MemberRef
  | .annotated _ _ values => values.flatMap fun v => v.2.memberRefs
  | .nonstandard .. => []

end Attribute

def FrameType.classNames : FrameType → List String
  | .object t => t.classNames
  | _ => []

namespace MethodEvent

def classNames : MethodEvent → List String
  | .attached a => a.classNames
  | .frame _ locals stack =>
    locals.flatMap FrameType.classNames ++ stack.flatMap FrameType.classNames
  | .typeInsn _ type => type.classNames
  | .fieldInsn _ owner _ descriptor => owner.classNames ++ descriptor.classNames
  | .methodInsn _ owner _ descriptor _ => owner.classNames ++ descriptor.classNames
  | .invokeDynamicInsn _ descriptor bootstrap arguments =>
    descriptor.classNames ++ bootstrap.classNames ++ arguments.flatMap Constant.classNames
  | .ldcInsn value => value.classNames
  | .multiANewArrayInsn descriptor _ => descriptor.classNames
  | .tryCatchBlock _ _ _ type => type.toList
  | .localVariable _ descriptor signature _ _ _ =>
    descriptor.classNames ++ Signature.classNames signature
  | _ => []

def memberRefs : MethodEvent → List MemberRef
  | .attached a => a.memberRefs
  | .fieldInsn _ owner name descriptor => [⟨owner, name, .inl descriptor⟩]
  | .methodInsn _ owner name descriptor _ => [⟨owner, name, .inr descriptor⟩]
  | .invokeDynamicInsn _ _ bootstrap arguments =>
    bootstrap.memberRef :: arguments.flatMap Constant.memberRefs
  | .ldcInsn value => value.memberRefs
  | _ => []

end MethodEvent

namespace FieldMember

def key (f : FieldMember) : String × JType := (f.name, f.descriptor)

def classNames (f : FieldMember) : List String :=
  f.descriptor.classNames ++ Signature.classNames f.signature ++
    f.value.toList.flatMap Constant.classNames ++ f.attributes.flatMap Attribute.classNames

def memberRefs (f : FieldMember) : List MemberRef :=
  f.value.toList.flatMap Constant.memberRefs ++ f.attributes.flatMap Attribute.memberRefs

end FieldMember

namespace MethodMember

def key (m : MethodMember) : String × MethodDescriptor := (m.name, m.descriptor)

def classNames (m : MethodMember) : List String :=
  m.descriptor.classNames ++ Signature.classNames m.signature ++ m.exceptions ++
    m.body.flatMap MethodEvent.classNames

def memberRefs (m : MethodMember) : List MemberRef := m.body.flatMap MethodEvent.memberRefs

end MethodMember

def ClassFile.Declares (c : ClassFile) (r : MemberRef) : Prop :=
  r.owner = .object c.name ∧
    match r.descriptor with
    | .inl descriptor => (r.name, descriptor) ∈ c.fields.map FieldMember.key
    | .inr descriptor => (r.name, descriptor) ∈ c.methods.map MethodMember.key

instance (c : ClassFile) : (r : MemberRef) → Decidable (c.Declares r)
  | ⟨_, _, .inl _⟩ => inferInstanceAs (Decidable (_ ∧ _))
  | ⟨_, _, .inr _⟩ => inferInstanceAs (Decidable (_ ∧ _))

section Remapping

variable (map : String → String)

lemma flatMap_remap {A B : Type} {g : A → A} {c : A → List B} {f : B → B}
    (h : ∀ x, c (g x) = (c x).map f) (l : List A) :
    (l.map g).flatMap c = (l.flatMap c).map f := by
  rw [List.flatMap_map, List.map_flatMap]
  exact congrArg (l.flatMap ·) (funext h)

@[simp] lemma JType.classNames_remap (t : JType) :
    (t.remap map).classNames = t.classNames.map map := by
  induction t with
  | array element ih => exact ih
  | _ => rfl

@[simp] lemma MethodDescriptor.classNames_remap (d : MethodDescriptor) :
    (d.remap map).classNames = d.classNames.map map := by
  simp [classNames, remap, flatMap_remap (JType.classNames_remap map)]

@[simp] lemma Handle.classNames_remap (h : Handle) :
    (h.remap map).classNames = h.classNames.map map := by
  rcases h with ⟨tag, owner, name, descriptor | descriptor, isInterface⟩ <;>
    simp [classNames, remap]

@[simp] lemma Constant.classNames_remap (c : Constant) :
    (c.remap map).classNames = c.classNames.map map := by
  cases c <;> simp [classNames, remap]

lemma Constant.memberRefs_remap (c : Constant) :
    (c.remap map).memberRefs = c.memberRefs.map (MemberRef.remap map) := by
  cases c <;> rfl

@[simp] lemma SignaturePart.classNames_remap (p : SignaturePart) :
    (p.remap map).classNames = p.classNames.map map := by
  cases p <;> rfl

@[simp] lemma Signature.classNames_remap (s : Option Signature) :
    Signature.classNames (s.map (List.map (SignaturePart.remap map))) =
      (Signature.classNames s).map map := by
  cases s with
  | none => rfl
  | some parts => simp [classNames, flatMap_remap (SignaturePart.classNames_remap map)]

@[simp] lemma Attribute.classNames_remap (a : Attribute) :
    (a.remap map).classNames = a.classNames.map map := by
  cases a with
  | annotated descriptor visible values =>
    simp [classNames, remap, List.flatMap_map, List.map_flatMap]
  | nonstandard => rfl

lemma Attribute.memberRefs_remap (a : Attribute) :
    (a.remap map).memberRefs = a.memberRefs.map (MemberRef.remap map) := by
  cases a with
  | annotated descriptor visible values =>
    simp [memberRefs, remap, List.flatMap_map, List.map_flatMap, Constant.memberRefs_remap]
  | nonstandard => rfl

@[simp] lemma FrameType.classNames_remap (t : FrameType) :
    (t.remap map).classNames = t.classNames.map map := by
  cases t <;> simp [classNames, remap]

@[simp] lemma MethodEvent.classNames_remap (e : MethodEvent) :
    (e.remap map).classNames = e.classNames.map map := by
  cases e with
  | frame kind locals stack =>
    simp [classNames, remap, flatMap_remap (FrameType.classNames_remap map)]
  | invokeDynamicInsn name descriptor bootstrap arguments =>
    simp [classNames, remap, flatMap_remap (Constant.classNames_remap map)]
  | tryCatchBlock start stop handler type => cases type <;> rfl
  | _ => simp [classNames, remap]

lemma MethodEvent.memberRefs_remap (e : MethodEvent) :
    (e.remap map).memberRefs = e.memberRefs.map (MemberRef.remap map) := by
  cases e with
  | attached a => exact a.memberRefs_remap map
  | invokeDynamicInsn name descriptor bootstrap arguments =>
    simp [memberRefs, remap, flatMap_remap (Constant.memberRefs_remap map), Handle.memberRef,
      Handle.remap, MemberRef.remap]
  | ldcInsn value => exact value.memberRefs_remap map
  | _ => rfl

lemma FieldMember.classNames_remap (f : FieldMember) :
    (f.remap map).classNames = f.classNames.map map := by
  rcases f with ⟨access, name, descriptor, signature, value, attributes⟩
  cases value <;>
    simp [classNames, remap, flatMap_remap (Attribute.classNames_remap map)]

lemma FieldMember.memberRefs_remap (f : FieldMember) :
    (f.remap map).memberRefs = f.memberRefs.map (MemberRef.remap map) := by
  rcases f with ⟨access, name, descriptor, signature, value, attributes⟩
  cases value <;>
    simp [memberRefs, remap, flatMap_remap (Attribute.memberRefs_remap map),
      Constant.memberRefs_remap]

lemma MethodMember.classNames_remap (m : MethodMember) :
    (m.remap map).classNames = m.classNames.map map := by
  simp [classNames, remap, flatMap_remap (MethodEvent.classNames_remap map)]

lemma MethodMember.memberRefs_remap (m : MethodMember) :
    (m.remap map).memberRefs = m.memberRefs.map (MemberRef.remap map) :=
  flatMap_remap (MethodEvent.memberRefs_remap map) m.body

end Remapping

lemma simpleRemapper_old {oldName newName : String} :
    simpleRemapper oldName newName oldName = newName := if_pos rfl

lemma old_notMem_remap {oldName newName : String} (h : oldName ≠ newName) (names : List String) :
    oldName ∉ names.map (simpleRemapper oldName newName) := by
  intro hm
  obtain ⟨name, -, hn⟩ := List.mem_map.mp hm
  by_cases ho : name = oldName
  · exact h (by rw [← hn, ho, simpleRemapper_old])
  · exact ho (by rw [← hn, simpleRemapper, if_neg ho])

end PhasicJ.Instr
