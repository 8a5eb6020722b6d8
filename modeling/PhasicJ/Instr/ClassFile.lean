import PhasicJ.Instr.MethodEvents

/-! Class files as a reader of class files presents them, and the renaming of classes in them. -/

namespace PhasicJ.Instr

structure FieldMember where
  access : ℕ
  name : String
  descriptor : JType
  signature : Option Signature
  value : Option Constant
  attributes : List Attribute
  deriving DecidableEq

structure MethodMember where
  access : ℕ
  name : String
  descriptor : MethodDescriptor
  signature : Option Signature
  exceptions : List String
  body : List MethodEvent
  deriving DecidableEq

structure ClassFile where
  version : ℕ
  access : ℕ
  name : String
  signature : Option Signature
  superName : Option String
  interfaces : List String
  attributes : List Attribute
  fields : List FieldMember
  methods : List MethodMember
  deriving DecidableEq

def simpleRemapper (oldName newName : String) (name : String) : String :=
  if name = oldName then newName else name

section Remapping

variable (map : String → String)

def JType.remap : JType → JType
  | .array element => .array element.remap
  | .object name => .object (map name)
  | t => t

def MethodDescriptor.remap (d : MethodDescriptor) : MethodDescriptor :=
  ⟨d.params.map (JType.remap map), d.result.remap map⟩

def Handle.remap (h : Handle) : Handle :=
  { h with
    owner := h.owner.remap map
    descriptor := h.descriptor.map (JType.remap map) (MethodDescriptor.remap map) }

def Constant.remap : Constant → Constant
  | .type t => .type (t.remap map)
  | .methodType d => .methodType (d.remap map)
  | .handle h => .handle (h.remap map)
  | c => c

def SignaturePart.remap : SignaturePart → SignaturePart
  | .className name => .className (map name)
  | p => p

def Attribute.remap : Attribute → Attribute
  | .annotated descriptor visible values =>
    .annotated (descriptor.remap map) visible (values.map fun v => (v.1, v.2.remap map))
  | a => a

def FrameType.remap : FrameType → FrameType
  | .object t => .object (t.remap map)
  | t => t

def MethodEvent.remap : MethodEvent → MethodEvent
  | .attached a => .attached (a.remap map)
  | .frame kind locals stack =>
    .frame kind (locals.map (FrameType.remap map)) (stack.map (FrameType.remap map))
  | .typeInsn opcode type => .typeInsn opcode (type.remap map)
  | .fieldInsn opcode owner name descriptor =>
    .fieldInsn opcode (owner.remap map) name (descriptor.remap map)
  | .methodInsn opcode owner name descriptor isInterface =>
    .methodInsn opcode (owner.remap map) name (descriptor.remap map) isInterface
  | .invokeDynamicInsn name descriptor bootstrap arguments =>
    .invokeDynamicInsn name (descriptor.remap map) (bootstrap.remap map)
      (arguments.map (Constant.remap map))
  | .ldcInsn value => .ldcInsn (value.remap map)
  | .multiANewArrayInsn descriptor n => .multiANewArrayInsn (descriptor.remap map) n
  | .tryCatchBlock start stop handler type => .tryCatchBlock start stop handler (type.map map)
  | .localVariable name descriptor signature start stop index =>
    .localVariable name (descriptor.remap map) (signature.map (List.map (SignaturePart.remap map)))
      start stop index
  | e => e

def FieldMember.remap (f : FieldMember) : FieldMember :=
  { f with
    descriptor := f.descriptor.remap map
    signature := f.signature.map (List.map (SignaturePart.remap map))
    value := f.value.map (Constant.remap map)
    attributes := f.attributes.map (Attribute.remap map) }

def MethodMember.remap (m : MethodMember) : MethodMember :=
  { m with
    descriptor := m.descriptor.remap map
    signature := m.signature.map (List.map (SignaturePart.remap map))
    exceptions := m.exceptions.map map
    body := m.body.map (MethodEvent.remap map) }

def ClassFile.remap (c : ClassFile) : ClassFile :=
  { c with
    name := map c.name
    signature := c.signature.map (List.map (SignaturePart.remap map))
    superName := c.superName.map map
    interfaces := c.interfaces.map map
    attributes := c.attributes.map (Attribute.remap map)
    fields := c.fields.map (FieldMember.remap map)
    methods := c.methods.map (MethodMember.remap map) }

end Remapping

end PhasicJ.Instr
