import Mathlib.Tactic

/-! The visit events of a method, as a reader of class files emits them. -/

namespace PhasicJ.Instr

abbrev Label := ℕ

inductive JType where
  | void | boolean | char | byte | short | int | float | long | double
  | array (element : JType)
  | object (name : String)
  deriving DecidableEq

structure MethodDescriptor where
  params : List JType
  result : JType
  deriving DecidableEq

def voidMethodDescr : MethodDescriptor := ⟨[], .void⟩

structure Handle where
  tag : ℕ
  owner : JType
  name : String
  descriptor : JType ⊕ MethodDescriptor
  isInterface : Bool
  deriving DecidableEq

inductive Constant where
  | int (value : ℤ)
  | long (value : ℤ)
  | float (bits : UInt32)
  | double (bits : UInt64)
  | string (value : String)
  | type (value : JType)
  | methodType (value : MethodDescriptor)
  | handle (value : Handle)
  deriving DecidableEq

/-- A generic signature, cut into the class names that occur in it and the text between them. -/
inductive SignaturePart where
  | text (text : String)
  | className (name : String)
  deriving DecidableEq

abbrev Signature := List SignaturePart

inductive Attribute where
  | annotated (descriptor : JType) (visible : Bool) (values : List (String × Constant))
  | nonstandard (name : String) (content : List UInt8)
  deriving DecidableEq

inductive FrameType where
  | top | integer | float | long | double | null | uninitializedThis
  | object (type : JType)
  | uninitialized (new : Label)
  deriving DecidableEq

inductive MethodEvent where
  | parameter (name : Option String) (access : ℕ)
  | attached (attached : Attribute)
  | code
  | frame (kind : ℕ) (locals stack : List FrameType)
  | insn (opcode : ℕ)
  | intInsn (opcode : ℕ) (operand : ℤ)
  | varInsn (opcode varIndex : ℕ)
  | typeInsn (opcode : ℕ) (type : JType)
  | fieldInsn (opcode : ℕ) (owner : JType) (name : String) (descriptor : JType)
  | methodInsn (opcode : ℕ) (owner : JType) (name : String) (descriptor : MethodDescriptor)
      (isInterface : Bool)
  | invokeDynamicInsn (name : String) (descriptor : MethodDescriptor) (bootstrap : Handle)
      (arguments : List Constant)
  | jumpInsn (opcode : ℕ) (label : Label)
  | label (label : Label)
  | ldcInsn (value : Constant)
  | iincInsn (varIndex : ℕ) (increment : ℤ)
  | tableSwitchInsn (min max : ℤ) (dflt : Label) (labels : List Label)
  | lookupSwitchInsn (dflt : Label) (keys : List ℤ) (labels : List Label)
  | multiANewArrayInsn (descriptor : JType) (numDimensions : ℕ)
  | tryCatchBlock (start stop handler : Label) (type : Option String)
  | localVariable (name : String) (descriptor : JType) (signature : Option Signature)
      (start stop : Label) (index : ℕ)
  | lineNumber (line : ℕ) (start : Label)
  | maxs (maxStack maxLocals : ℕ)
  | methodEnd
  deriving DecidableEq

namespace Opcodes

def MONITORENTER : ℕ := 194
def MONITOREXIT : ℕ := 195
def INVOKESTATIC : ℕ := 184

end Opcodes

namespace MethodEvent

def isMetadata : MethodEvent → Bool
  | parameter .. | attached .. | code | frame .. | label .. | tryCatchBlock .. | localVariable ..
  | lineNumber .. | maxs .. | methodEnd => true
  | _ => false

def isMaxs : MethodEvent → Bool
  | maxs .. => true
  | _ => false

def isMonitor (e : MethodEvent) : Bool :=
  e = insn Opcodes.MONITORENTER || e = insn Opcodes.MONITOREXIT

end MethodEvent

end PhasicJ.Instr
