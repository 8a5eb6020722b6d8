import PhasicJ.Instr.ClassFile
import PhasicJ.Instr.MethodInstrumenter

/-! The class visitor that instruments every method and adds the amendments' members. -/

namespace PhasicJ

def startsWith (text start : String) : Bool := start.toList.isPrefixOf text.toList

namespace Instr

structure Amendment where
  classToAmend : String
  amendmentMembersPrefix : String
  amendWithClass : ClassFile
  amendWithClassName : String

namespace Amendment

def renameClass (oldClassName : String) (cls : ClassFile) (newClassName : String) : ClassFile :=
  cls.remap (simpleRemapper oldClassName newClassName)

def create (classToAmend amendmentMembersPrefix : String) (amendWithClass : ClassFile)
    (amendWithClassName : String) : Amendment where
  classToAmend := classToAmend
  amendmentMembersPrefix := amendmentMembersPrefix
  amendWithClass := renameClass amendWithClassName amendWithClass classToAmend
  amendWithClassName := amendWithClassName

def memberFields (a : Amendment) : List FieldMember :=
  a.amendWithClass.fields.filter fun f => startsWith f.name a.amendmentMembersPrefix

def memberMethods (a : Amendment) : List MethodMember :=
  a.amendWithClass.methods.filter fun m => startsWith m.name a.amendmentMembersPrefix

end Amendment

structure MonitorInsnInstrumenter where
  eventHandlerClass : String
  amendments : List Amendment

namespace MonitorInsnInstrumenter

def visitMethod (i : MonitorInsnInstrumenter) (m : MethodMember) : MethodMember :=
  { m with body := MethodInstrumenter.accept i.eventHandlerClass m.body }

def amendmentsOf (i : MonitorInsnInstrumenter) (className : String) : List Amendment :=
  i.amendments.filter fun a => className = a.classToAmend

/-- The end of a class sends the members of its amendments through the same visitor. -/
def instrument (i : MonitorInsnInstrumenter) (cls : ClassFile) : ClassFile :=
  { cls with
    fields := cls.fields ++ (i.amendmentsOf cls.name).flatMap Amendment.memberFields
    methods := cls.methods.map i.visitMethod ++
      ((i.amendmentsOf cls.name).flatMap Amendment.memberMethods).map i.visitMethod }

/-- The instrumenter on the bytes of a class file, for a reader and a writer that may throw. -/
def instrumentBytes (i : MonitorInsnInstrumenter) (classReader : List UInt8 → Option ClassFile)
    (toByteArray : ClassFile → Option (List UInt8)) (classFileBuffer : List UInt8) :
    Option (List UInt8) :=
  (classReader classFileBuffer).bind fun cls => toByteArray (i.instrument cls)

end MonitorInsnInstrumenter

end Instr

end PhasicJ
