import PhasicJ.Instr.MonitorInsnInstrumenter

/-! The instrumenter of the agent, which amends `java.lang.Object` with its event methods. -/

namespace PhasicJ.Instr

namespace Opcodes

def ICONST_1 : ℕ := 4
def ALOAD : ℕ := 25
def IFEQ : ℕ := 153
def RETURN : ℕ := 177
def GETSTATIC : ℕ := 178
def PUTSTATIC : ℕ := 179
def INVOKESPECIAL : ℕ := 183

def ACC_PUBLIC : ℕ := 1
def ACC_PRIVATE : ℕ := 2
def ACC_STATIC : ℕ := 8
def ACC_SUPER : ℕ := 32
def ACC_VOLATILE : ℕ := 64

end Opcodes

open Opcodes

namespace JavaLangObjectAmendment

def className : String := "phasicj/agent/rt/JavaLangObjectAmendment"

def instrumentationIsEnabled : FieldMember where
  access := ACC_PRIVATE + ACC_STATIC + ACC_VOLATILE
  name := "phasicj$agent$rt$instrumentationIsEnabled"
  descriptor := .boolean
  signature := none
  value := none
  attributes := []

def voidMethod (access : ℕ) (name : String) (body : List MethodEvent) : MethodMember where
  access := access
  name := name
  descriptor := voidMethodDescr
  signature := none
  exceptions := []
  body := body

def init : MethodMember := voidMethod ACC_PUBLIC "<init>"
  [.code, .varInsn ALOAD 0,
    .methodInsn INVOKESPECIAL (.object "java/lang/Object") "<init>" voidMethodDescr false,
    .insn RETURN, .maxs 1 1, .methodEnd]

def enableInstrumentation : MethodMember :=
  voidMethod (ACC_PUBLIC + ACC_STATIC) "phasicj$agent$rt$enableInstrumentation"
    [.code, .insn ICONST_1,
      .fieldInsn PUTSTATIC (.object className) "phasicj$agent$rt$instrumentationIsEnabled" .boolean,
      .insn RETURN, .maxs 1 0, .methodEnd]

def eventMethod (name : String) : MethodMember :=
  voidMethod (ACC_PUBLIC + ACC_STATIC) name
    [.code,
      .fieldInsn GETSTATIC (.object className) "phasicj$agent$rt$instrumentationIsEnabled" .boolean,
      .jumpInsn IFEQ 0,
      .methodInsn INVOKESTATIC (.object "phasicj/agent/rt/ApplicationEvents") name voidMethodDescr
        false,
      .label 0, .frame 3 [] [], .insn RETURN, .maxs 1 0, .methodEnd]

def monitorEnter : MethodMember := eventMethod "phasicj$agent$rt$monitorEnter"

def monitorExit : MethodMember := eventMethod "phasicj$agent$rt$monitorExit"

def classFile : ClassFile where
  version := 55
  access := ACC_PUBLIC + ACC_SUPER
  name := className
  signature := none
  superName := some "java/lang/Object"
  interfaces := []
  attributes := []
  fields := [instrumentationIsEnabled]
  methods := [init, enableInstrumentation, monitorEnter, monitorExit]

end JavaLangObjectAmendment

def getJavaLangObjectAmendment : Amendment :=
  .create "java/lang/Object" "phasicj$agent$rt$" JavaLangObjectAmendment.classFile
    "phasicj/agent/rt/JavaLangObjectAmendment"

def getInstrumenter : MonitorInsnInstrumenter :=
  ⟨"java/lang/Object", [getJavaLangObjectAmendment]⟩

end PhasicJ.Instr
