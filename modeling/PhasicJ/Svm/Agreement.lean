import PhasicJ.AgentJvm.HookResult
import PhasicJ.InstrumenterProcess.Completion
import PhasicJ.Svm.EntryPoint

/-! The native instrumenter against the one in a process of its own. -/

namespace PhasicJ.Svm

open Panics CMemory Instr InstrumenterProcess Transitions AgentJvm

section Paths

/-- The instrumenter, for an ASM that throws on some classes; it never returns `null`. -/
def neverNull (asm : JavaBytes → Option JavaBytes) (inBytes : JavaBytes) :
    Option (Option JavaBytes) :=
  (asm inBytes).map some

/-- The same in the command line's `main`, which gets its input from a stream. -/
def cliInstrument (asm : JavaBytes → Option JavaBytes) (classData : Bytes) : Option Bytes :=
  if h : classData.length < 2 ^ 31 then (asm (.ofBytes classData h)).map JavaBytes.toBytes else none

def svmResult (result : Except Unit SvmInstrBuffer) (m : Memory UInt8) : Option Bytes :=
  match result with
  | .ok buf => buf.asSlice m
  | .error () => none

variable {s : Native} {data : Bytes}

lemma cliInstrument_eq (asm : JavaBytes → Option JavaBytes) (hlen : data.length < 2 ^ 31) :
    cliInstrument asm data = (asm (.ofBytes data hlen)).map JavaBytes.toBytes := by
  rw [cliInstrument, dif_pos hlen]

lemma asSlice_answered (s : Native) (out : JavaBytes) :
    SvmInstrBuffer.asSlice ⟨some ⟨s.memory.blocks.length, 0⟩, out.bytes.length⟩
      (s.answered (some (some out))).memory = some out.toBytes := by
  have h := (Memory.holds_last s.memory.blocks out.toBytes).readFrom []
  rwa [JavaBytes.toBytes, List.length_map] at h

lemma svmResult_answered (s : Native) (answer : Option JavaBytes) :
    svmResult (svmAnswer s (answer.map some)) (s.answered (answer.map some)).memory =
      answer.map JavaBytes.toBytes := by
  cases answer with
  | none => rfl
  | some out => exact asSlice_answered s out

lemma svmAnswer_error_iff (s : Native) (answer : Option JavaBytes) :
    svmAnswer s (answer.map some) = .error () ↔ answer = none := by
  cases answer with
  | none => exact iff_of_true rfl rfl
  | some out => exact iff_of_false (by rintro ⟨⟩) (Option.some_ne_none out)

lemma svm_run (asm : JavaBytes → Option JavaBytes) (inBuf : Slice)
    (h : s.memory.Holds inBuf.ptr data) (hin : inBuf.len = data.length)
    (hlen : data.length < 2 ^ 31) :
    ∃ result u, (svmInstrInstrument (neverNull asm) inBuf).run s = .returned result u ∧
      s.memory.blocks <+: u.memory.blocks ∧
      (result = .error () ↔ asm (.ofBytes data hlen) = none) ∧
      svmResult result u.memory = cliInstrument asm data := by
  refine ⟨_, _, svmInstrInstrument_run h hin hlen, answered_blocks _ _,
    svmAnswer_error_iff s _, ?_⟩
  rw [cliInstrument_eq asm hlen]
  exact svmResult_answered s _

/-- The native path has no check of the magic number: the two paths agree on a class exactly when
it has the magic number, or ASM rejects it. -/
theorem svm_agrees_iff (asm : JavaBytes → Option JavaBytes) (inBuf : Slice)
    (h : s.memory.Holds inBuf.ptr data) (hin : inBuf.len = data.length) (hlen : data.length < 2 ^ 31) :
    ∃ result u, (svmInstrInstrument (neverNull asm) inBuf).run s = .returned result u ∧
      u.memory.Holds inBuf.ptr data ∧ (result = .error () ↔ asm (.ofBytes data hlen) = none) ∧
      svmResult result u.memory = (asm (.ofBytes data hlen)).map JavaBytes.toBytes ∧
      (∀ capIn capOut t w, 0 < capIn → 0 < capOut →
        Run (Step (cliInstrument asm)) (System.spawned data capIn capOut) t w →
        (∀ a ∈ t, a.isNormal) → t.length ≤ allSteps (cliInstrument asm) data ∧
          ((∃ output, w.parent = .returned output) ∨ CanStep (cliInstrument asm) w)) ∧
      ((∀ r, NormalResult (cliInstrument asm) data r → r = svmResult result u.memory) ↔
        Cli.appearsToBeClassData data = true ∨ asm (.ofBytes data hlen) = none) := by
  obtain ⟨result, u, hrun, hblocks, herr, hres⟩ := svm_run asm inBuf h hin hlen
  have hcli := cliInstrument_eq asm hlen
  refine ⟨result, u, hrun, h.mono hblocks, herr, hres.trans hcli, ?_, ?_⟩
  · intro capIn capOut t w hIn hOut hr ht
    exact run_bounded hIn hOut hr ht
  · simp only [normalResult_iff, forall_eq, hres]
    cases hm : Cli.appearsToBeClassData data with
    | true => simp
    | false => simp [hcli, eq_comm]

end Paths

section Example

/-- Like ASM's, a reader that does not look at the magic number. -/
def magiclessReader (classData : Bytes) : Option ClassFile :=
  if classData.drop 4 = smallClassData.drop 4 then some smallClass else none

def magicless : Bytes := [0, 0, 0, 0] ++ smallClassData.drop 4

def smallAsm (inBytes : JavaBytes) : Option JavaBytes :=
  (getInstrumenter.instrumentBytes magiclessReader smallWriter inBytes.toBytes).bind fun out =>
    if h : out.length < 2 ^ 31 then some (.ofBytes out h) else none

def oneClass (data : Bytes) : Native := ⟨⟨[data.map some]⟩, none, none⟩

lemma oneClass_holds (data : Bytes) : (oneClass data).memory.Holds ⟨0, 0⟩ data :=
  Memory.holds_last [] data

lemma smallAsm_eq (data : Bytes) (h : data.drop 4 = smallClassData.drop 4)
    (hlen : data.length < 2 ^ 31) :
    smallAsm (.ofBytes data hlen) = some (.ofBytes smallClassData (by decide)) := by
  have hi : getInstrumenter.instrument smallClass = smallClass := by decide
  rw [smallAsm, JavaBytes.toBytes_ofBytes, MonitorInsnInstrumenter.instrumentBytes,
    magiclessReader, if_pos h, Option.bind_some, hi, smallWriter, if_pos rfl, Option.bind_some,
    dif_pos]

theorem svm_agrees_iff_small : ∃ result u,
    (svmInstrInstrument (neverNull smallAsm) ⟨⟨0, 0⟩, smallClassData.length⟩).run
      (oneClass smallClassData) = .returned result u ∧
    svmResult result u.memory = some smallClassData ∧
    ∀ r, NormalResult (cliInstrument smallAsm) smallClassData r → r = some smallClassData := by
  obtain ⟨result, u, hrun, -, -, hres, -, hiff⟩ := svm_agrees_iff smallAsm
    ⟨⟨0, 0⟩, smallClassData.length⟩ (oneClass_holds smallClassData) rfl (by decide)
  rw [smallAsm_eq smallClassData rfl, Option.map_some, JavaBytes.toBytes_ofBytes] at hres
  rw [hres] at hiff
  exact ⟨result, u, hrun, hres, hiff.mpr (.inl (by decide))⟩

/-- The native path instrumented a class without the magic number, which the other one rejects. -/
theorem svm_accepts_magicless : ∃ result u,
    (svmInstrInstrument (neverNull smallAsm) ⟨⟨0, 0⟩, magicless.length⟩).run
      (oneClass magicless) = .returned result u ∧
    svmResult result u.memory = some smallClassData ∧
    NormalResult (cliInstrument smallAsm) magicless none ∧
    ∀ r, NormalResult (cliInstrument smallAsm) magicless r → r = none := by
  have hlen : magicless.length < 2 ^ 31 := by decide
  obtain ⟨result, u, hrun, -, -, hres⟩ := svm_run smallAsm ⟨⟨0, 0⟩, magicless.length⟩
    (oneClass_holds magicless) rfl hlen
  rw [cliInstrument_eq smallAsm hlen, smallAsm_eq magicless rfl, Option.map_some,
    JavaBytes.toBytes_ofBytes] at hres
  have hm : Cli.appearsToBeClassData magicless = false := by decide
  refine ⟨result, u, hrun, hres, normalResult_iff.mpr ?_, fun r hr => ?_⟩
  · rw [hm]
    rfl
  · rw [normalResult_eq hr, hm]
    rfl

end Example

end PhasicJ.Svm
