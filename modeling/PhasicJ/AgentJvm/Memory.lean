import PhasicJ.InstrumenterProcess.System
import PhasicJ.Panics.Action

/-! The memory that the agent shares with the virtual machine, as blocks at addresses, and the
functions of the JVMTI environment that work on it. -/

namespace PhasicJ.AgentJvm

open Panics InstrumenterProcess

abbrev Addr := ℕ

def nullPtr : Addr := 0

structure RawEnvStorage where
  verbose : Bool
  phasicjExecPtr : Addr
  phasicjExecLen : ℕ
  debugDumpClassesBeforeInstr : Bool
  debugDumpClassesAfterInstr : Bool
  deriving DecidableEq

namespace RawEnvStorage

-- the first flag is padded to a word, and so are the two at the end together
def size : ℕ := 32

def align : ℕ := 8

end RawEnvStorage

inductive Block where
  | uninit (size : ℕ)
  | bytes (content : Bytes)
  | rawEnvStorage (storage : RawEnvStorage)
  | jint (value : ℤ)
  | pointer (target : Addr)
  deriving DecidableEq

abbrev Memory := Addr → Option Block

structure JvmtiEnv where
  memory : Memory
  localStorage : Addr

abbrev Jvmti (α : Type) := Action JvmtiEnv α

/-- The answers of JVMTI's `Allocate`: an error code, or the address of a new block. For the size
zero the answer is the null pointer. -/
structure Allocator where
  allocate : Memory → ℕ → Except ℕ Addr
  empty : ∀ m a, allocate m 0 = .ok a → a = nullPtr
  fresh : ∀ m size a, 0 < size → allocate m size = .ok a → a ≠ nullPtr ∧ m a = none

def oneBlock : Allocator where
  allocate m size := if size = 0 then .ok nullPtr else if m 64 = none then .ok 64 else .error 110
  empty _ _ h := by simpa [eq_comm] using h
  fresh m size a hs h := by
    rw [if_neg hs.ne'] at h
    split at h
    · next hm =>
      obtain rfl : 64 = a := by simpa using h
      exact ⟨by decide, hm⟩
    · cases h

/-- The live block at an address; there is none at the null pointer. -/
def JvmtiEnv.block? (env : JvmtiEnv) (a : Addr) : Option Block :=
  if a = nullPtr then none else env.memory a

def JvmtiEnv.set (env : JvmtiEnv) (a : Addr) (b : Option Block) : JvmtiEnv :=
  { env with memory := Function.update env.memory a b }

@[simp] lemma JvmtiEnv.set_localStorage (env : JvmtiEnv) (a : Addr) (b : Option Block) :
    (env.set a b).localStorage = env.localStorage := rfl

@[simp] lemma JvmtiEnv.set_same (env : JvmtiEnv) (a : Addr) (b : Option Block) :
    (env.set a b).memory a = b := Function.update_self ..

lemma JvmtiEnv.set_other {a a' : Addr} (h : a' ≠ a) (env : JvmtiEnv) (b : Option Block) :
    (env.set a b).memory a' = env.memory a' := Function.update_of_ne h ..

lemma JvmtiEnv.block?_eq_some {env : JvmtiEnv} {a : Addr} {b : Block} :
    env.block? a = some b ↔ a ≠ nullPtr ∧ env.memory a = some b := by
  by_cases h : a = nullPtr <;> simp [JvmtiEnv.block?, h]

def jvmtiError (code : ℕ) : String :=
  "JVMTI error value check failed. Error code: " ++ toString code

namespace Jvmti

def allocate (A : Allocator) (size : ℕ) : Jvmti Addr where
  run env :=
    match A.allocate env.memory size with
    | .ok a => .returned a (if size = 0 then env else env.set a (some (.uninit size)))
    | .error code => .panicked (jvmtiError code) env

def deallocate (a : Addr) : Jvmti Unit where
  run env :=
    match env.block? a with
    | some _ => .returned () (env.set a none)
    | none => .undefined

def getEnvironmentLocalStorage : Jvmti Addr where
  run env := .returned env.localStorage env

def setEnvironmentLocalStorage (a : Addr) : Jvmti Unit where
  run env := .returned () { env with localStorage := a }

def copyNonoverlapping (content : Bytes) (a : Addr) : Jvmti Unit where
  run env :=
    match env.block? a with
    | some (.uninit size) =>
      if size = content.length then .returned () (env.set a (some (.bytes content)))
      else .undefined
    | _ => .undefined

def sliceFromRawParts (a : Addr) (len : ℕ) : Jvmti Bytes where
  run env :=
    match env.block? a with
    | some (.bytes content) =>
      if len ≤ content.length then .returned (content.take len) env else .undefined
    | _ => .undefined

def writeStorage (a : Addr) (storage : RawEnvStorage) : Jvmti Unit where
  run env :=
    match env.block? a with
    | some (.uninit size) =>
      if size = RawEnvStorage.size then .returned () (env.set a (some (.rawEnvStorage storage)))
      else .undefined
    | _ => .undefined

def readStorage (a : Addr) : Jvmti RawEnvStorage where
  run env :=
    match env.block? a with
    | some (.rawEnvStorage storage) => .returned storage env
    | _ => .undefined

def writeJint (a : Addr) (value : ℤ) : Jvmti Unit where
  run env :=
    match env.block? a with
    | some (.jint _) => .returned () (env.set a (some (.jint value)))
    | _ => .undefined

def writePointer (a target : Addr) : Jvmti Unit where
  run env :=
    match env.block? a with
    | some (.pointer _) => .returned () (env.set a (some (.pointer target)))
    | _ => .undefined

section Results

variable {env u : JvmtiEnv} {a : Addr}

lemma allocate_returned {A : Allocator} {size : ℕ}
    (h : (allocate A size).run env = .returned a u) (hs : 0 < size) :
    a ≠ nullPtr ∧ env.memory a = none ∧ u = env.set a (some (.uninit size)) := by
  simp only [allocate] at h
  split at h
  · next _ ha =>
    rw [if_neg hs.ne'] at h
    obtain ⟨rfl, rfl⟩ : _ = a ∧ _ = u := by simpa using h
    obtain ⟨hn, hf⟩ := A.fresh _ _ _ hs ha
    exact ⟨hn, hf, rfl⟩
  · cases h

lemma allocate_empty {A : Allocator} (h : (allocate A 0).run env = .returned a u) :
    a = nullPtr := by
  simp only [allocate] at h
  split at h
  · next _ ha =>
    simp only [Outcome.returned.injEq] at h
    exact h.1 ▸ A.empty _ _ ha
  · cases h

lemma deallocate_returned {x : Unit} (h : (deallocate a).run env = .returned x u) :
    u = env.set a none := by
  simp only [deallocate] at h
  split at h
  · simpa [eq_comm] using h
  · cases h

lemma copyNonoverlapping_returned {content : Bytes} {x : Unit}
    (h : (copyNonoverlapping content a).run env = .returned x u) :
    a ≠ nullPtr ∧ (∃ b, env.memory a = some b) ∧ u = env.set a (some (.bytes content)) := by
  simp only [copyNonoverlapping] at h
  split at h
  · next hm =>
    split at h
    · simp only [Outcome.returned.injEq, true_and] at h
      obtain ⟨hn, hm⟩ := JvmtiEnv.block?_eq_some.mp hm
      exact ⟨hn, ⟨_, hm⟩, h.symm⟩
    · cases h
  · cases h

lemma writeJint_returned {value : ℤ} {x : Unit}
    (h : (writeJint a value).run env = .returned x u) :
    u = env.set a (some (.jint value)) := by
  simp only [writeJint] at h
  split at h
  · simpa [eq_comm] using h
  · cases h

lemma writePointer_returned {target : Addr} {x : Unit}
    (h : (writePointer a target).run env = .returned x u) :
    u = env.set a (some (.pointer target)) := by
  simp only [writePointer] at h
  split at h
  · simpa [eq_comm] using h
  · cases h

lemma readStorage_returned {storage : RawEnvStorage}
    (h : (readStorage a).run env = .returned storage u) : u = env := by
  simp only [readStorage] at h
  split at h
  · simp only [Outcome.returned.injEq] at h
    exact h.2.symm
  · cases h

lemma sliceFromRawParts_returned {len : ℕ} {content : Bytes}
    (h : (sliceFromRawParts a len).run env = .returned content u) :
    u = env ∧ ∃ whole, env.memory a = some (.bytes whole) ∧ content = whole.take len := by
  simp only [sliceFromRawParts] at h
  split at h
  · next hm =>
    split at h
    · simp only [Outcome.returned.injEq] at h
      exact ⟨h.2.symm, _, (JvmtiEnv.block?_eq_some.mp hm).2, h.1.symm⟩
    · cases h
  · cases h

end Results

end Jvmti

end PhasicJ.AgentJvm
