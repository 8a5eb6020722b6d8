import PhasicJ.AgentConf.Configuration
import PhasicJ.AgentJvm.Memory

/-! The agent's configuration in the environment-local storage of a JVMTI environment. -/

namespace PhasicJ.AgentJvm

open Panics AgentConf InstrumenterProcess

def asBytes (s : String) : Bytes := s.toUTF8.data.toList

def fromUtf8 (content : Bytes) : Option String := String.fromUTF8? ⟨content.toArray⟩

lemma fromUtf8_asBytes (s : String) : fromUtf8 (asBytes s) = some s := by
  have h : (⟨(asBytes s).toArray⟩ : ByteArray) = s.toUTF8 := by simp [asBytes]
  have hv : s.toUTF8.IsValidUTF8 := s.isValidUTF8
  rw [fromUtf8, h, String.fromUTF8?, dif_pos hv]
  rfl

lemma asBytes_eq_nil {s : String} (h : asBytes s = []) : s = "" := by
  have hs := fromUtf8_asBytes s
  rw [h, ← show asBytes "" = [] from rfl, fromUtf8_asBytes] at hs
  exact (Option.some.inj hs).symm

structure EnvStorage where
  conf : PjAgentConf
  deriving DecidableEq

def zeroSized : String := "Attempted to use JVMTI environment to allocate a 0-sized object."

def misaligned : String :=
  "Memory allocated by JVMTI for environment-local storage is not correctly aligned."

def alreadyInitialized : String :=
  "The environment-local storage of this `jvmtiEnv` appears to already be initialized."

def notInitialized : String :=
  "The JVMTI environment-local storage of this `jvmtiEnv` does not appear initialized."

def unwrapErr : String := "called `Result::unwrap()` on an `Err` value"

def allocateBytes (A : Allocator) (size : ℕ) : Jvmti Addr := do
  Action.require (size ≠ 0) zeroSized
  Jvmti.allocate A size

namespace RawEnvStorage

def readPath (ptr : Addr) (len : ℕ) : Jvmti (Option String) :=
  if ptr = nullPtr then pure none
  else do
    let buf ← Jvmti.sliceFromRawParts ptr len
    match fromUtf8 buf with
    | some s => pure (some s)
    | none => Action.panic unwrapErr

def toEnvStorage (raw : RawEnvStorage) : Jvmti EnvStorage := do
  let phasicjExec ← readPath raw.phasicjExecPtr raw.phasicjExecLen
  pure ⟨⟨raw.verbose, phasicjExec, raw.debugDumpClassesBeforeInstr,
    raw.debugDumpClassesAfterInstr⟩⟩

def ofConf (given : PjAgentConf) (ptr : Addr) (len : ℕ) : RawEnvStorage :=
  ⟨given.verbose, ptr, len, given.debugDumpClassesBeforeInstr, given.debugDumpClassesAfterInstr⟩

def fromConf (A : Allocator) (given : PjAgentConf) : Jvmti RawEnvStorage :=
  match given.phasicjExec with
  | none => pure (ofConf given nullPtr 0)
  | some s => do
    let ptr ← allocateBytes A (asBytes s).length
    Jvmti.copyNonoverlapping (asBytes s) ptr
    pure (ofConf given ptr (asBytes s).length)

def allocate (A : Allocator) : Jvmti Addr := do
  let buf ← allocateBytes A size
  if buf % align = 0 then pure buf else Action.panic misaligned

def getPtr : Jvmti (Option Addr) := do
  let ptr ← Jvmti.getEnvironmentLocalStorage
  pure (if ptr = nullPtr then none else some ptr)

end RawEnvStorage

namespace EnvStorage

def of : Jvmti (Option EnvStorage) := do
  match ← RawEnvStorage.getPtr with
  | none => pure none
  | some ptr => do
    let raw ← Jvmti.readStorage ptr
    let storage ← raw.toEnvStorage
    pure (some storage)

def init (A : Allocator) (conf : PjAgentConf) : Jvmti Unit := do
  let existing ← of
  if existing.isSome then Action.panic alreadyInitialized
  else do
    let storage ← RawEnvStorage.allocate A
    let raw ← RawEnvStorage.fromConf A conf
    Jvmti.writeStorage storage raw
    Jvmti.setEnvironmentLocalStorage storage

def free : Jvmti Unit := do
  match ← RawEnvStorage.getPtr with
  | none => Action.panic notInitialized
  | some storage => do
    let raw ← Jvmti.readStorage storage
    if raw.phasicjExecPtr ≠ nullPtr then Jvmti.deallocate raw.phasicjExecPtr
    Jvmti.setEnvironmentLocalStorage nullPtr

end EnvStorage

def PathAt (m : Memory) (ptr : Addr) (len : ℕ) : Option String → Prop
  | none => ptr = nullPtr
  | some s => ptr ≠ nullPtr ∧ m ptr = some (.bytes (asBytes s)) ∧ len = (asBytes s).length

structure Stores (env : JvmtiEnv) (storage ptr : Addr) (c : PjAgentConf) : Prop where
  isLocal : env.localStorage = storage
  nonnull : storage ≠ nullPtr
  raw : ∃ len, env.memory storage = some (.rawEnvStorage (.ofConf c ptr len)) ∧
    PathAt env.memory ptr len c.phasicjExec

section Reading

variable {env : JvmtiEnv} {storage ptr : Addr} {c : PjAgentConf}

lemma getPtr_null (h : env.localStorage = nullPtr) :
    RawEnvStorage.getPtr.run env = .returned none env := by
  simp [RawEnvStorage.getPtr, Action.run_bind, Jvmti.getEnvironmentLocalStorage, h]

lemma getPtr_stores (h : Stores env storage ptr c) :
    RawEnvStorage.getPtr.run env = .returned (some storage) env := by
  simp [RawEnvStorage.getPtr, Action.run_bind, Jvmti.getEnvironmentLocalStorage, h.isLocal,
    h.nonnull]

lemma of_null (h : env.localStorage = nullPtr) :
    EnvStorage.of.run env = .returned none env := by
  rw [EnvStorage.of, Action.bind_returned (getPtr_null h), Action.run_pure]

lemma readPath_of_pathAt {len : ℕ} {path : Option String} (h : PathAt env.memory ptr len path) :
    (RawEnvStorage.readPath ptr len).run env = .returned path env := by
  cases path with
  | none =>
    have hn : ptr = nullPtr := h
    rw [RawEnvStorage.readPath, if_pos hn, Action.run_pure]
  | some s =>
    obtain ⟨hn, hm, rfl⟩ := h
    have hslice : (Jvmti.sliceFromRawParts ptr (asBytes s).length).run env =
        .returned (asBytes s) env := by
      simp [Jvmti.sliceFromRawParts, JvmtiEnv.block?_eq_some.mpr ⟨hn, hm⟩]
    rw [RawEnvStorage.readPath, if_neg hn, Action.bind_returned hslice, fromUtf8_asBytes,
      Action.run_pure]

lemma of_stores (h : Stores env storage ptr c) :
    EnvStorage.of.run env = .returned (some ⟨c⟩) env := by
  obtain ⟨len, hm, hp⟩ := h.raw
  have hread : (Jvmti.readStorage storage).run env = .returned (.ofConf c ptr len) env := by
    simp [Jvmti.readStorage, JvmtiEnv.block?_eq_some.mpr ⟨h.nonnull, hm⟩]
  have hconf : (RawEnvStorage.ofConf c ptr len).toEnvStorage.run env = .returned ⟨c⟩ env := by
    rw [RawEnvStorage.toEnvStorage, RawEnvStorage.ofConf,
      Action.bind_returned (readPath_of_pathAt hp), Action.run_pure]
  rw [EnvStorage.of, Action.bind_returned (getPtr_stores h)]
  simp only
  rw [Action.bind_returned hread, Action.bind_returned hconf, Action.run_pure]

lemma getPtr_returned {r : Option Addr} {u : JvmtiEnv}
    (h : RawEnvStorage.getPtr.run env = .returned r u) : u = env := by
  obtain ⟨p, e, h₁, h₂⟩ := Action.bind_eq_returned.mp h
  simp only [Jvmti.getEnvironmentLocalStorage, Outcome.returned.injEq] at h₁
  simp only [Action.run_pure, Outcome.returned.injEq] at h₂
  exact h₂.2.symm.trans h₁.2.symm

lemma readPath_returned {len : ℕ} {r : Option String} {u : JvmtiEnv}
    (h : (RawEnvStorage.readPath ptr len).run env = .returned r u) : u = env := by
  unfold RawEnvStorage.readPath at h
  split at h
  · simp only [Action.run_pure, Outcome.returned.injEq] at h
    exact h.2.symm
  · obtain ⟨buf, e, h₁, h₂⟩ := Action.bind_eq_returned.mp h
    obtain ⟨rfl, -⟩ := Jvmti.sliceFromRawParts_returned h₁
    cases hs : fromUtf8 buf with
    | some s =>
      simp only [hs, Action.run_pure, Outcome.returned.injEq] at h₂
      exact h₂.2.symm
    | none => simp [hs] at h₂

lemma of_returned {r : Option EnvStorage} {u : JvmtiEnv}
    (h : EnvStorage.of.run env = .returned r u) : u = env := by
  obtain ⟨p, e, h₁, h₂⟩ := Action.bind_eq_returned.mp h
  obtain rfl := getPtr_returned h₁
  cases p with
  | none =>
    simp only [Action.run_pure, Outcome.returned.injEq] at h₂
    exact h₂.2.symm
  | some p =>
    obtain ⟨raw, e₁, h₃, h₄⟩ := Action.bind_eq_returned.mp h₂
    obtain ⟨st, e₂, h₅, h₆⟩ := Action.bind_eq_returned.mp h₄
    obtain ⟨path, e₃, h₇, h₈⟩ := Action.bind_eq_returned.mp h₅
    obtain rfl := Jvmti.readStorage_returned h₃
    obtain rfl := readPath_returned h₇
    simp only [Action.run_pure, Outcome.returned.injEq] at h₆ h₈
    exact h₆.2.symm.trans h₈.2.symm

end Reading

def Grows (env env' : JvmtiEnv) : Prop := ∀ a b, env.memory a = some b → env'.memory a = some b

def AllocationPanic (A : Allocator) (message : String) : Prop :=
  (∃ m size code, 0 < size ∧ A.allocate m size = .error code ∧ message = jvmtiError code) ∨
    ∃ m size a, 0 < size ∧ A.allocate m size = .ok a ∧ a % RawEnvStorage.align ≠ 0 ∧
      message = misaligned

lemma jvmtiError_head (code : ℕ) : (jvmtiError code).toList.head? = some 'J' := by
  have h : "JVMTI error value check failed. Error code: ".toList.head? = some 'J' := by decide
  unfold jvmtiError
  rw [String.toList_append, List.head?_append, h, Option.some_or]

lemma AllocationPanic.ne_zeroSized {A : Allocator} {message : String}
    (h : AllocationPanic A message) : message ≠ zeroSized := by
  rintro rfl
  rcases h with ⟨_, _, code, -, -, he⟩ | ⟨_, _, _, -, -, -, he⟩
  · have hz : zeroSized.toList.head? = some 'A' := by decide
    rw [he, jvmtiError_head] at hz
    exact absurd hz (by decide)
  · exact absurd he (by decide)

section Writing

variable {A : Allocator} {env : JvmtiEnv} {c : PjAgentConf}

lemma grows_set {a : Addr} (h : env.memory a = none) (b : Option Block) :
    Grows env (env.set a b) := by
  intro a' b' hb
  rw [env.set_other, hb]
  rintro rfl
  rw [h] at hb
  cases hb

lemma Grows.trans {env₁ env₂ env₃ : JvmtiEnv} (h : Grows env₁ env₂) (h' : Grows env₂ env₃) :
    Grows env₁ env₃ := fun a b hb => h' a b (h a b hb)

variable (A env) in
lemma allocateBytes_cases {size : ℕ} (hs : 0 < size) :
    (∃ a, a ≠ nullPtr ∧ env.memory a = none ∧ A.allocate env.memory size = .ok a ∧
      (allocateBytes A size).run env = .returned a (env.set a (some (.uninit size)))) ∨
    ∃ message, AllocationPanic A message ∧
      (allocateBytes A size).run env = .panicked message env := by
  have hr : (Action.require (size ≠ 0) zeroSized : Jvmti Unit).run env = .returned () env :=
    Action.require_eq_returned.mpr ⟨by simpa using hs.ne', rfl⟩
  rw [allocateBytes, Action.bind_returned hr, Jvmti.allocate]
  cases ha : A.allocate env.memory size with
  | ok a =>
    obtain ⟨hn, hf⟩ := A.fresh _ _ _ hs ha
    exact .inl ⟨a, hn, hf, rfl, by simp only [ha, if_neg hs.ne']⟩
  | error code =>
    exact .inr ⟨jvmtiError code, .inl ⟨_, _, code, hs, ha, rfl⟩, by simp only [ha]⟩

variable (A env) in
lemma rawAllocate_cases :
    (∃ a, a ≠ nullPtr ∧ env.memory a = none ∧ (RawEnvStorage.allocate A).run env =
      .returned a (env.set a (some (.uninit RawEnvStorage.size)))) ∨
    ∃ message env', AllocationPanic A message ∧ Grows env env' ∧
      env'.localStorage = env.localStorage ∧
      (RawEnvStorage.allocate A).run env = .panicked message env' := by
  have hs : 0 < RawEnvStorage.size := by decide
  rcases allocateBytes_cases A env hs with
    ⟨a, hn, hf, ha, hr⟩ | ⟨message, hp, hr⟩
  · rw [RawEnvStorage.allocate, Action.bind_returned hr]
    by_cases halign : a % RawEnvStorage.align = 0
    · exact .inl ⟨a, hn, hf, by rw [if_pos halign, Action.run_pure]⟩
    · refine .inr ⟨misaligned, env.set a (some (.uninit RawEnvStorage.size)),
        .inr ⟨_, _, a, hs, ha, halign, rfl⟩, grows_set hf _, rfl, ?_⟩
      rw [if_neg halign, Action.run_panic]
  · exact .inr ⟨message, env, hp, fun _ _ h => h, rfl, by
      rw [RawEnvStorage.allocate, Action.bind_panicked hr]⟩

variable (A env) in
lemma fromConf_cases (hc : c.phasicjExec ≠ some "") :
    (∃ ptr len env', (RawEnvStorage.fromConf A c).run env = .returned (.ofConf c ptr len) env' ∧
      PathAt env'.memory ptr len c.phasicjExec ∧ env'.localStorage = env.localStorage ∧
      Grows env env' ∧ (ptr ≠ nullPtr → env.memory ptr = none)) ∨
    ∃ message, AllocationPanic A message ∧
      (RawEnvStorage.fromConf A c).run env = .panicked message env := by
  unfold RawEnvStorage.fromConf
  cases hp : c.phasicjExec with
  | none =>
    exact .inl ⟨nullPtr, 0, env, rfl, rfl, rfl, fun _ _ h => h, fun h => absurd rfl h⟩
  | some s =>
    have hlen : 0 < (asBytes s).length := by
      apply List.length_pos_of_ne_nil
      intro he
      exact hc (by rw [hp, asBytes_eq_nil he])
    rcases allocateBytes_cases A env hlen with
      ⟨ptr, hn, hf, -, hr⟩ | ⟨message, hpanic, hr⟩
    · have hcopy : (Jvmti.copyNonoverlapping (asBytes s) ptr).run
          (env.set ptr (some (.uninit (asBytes s).length))) =
          .returned () (env.set ptr (some (.bytes (asBytes s)))) := by
        simp [Jvmti.copyNonoverlapping, JvmtiEnv.block?, hn, JvmtiEnv.set]
      refine .inl ⟨ptr, (asBytes s).length, env.set ptr (some (.bytes (asBytes s))), ?_,
        ⟨hn, JvmtiEnv.set_same .., rfl⟩, rfl, grows_set hf _, fun _ => hf⟩
      simp only
      rw [Action.bind_returned hr, Action.bind_returned hcopy, Action.run_pure]
    · exact .inr ⟨message, hpanic, by simp only; rw [Action.bind_panicked hr]⟩

lemma init_stores {storage ptr : Addr} {c' : PjAgentConf} (h : Stores env storage ptr c') :
    (EnvStorage.init A c).run env = .panicked alreadyInitialized env := by
  rw [EnvStorage.init, Action.bind_returned (of_stores h)]
  rfl

lemma init_null (h : env.localStorage = nullPtr) (hc : c.phasicjExec ≠ some "") :
    (∃ env' storage ptr, (EnvStorage.init A c).run env = .returned () env' ∧
      Stores env' storage ptr c ∧ Grows env env' ∧ env.memory storage = none ∧
      (ptr ≠ nullPtr → env.memory ptr = none)) ∨
    ∃ message env', (EnvStorage.init A c).run env = .panicked message env' ∧
      AllocationPanic A message ∧ Grows env env' ∧ env'.localStorage = nullPtr := by
  rw [EnvStorage.init, Action.bind_returned (of_null h)]
  simp only [Option.isSome_none, Bool.false_eq_true, if_false]
  rcases rawAllocate_cases A env with
    ⟨storage, hn, hf, hr⟩ | ⟨message, env', hp, hg, hl, hr⟩
  · rw [Action.bind_returned hr]
    have hg₁ := grows_set hf (some (.uninit RawEnvStorage.size))
    rcases fromConf_cases A (env.set storage (some (.uninit RawEnvStorage.size))) hc
      with ⟨ptr, len, env', hr', hpath, hl, hg, hfresh⟩ | ⟨message, hp, hr'⟩
    · rw [Action.bind_returned hr']
      have hm : env'.memory storage = some (.uninit RawEnvStorage.size) :=
        hg _ _ (env.set_same storage _)
      have hw : (Jvmti.writeStorage storage (.ofConf c ptr len)).run env' =
          .returned () (env'.set storage (some (.rawEnvStorage (.ofConf c ptr len)))) := by
        simp [Jvmti.writeStorage, JvmtiEnv.block?_eq_some.mpr ⟨hn, hm⟩]
      rw [Action.bind_returned hw]
      have hne : ptr ≠ nullPtr → ptr ≠ storage := by
        rintro hptr rfl
        have := hfresh hptr
        rw [JvmtiEnv.set_same] at this
        cases this
      refine .inl ⟨_, storage, ptr, rfl, ⟨rfl, hn, len, JvmtiEnv.set_same .., ?_⟩, ?_, hf, ?_⟩
      · cases hpc : c.phasicjExec with
        | none => rw [hpc] at hpath; exact hpath
        | some s =>
          rw [hpc] at hpath
          obtain ⟨hptr, hbytes, hlen⟩ := hpath
          exact ⟨hptr, (JvmtiEnv.set_other (hne hptr) ..).trans hbytes, hlen⟩
      · intro a b hb
        have ha : a ≠ storage := by
          rintro rfl
          rw [hf] at hb
          cases hb
        exact (JvmtiEnv.set_other ha ..).trans (hg a b (hg₁ a b hb))
      · intro hptr
        have := hfresh hptr
        rwa [JvmtiEnv.set_other (hne hptr)] at this
    · rw [Action.bind_panicked hr']
      exact .inr ⟨message, _, rfl, hp, hg₁, h⟩
  · rw [Action.bind_panicked hr]
    exact .inr ⟨message, env', rfl, hp, hg, hl.trans h⟩

lemma free_null (h : env.localStorage = nullPtr) :
    EnvStorage.free.run env = .panicked notInitialized env := by
  rw [EnvStorage.free, Action.bind_returned (getPtr_null h)]
  rfl

lemma free_stores {storage ptr : Addr} (h : Stores env storage ptr c) :
    ∃ env', EnvStorage.free.run env = .returned () env' ∧ env'.localStorage = nullPtr ∧
      ∀ a, a ≠ ptr → env'.memory a = env.memory a := by
  obtain ⟨len, hm, hp⟩ := h.raw
  have hread : (Jvmti.readStorage storage).run env = .returned (.ofConf c ptr len) env := by
    simp [Jvmti.readStorage, JvmtiEnv.block?_eq_some.mpr ⟨h.nonnull, hm⟩]
  rw [EnvStorage.free, Action.bind_returned (getPtr_stores h)]
  simp only
  rw [Action.bind_returned hread]
  by_cases hn : ptr = nullPtr
  · refine ⟨{ env with localStorage := nullPtr }, ?_, rfl, fun _ _ => rfl⟩
    simp [RawEnvStorage.ofConf, hn, Jvmti.setEnvironmentLocalStorage]
  · refine ⟨{ env.set ptr none with localStorage := nullPtr }, ?_, rfl, fun a ha =>
      JvmtiEnv.set_other ha ..⟩
    cases hpc : c.phasicjExec with
    | none => rw [hpc] at hp; exact absurd hp hn
    | some s =>
      rw [hpc] at hp
      simp [RawEnvStorage.ofConf, hn, Action.run_bind, Jvmti.setEnvironmentLocalStorage,
        Jvmti.deallocate, JvmtiEnv.block?_eq_some.mpr ⟨hn, hp.2.1⟩]

end Writing

end PhasicJ.AgentJvm
