import PhasicJ.AgentJvm.AgentRuns
import PhasicJ.Panics.Postconditions

/-! The entry points of the agent, with what the virtual machine and the operating system answer. -/

namespace PhasicJ.AgentJvm

open Panics AgentConf InstrumenterProcess Transitions

inductive Capability where
  | canGenerateAllClassHookEvents
  | canGenerateEarlyClassHookEvents
  | other (index : ℕ)
  deriving DecidableEq

structure Environment where
  localStorage : Addr
  capabilities : List Capability
  callbacks : List JvmtiEvent
  enabled : List JvmtiEvent

def Environment.fresh : Environment := ⟨nullPtr, [], [], []⟩

/-- The process of the virtual machine. The event channels are numbered, and a worker receives from
the ones in the list. -/
structure AgentProcess where
  loggerSet : Bool
  memory : Memory
  envs : List Environment
  bootstrapSearch : List String
  channels : ℕ
  eventForwardingChannel : Option ℕ
  workers : List ℕ

abbrev Setup (α : Type) := Action AgentProcess α

/-- The error codes of the functions of JVMTI (and of `GetEnv`), the path of the runtime jar if it
is UTF-8, and whether the other steps succeed. `currentDir` stands for the `unwrap` in the log
message about the current directory, which is not evaluated where the level of the message is off. -/
structure Answers where
  currentDir : Bool
  getEnv : ℤ
  getEnvironmentLocalStorage : ℕ
  allocator : Allocator
  setEnvironmentLocalStorage : ℕ
  getPotentialCapabilities : Except ℕ (List Capability)
  getCapabilities : ℕ
  addCapabilities : ℕ
  setEventCallbacks : ℕ
  setEventNotificationMode : JvmtiEvent → ℕ
  writeRtJar : Bool
  rtJarPath : Option String
  addToBootstrapClassLoaderSearch : ℕ
  lock : Bool
  spawn : Bool

namespace Setup

variable {σ α : Type}

def explicitPanic : String := "explicit panic"

def jvmtiCheck (err : ℕ) : Action σ Unit := Action.require (err = 0) (jvmtiError err)

def prepareStorage (A : Allocator) (conf : PjAgentConf) : Jvmti Addr := do
  let existing ← EnvStorage.of
  if existing.isSome then Action.panic alreadyInitialized
  else do
    let storage ← RawEnvStorage.allocate A
    let raw ← RawEnvStorage.fromConf A conf
    Jvmti.writeStorage storage raw
    pure storage

/-- `EnvStorage::init`, whose first call (the only one of `EnvStorage::of` if there is no storage
yet) and last call may fail. -/
def initStorage (answers : Answers) (conf : PjAgentConf) : Jvmti Unit := do
  jvmtiCheck answers.getEnvironmentLocalStorage
  let storage ← prepareStorage answers.allocator conf
  jvmtiCheck answers.setEnvironmentLocalStorage
  Jvmti.setEnvironmentLocalStorage storage

def withEnv (env : ℕ) (f : Environment → Setup α) : Setup α where
  run p :=
    match p.envs[env]? with
    | some e => (f e).run p
    | none => .undefined

def putEnv (env : ℕ) (e : Environment) : Setup Unit where
  run p := .returned () { p with envs := p.envs.set env e }

def onStorage (env : ℕ) (x : Jvmti Unit) : Setup Unit :=
  withEnv env fun e =>
    { run p :=
        match x.run ⟨p.memory, e.localStorage⟩ with
        | .returned _ u =>
          (putEnv env { e with localStorage := u.localStorage }).run { p with memory := u.memory }
        | .panicked message u =>
          .panicked message
            { p with
              memory := u.memory
              envs := p.envs.set env { e with localStorage := u.localStorage } }
        | .undefined => .undefined }

def getEnv (answers : Answers) : Setup ℕ := do
  Action.require (answers.getEnv = 0) explicitPanic
  -- each call makes a new environment
  { run p := .returned p.envs.length { p with envs := p.envs ++ [.fresh] } }

def expectCapability (capa : Bool) : Setup Unit := Action.require capa explicitPanic

def getPotentialCapabilities (answers : Answers) : Setup (List Capability) :=
  match answers.getPotentialCapabilities with
  | .ok capa => pure capa
  | .error err => Action.panic (jvmtiError err)

def expectAllRequiredCapabilities (answers : Answers) : Setup Unit := do
  let capa ← getPotentialCapabilities answers
  expectCapability (capa.contains .canGenerateAllClassHookEvents)
  expectCapability (capa.contains .canGenerateEarlyClassHookEvents)

def addAllRequiredCapabilities (answers : Answers) (env : ℕ) : Setup Unit :=
  withEnv env fun e => do
    jvmtiCheck answers.getCapabilities
    let capa := .canGenerateAllClassHookEvents :: .canGenerateEarlyClassHookEvents :: e.capabilities
    jvmtiCheck answers.addCapabilities
    putEnv env { e with capabilities := capa }

def getInitialAgentCallbacks : List JvmtiEvent := [.vmStart, .vmInit, .vmDeath, .classFileLoadHook]

def setAllEventCallbacks (answers : Answers) (env : ℕ) : Setup Unit :=
  withEnv env fun e => do
    jvmtiCheck answers.setEventCallbacks
    putEnv env { e with callbacks := getInitialAgentCallbacks }

def enableEventNotification (answers : Answers) (env : ℕ) (event : JvmtiEvent) : Setup Unit :=
  withEnv env fun e => do
    jvmtiCheck (answers.setEventNotificationMode event)
    putEnv env { e with enabled := event :: e.enabled }

def addEmbeddedJar (answers : Answers) : Setup Unit := do
  Action.require answers.writeRtJar unwrapErr
  match answers.rtJarPath with
  | none => Action.panic unwrapNone
  | some path => do
    jvmtiCheck answers.addToBootstrapClassLoaderSearch
    { run p := .returned () { p with bootstrapSearch := p.bootstrapSearch ++ [path] } }

def step (answers : Answers) (env : ℕ) (conf : PjAgentConf) : SetupStep → Setup Unit
  | .initStorage => onStorage env (initStorage answers conf)
  | .expectCapabilities => expectAllRequiredCapabilities answers
  | .addCapabilities => addAllRequiredCapabilities answers env
  | .setEventCallbacks => setAllEventCallbacks answers env
  | .enable event => enableEventNotification answers env event
  | .addEmbeddedJar => addEmbeddedJar answers

def startForwardingWorkerThread (answers : Answers) : Setup Unit := do
  let channel ← { run p := .returned p.channels { p with channels := p.channels + 1 } }
  Action.require answers.lock unwrapErr
  { run p := .returned () { p with eventForwardingChannel := some channel } }
  Action.require answers.spawn "failed to spawn thread"
  { run p := .returned () { p with workers := channel :: p.workers } }

def setupAgent (answers : Answers) (conf : PjAgentConf) : Setup Unit := do
  let env ← getEnv answers
  configureJvmtiEnv.forM (step answers env conf)
  startForwardingWorkerThread answers

def envLoggerInit : Setup Unit where
  run p :=
    if p.loggerSet then
      .panicked "env_logger::init should not be called after logger initialized" p
    else .returned () { p with loggerSet := true }

def onLoad (answers : Answers) (options : Bytes) : Setup Unit := do
  envLoggerInit
  match fromUtf8 options with
  | none => Action.panic "Failed parsing the PhasicJ agent options as valid UTF-8."
  | some options =>
    match PjAgentConf.newFromAgentOptionsListStr options with
    | .error message => Action.panic message
    | .ok conf => do
      -- the verbose startup information has the current directory
      Action.require (!conf.verbose || answers.currentDir) unwrapErr
      setupAgent answers conf

def errorAgentAttachNotSupported : ℤ := 1

def onAttach : Setup ℤ := pure errorAgentAttachNotSupported

def onUnload : Setup Unit := pure ()

end Setup

def agentOnLoad (answers : Answers) (options : Option Bytes) : Setup ℤ := do
  match options with
  -- a null pointer is taken for no options
  | none => Setup.onLoad answers []
  | some options => Setup.onLoad answers options
  pure 0

def agentOnAttach (_options : Option Bytes) : Setup ℤ := do
  -- the code that says that this is not supported is dropped
  let _ ← Setup.onAttach
  pure 0

def agentOnUnload : Setup Unit := Setup.onUnload

inductive EntryPoint where
  | onLoad (answers : Answers) (options : Option Bytes)
  | onAttach (options : Option Bytes)
  | onUnload

def EntryPoint.isAttach : EntryPoint → Bool
  | .onAttach _ => true
  | _ => false

inductive EntryStep : AgentProcess → EntryPoint × Option ℤ → AgentProcess → Prop
  | onLoad {p q : AgentProcess} {answers : Answers} {options : Option Bytes} {code : ℤ} :
      (agentOnLoad answers options).run p = .returned code q →
      EntryStep p (.onLoad answers options, some code) q
  | onLoadPanics {p q : AgentProcess} {answers : Answers} {options : Option Bytes}
      {message : String} :
      (agentOnLoad answers options).run p = .panicked message q →
      EntryStep p (.onLoad answers options, none) q
  | onAttach {p q : AgentProcess} {options : Option Bytes} {code : ℤ} :
      (agentOnAttach options).run p = .returned code q →
      EntryStep p (.onAttach options, some code) q
  | onUnload {p q : AgentProcess} :
      agentOnUnload.run p = .returned () q → EntryStep p (.onUnload, none) q

/-- What the storage and the search path are to have: the configuration that the options give, and
the embedded jar. -/
def EntryPoint.IsFor (conf : PjAgentConf) (rtJar : String) : EntryPoint → Prop
  | .onLoad answers options =>
    (∃ text, fromUtf8 (options.getD []) = some text ∧
      PjAgentConf.newFromAgentOptionsListStr text = .ok conf) ∧ answers.rtJarPath = some rtJar
  | .onAttach _ | .onUnload => True

structure InPlace (conf : PjAgentConf) (rtJar : String) (p q : AgentProcess) : Prop where
  env : ∃ e storage ptr, q.envs = p.envs ++ [e] ∧
    Stores ⟨q.memory, e.localStorage⟩ storage ptr conf ∧
    .canGenerateAllClassHookEvents ∈ e.capabilities ∧
    .canGenerateEarlyClassHookEvents ∈ e.capabilities ∧
    ∀ event : JvmtiEvent, event ∈ e.callbacks ∧ event ∈ e.enabled
  jar : q.bootstrapSearch = p.bootstrapSearch ++ [rtJar]
  channel : ∃ channel, q.eventForwardingChannel = some channel ∧ channel ∈ q.workers

namespace Setup

variable {A : Allocator} {answers : Answers} {conf : PjAgentConf} {env : JvmtiEnv}
  {p : AgentProcess} {l : List Environment} {e : Environment}

lemma init_run (A : Allocator) (conf : PjAgentConf) (env : JvmtiEnv) :
    (EnvStorage.init A conf).run env =
      (prepareStorage A conf >>= Jvmti.setEnvironmentLocalStorage).run env := by
  simp only [EnvStorage.init, prepareStorage, Action.run_bind]
  cases EnvStorage.of.run env with
  | panicked | undefined => rfl
  | returned existing env₁ =>
    cases existing with
    | some => rfl
    | none =>
      simp only [Option.isSome_none, Bool.false_eq_true, if_false, Action.run_bind]
      cases (RawEnvStorage.allocate A).run env₁ with
      | panicked | undefined => rfl
      | returned storage env₂ =>
        cases hc : (RawEnvStorage.fromConf A conf).run env₂ with
        | panicked | undefined => simp only [hc]
        | returned raw env₃ =>
          cases hw : (Jvmti.writeStorage storage raw).run env₃ <;>
            simp only [hc, hw, Action.run_pure]

lemma post_prepareStorage (h : env.localStorage = nullPtr) (hc : conf.phasicjExec ≠ some "") :
    (prepareStorage A conf).Post env fun storage u =>
      ∃ ptr, Stores { u with localStorage := storage } storage ptr conf := by
  have hinit := init_run A conf env
  -- setting the pointer cannot fail here, so whatever comes before it is what `init` shows
  cases hp : (prepareStorage A conf).run env with
  | panicked => exact Action.post_of_panicked hp
  | returned storage u =>
    rw [Action.bind_returned hp, Jvmti.setEnvironmentLocalStorage] at hinit
    rcases init_null (A := A) h hc with ⟨v, storage', ptr, hr, hs, -⟩ | ⟨_, _, hr, -⟩
    · rw [hr, Outcome.returned.injEq] at hinit
      obtain ⟨-, rfl⟩ := hinit
      obtain rfl : storage = storage' := hs.isLocal
      exact Action.post_of_returned hp ⟨ptr, hs⟩
    · rw [hr] at hinit
      cases hinit
  | undefined =>
    rw [Action.run_bind, hp] at hinit
    rcases init_null (A := A) h hc with ⟨v, storage', ptr, hr, -⟩ | ⟨_, _, hr, -⟩
    · rw [hr] at hinit
      cases hinit
    · rw [hr] at hinit
      cases hinit

lemma post_jvmtiCheck {σ : Type} {s : σ} {err : ℕ} {P : Unit → σ → Prop} (h : P () s) :
    (jvmtiCheck err).Post s P :=
  Action.post_require fun _ => h

lemma post_initStorage (h : env.localStorage = nullPtr) (hc : conf.phasicjExec ≠ some "") :
    (initStorage answers conf).Post env fun _ u =>
      ∃ ptr, Stores u u.localStorage ptr conf := by
  refine Action.Post.bind_same (post_jvmtiCheck rfl) fun _ => ?_
  refine Action.Post.bind (post_prepareStorage h hc) fun storage u hs => ?_
  refine Action.Post.bind_same (post_jvmtiCheck rfl) fun _ => ?_
  exact Action.post_of_returned rfl hs

lemma run_withEnv (hp : p.envs = l ++ [e]) (f : Environment → Setup Unit) :
    (withEnv l.length f).run p = (f e).run p := by
  simp [withEnv, hp]

lemma run_putEnv (hp : p.envs = l ++ [e]) (e' : Environment) :
    (putEnv l.length e').run p = .returned () { p with envs := l ++ [e'] } := by
  simp [putEnv, hp]

lemma post_checked (hp : p.envs = l ++ [e]) (err : ℕ) (e' : Environment) :
    (do jvmtiCheck err; putEnv l.length e').Post p fun _ q => q = { p with envs := l ++ [e'] } := by
  refine Action.Post.bind_same (post_jvmtiCheck rfl) fun _ => ?_
  exact Action.post_of_returned (run_putEnv hp e') rfl

lemma post_withEnv {f : Environment → Setup Unit} {P : Unit → AgentProcess → Prop}
    (hp : p.envs = l ++ [e]) (h : (f e).Post p P) : (withEnv l.length f).Post p P := by
  unfold Action.Post
  rw [run_withEnv hp]
  exact h

lemma post_onStorage {x : Jvmti Unit} {P : JvmtiEnv → Prop} (hp : p.envs = l ++ [e])
    (hx : x.Post ⟨p.memory, e.localStorage⟩ fun _ u => P u) :
    (onStorage l.length x).Post p fun _ q => ∃ u, P u ∧
      q = { p with
        memory := u.memory
        envs := l ++ [{ e with localStorage := u.localStorage }] } := by
  apply post_withEnv hp
  unfold Action.Post
  rcases hx.returns_or_panics with ⟨_, u, hr, hu⟩ | ⟨message, u, hr⟩
  · simp only [hr]
    rw [run_putEnv (p := { p with memory := u.memory }) hp]
    exact ⟨u, hu, rfl⟩
  · simp only [hr]

lemma post_expectAllRequiredCapabilities :
    (expectAllRequiredCapabilities answers).Post p fun _ q => q = p := by
  refine Action.Post.bind_same ?_ fun capa => ?_
  · unfold getPotentialCapabilities
    cases answers.getPotentialCapabilities with
    | error err => exact Action.post_panic
    | ok capa => exact Action.post_pure rfl
  · refine Action.Post.bind_same (Action.post_require fun _ => rfl) fun _ => ?_
    exact Action.post_require fun _ => rfl

lemma post_addAllRequiredCapabilities (hp : p.envs = l ++ [e]) :
    (addAllRequiredCapabilities answers l.length).Post p fun _ q =>
      q = { p with
        envs := l ++ [{ e with
          capabilities := .canGenerateAllClassHookEvents ::
            .canGenerateEarlyClassHookEvents :: e.capabilities }] } := by
  apply post_withEnv hp
  refine Action.Post.bind_same (post_jvmtiCheck rfl) fun _ => ?_
  exact post_checked hp _ _

lemma post_setAllEventCallbacks (hp : p.envs = l ++ [e]) :
    (setAllEventCallbacks answers l.length).Post p fun _ q =>
      q = { p with envs := l ++ [{ e with callbacks := getInitialAgentCallbacks }] } :=
  post_withEnv hp (post_checked hp _ _)

lemma post_enableEventNotification (hp : p.envs = l ++ [e]) (event : JvmtiEvent) :
    (enableEventNotification answers l.length event).Post p fun _ q =>
      q = { p with envs := l ++ [{ e with enabled := event :: e.enabled }] } :=
  post_withEnv hp (post_checked hp _ _)

lemma post_addEmbeddedJar :
    (addEmbeddedJar answers).Post p fun _ q => ∃ path, answers.rtJarPath = some path ∧
      q = { p with bootstrapSearch := p.bootstrapSearch ++ [path] } := by
  refine Action.Post.bind_same (Action.post_require fun _ => rfl) fun _ => ?_
  cases hpath : answers.rtJarPath with
  | none => exact Action.post_panic
  | some path =>
    refine Action.Post.bind_same (post_jvmtiCheck rfl) fun _ => ?_
    exact Action.post_of_returned rfl ⟨path, rfl, rfl⟩

def configured (localStorage : Addr) : Environment where
  localStorage := localStorage
  capabilities := [.canGenerateAllClassHookEvents, .canGenerateEarlyClassHookEvents]
  callbacks := getInitialAgentCallbacks
  enabled := [.vmDeath, .vmInit, .vmStart, .classFileLoadHook]

lemma post_configureJvmtiEnv (hp : p.envs = l ++ [.fresh]) (hc : conf.phasicjExec ≠ some "") :
    (configureJvmtiEnv.forM (step answers l.length conf)).Post p fun _ q => ∃ u ptr path,
      Stores u u.localStorage ptr conf ∧ answers.rtJarPath = some path ∧
      q = { p with
        memory := u.memory
        envs := l ++ [configured u.localStorage]
        bootstrapSearch := p.bootstrapSearch ++ [path] } := by
  simp only [configureJvmtiEnv, List.forM_eq_forM, List.forM_cons, List.forM_nil, step]
  -- each step that returns has left the environment last in the list, where the next one finds it
  refine Action.Post.bind (post_onStorage hp (post_initStorage rfl hc)) ?_
  rintro _ _ ⟨u, ⟨ptr, hs⟩, rfl⟩
  refine Action.Post.bind_same post_expectAllRequiredCapabilities fun _ => ?_
  refine Action.Post.bind (post_addAllRequiredCapabilities rfl) ?_
  rintro _ _ rfl
  refine Action.Post.bind (post_setAllEventCallbacks rfl) ?_
  rintro _ _ rfl
  refine Action.Post.bind (post_enableEventNotification rfl _) ?_
  rintro _ _ rfl
  refine Action.Post.bind (post_enableEventNotification rfl _) ?_
  rintro _ _ rfl
  refine Action.Post.bind (post_enableEventNotification rfl _) ?_
  rintro _ _ rfl
  refine Action.Post.bind (post_enableEventNotification rfl _) ?_
  rintro _ _ rfl
  refine Action.Post.bind post_addEmbeddedJar ?_
  rintro _ _ ⟨path, hpath, rfl⟩
  exact Action.post_pure ⟨u, ptr, path, hs, hpath, rfl⟩

lemma post_startForwardingWorkerThread :
    (startForwardingWorkerThread answers).Post p fun _ q =>
      q = { p with
        channels := p.channels + 1
        eventForwardingChannel := some p.channels
        workers := p.channels :: p.workers } := by
  refine Action.Post.bind (P := fun channel q =>
    channel = p.channels ∧ q = { p with channels := p.channels + 1 })
    (Action.post_of_returned rfl ⟨rfl, rfl⟩) ?_
  rintro _ _ ⟨rfl, rfl⟩
  refine Action.Post.bind_same (Action.post_require fun _ => rfl) fun _ => ?_
  refine Action.Post.bind (P := fun _ q => q = { p with
    channels := p.channels + 1, eventForwardingChannel := some p.channels })
    (Action.post_of_returned rfl rfl) ?_
  rintro _ _ rfl
  refine Action.Post.bind_same (Action.post_require fun _ => rfl) fun _ => ?_
  exact Action.post_of_returned rfl rfl

lemma post_setupAgent (hc : conf.phasicjExec ≠ some "") :
    (setupAgent answers conf).Post p fun _ q =>
      ∃ rtJar, answers.rtJarPath = some rtJar ∧ InPlace conf rtJar p q := by
  refine Action.Post.bind (P := fun env q =>
    env = p.envs.length ∧ q = { p with envs := p.envs ++ [.fresh] }) ?_ ?_
  · refine Action.Post.bind_same (Action.post_require fun _ => rfl) fun _ => ?_
    exact Action.post_of_returned rfl ⟨rfl, rfl⟩
  rintro _ _ ⟨rfl, rfl⟩
  refine Action.Post.bind (post_configureJvmtiEnv rfl hc) ?_
  rintro _ _ ⟨u, ptr, path, hs, hpath, rfl⟩
  refine Action.Post.mono post_startForwardingWorkerThread ?_
  rintro _ _ rfl
  refine ⟨path, hpath, ⟨configured u.localStorage, u.localStorage, ptr, rfl, hs, ?_, ?_, ?_⟩, rfl,
    p.channels, rfl, List.mem_cons_self⟩
  · exact List.mem_cons_self
  · exact List.mem_cons_of_mem _ List.mem_cons_self
  · intro event
    cases event <;> simp [configured, getInitialAgentCallbacks]

lemma post_onLoad (answers : Answers) (options : Option Bytes) (p : AgentProcess) :
    (onLoad answers (options.getD [])).Post p fun _ q => ∃ conf rtJar,
      EntryPoint.IsFor conf rtJar (.onLoad answers options) ∧ InPlace conf rtJar p q := by
  refine Action.Post.bind (P := fun _ q => q = { p with loggerSet := true }) ?_ ?_
  · by_cases hl : p.loggerSet = true
    · exact Action.post_of_panicked (by simp only [envLoggerInit, hl, if_true]; rfl)
    · exact Action.post_of_returned (by simp only [envLoggerInit, hl]; rfl) rfl
  rintro _ _ rfl
  cases ht : fromUtf8 (options.getD []) with
  | none => exact Action.post_panic
  | some text =>
    simp only
    cases hc : PjAgentConf.newFromAgentOptionsListStr text with
    | error message => exact Action.post_panic
    | ok conf =>
      refine Action.Post.bind_same (Action.post_require fun _ => rfl) fun _ => ?_
      refine Action.Post.mono (post_setupAgent (PjAgentConf.newFromAgentOptionsListStr_exec hc)) ?_
      rintro _ q ⟨rtJar, hjar, hq⟩
      exact ⟨conf, rtJar, ⟨⟨text, ht, hc⟩, hjar⟩, hq.env, hq.jar, hq.channel⟩

end Setup

section Runs

variable {answers : Answers} {options : Option Bytes} {p q : AgentProcess} {entry : EntryPoint}
  {code : ℤ} {t : List (EntryPoint × Option ℤ)}

lemma post_agentOnLoad (answers : Answers) (options : Option Bytes) (p : AgentProcess) :
    (agentOnLoad answers options).Post p fun code q =>
      code = 0 ∧ ∃ conf rtJar,
        EntryPoint.IsFor conf rtJar (.onLoad answers options) ∧ InPlace conf rtJar p q := by
  have h := Setup.post_onLoad answers options p
  cases options <;> exact h.bind fun _ q hq => Action.post_pure ⟨rfl, hq⟩

lemma entry_returns (entry : EntryPoint) (p : AgentProcess) :
    ∃ code q, EntryStep p (entry, code) q := by
  cases entry with
  | onLoad answers options =>
    rcases (post_agentOnLoad answers options p).returns_or_panics with
      ⟨code, q, hr, -⟩ | ⟨message, q, hr⟩
    · exact ⟨some code, q, .onLoad hr⟩
    · exact ⟨none, q, .onLoadPanics hr⟩
  | onAttach options => exact ⟨some 0, p, .onAttach rfl⟩
  | onUnload => exact ⟨none, p, .onUnload rfl⟩

lemma EntryStep.inPlace (hs : EntryStep p (entry, some code) q) (ha : entry.isAttach = false) :
    ∃ conf rtJar, entry.IsFor conf rtJar ∧ InPlace conf rtJar p q := by
  cases hs with
  | onLoad hr => exact ((post_agentOnLoad _ _ p).of_returned hr).2
  | onAttach => cases ha

lemma EntryStep.attach {options : Option Bytes} {result : Option ℤ}
    (hs : EntryStep p (.onAttach options, result) q) : result = some 0 ∧ q = p := by
  cases hs with
  | onAttach hr =>
    rw [agentOnAttach, Action.bind_returned (x := Setup.onAttach) rfl, Action.run_pure,
      Outcome.returned.injEq] at hr
    exact ⟨congrArg some hr.1.symm, hr.2.symm⟩

lemma not_inPlace_same {conf : PjAgentConf} {rtJar : String} : ¬ InPlace conf rtJar p p := by
  rintro ⟨⟨e, -, -, he, -⟩, -, -⟩
  simp at he

def SuccessInPlace (p : AgentProcess) (t : List (EntryPoint × Option ℤ)) : Prop :=
  ∀ t₁ entry t₂ u v, t = t₁ ++ (entry, some 0) :: t₂ → Run EntryStep p t₁ u →
    EntryStep u (entry, some 0) v →
      ∃ conf rtJar, entry.IsFor conf rtJar ∧ InPlace conf rtJar u v

/-- `Agent_OnLoad` returns 0 only if the agent is in place. `Agent_OnAttach` always returns 0, and
has done nothing. -/
theorem success_in_place (h : Run EntryStep p t q) :
    SuccessInPlace p t ↔ ∀ call ∈ t, call.1.isAttach = false := by
  constructor
  · rintro hall ⟨entry, result⟩ hc
    obtain ⟨t₁, t₂, rfl⟩ := List.append_of_mem hc
    obtain ⟨u, v, hu, hs, -⟩ := h.mid_split
    cases entry with
    | onAttach options =>
      obtain ⟨rfl, he⟩ := hs.attach
      obtain ⟨conf, rtJar, -, hin⟩ := hall t₁ _ t₂ u v rfl hu hs
      exact absurd (he ▸ hin) not_inPlace_same
    | _ => rfl
  · rintro hall t₁ entry t₂ u v rfl - hs
    exact hs.inPlace (hall _ (List.mem_append_right _ List.mem_cons_self))

end Runs

section Example

def AgentProcess.initial : AgentProcess := ⟨false, fun _ => none, [], [], 0, none, []⟩

def allSucceed : Answers where
  currentDir := true
  getEnv := 0
  getEnvironmentLocalStorage := 0
  allocator := oneBlock
  setEnvironmentLocalStorage := 0
  getPotentialCapabilities := .ok [.canGenerateAllClassHookEvents, .canGenerateEarlyClassHookEvents]
  getCapabilities := 0
  addCapabilities := 0
  setEventCallbacks := 0
  setEventNotificationMode _ := 0
  writeRtJar := true
  rtJarPath := some "/tmp/phasicj/rt.jar.temp/sha1/0/rt.jar"
  addToBootstrapClassLoaderSearch := 0
  lock := true
  spawn := true

lemma onLoad_returns : ∃ q, (agentOnLoad allSucceed none).run .initial = .returned 0 q := by
  have ho : ∃ q, (Setup.onLoad allSucceed []).run .initial = .returned () q := by
    rw [Setup.onLoad, show fromUtf8 [] = some "" from fromUtf8_asBytes ""]
    simp only [default_options]
    exact ⟨_, rfl⟩
  obtain ⟨q, ho⟩ := ho
  exact ⟨q, Action.bind_returned ho _⟩

theorem success_in_place_loaded :
    SuccessInPlace .initial [(.onLoad allSucceed none, some 0)] := by
  obtain ⟨q, hr⟩ := onLoad_returns
  refine (success_in_place (Run.single (.onLoad hr))).mpr fun call hc => ?_
  obtain rfl := List.mem_singleton.mp hc
  rfl

theorem attach_reports_success : ¬ ∀ p t q, Run EntryStep p t q → SuccessInPlace p t := by
  intro h
  have hs : EntryStep .initial (.onAttach none, some 0) .initial := .onAttach rfl
  obtain ⟨conf, rtJar, -, hin⟩ := h _ _ _ (.single hs) [] _ [] _ _ rfl (.nil _) hs
  exact not_inPlace_same hin

end Example

end PhasicJ.AgentJvm
