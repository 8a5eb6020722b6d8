import PhasicJ.AgentJvm.ClassFileLoadHook
import PhasicJ.AgentJvm.StorageRuns

/-! Runs of the agent: the setup during `Agent_OnLoad`, the callbacks, and the virtual machine. -/

namespace PhasicJ.AgentJvm

open Panics AgentConf Transitions

inductive JvmtiEvent where
  | classFileLoadHook | vmStart | vmInit | vmDeath
  deriving DecidableEq

inductive SetupStep where
  | initStorage
  | expectCapabilities
  | addCapabilities
  | setEventCallbacks
  | enable (event : JvmtiEvent)
  | addEmbeddedJar
  deriving DecidableEq

def configureJvmtiEnv : List SetupStep :=
  [.initStorage, .expectCapabilities, .addCapabilities, .setEventCallbacks,
    .enable .classFileLoadHook, .enable .vmStart, .enable .vmInit, .enable .vmDeath,
    .addEmbeddedJar]

/-- A class-load hook that the virtual machine has called, with the configuration that it has read
from the storage if it has come so far. -/
structure RunningHook where
  args : HookArgs
  answers : HookAnswers
  conf : Option PjAgentConf

structure AgentState where
  world : World
  todo : List SetupStep
  callbacksSet : Bool
  enabled : List JvmtiEvent
  running : List RunningHook
  /-- `VMDeath` has been sent, after which no event is. -/
  dead : Bool
  freed : Bool
  /-- A panic does not leave a callback or `Agent_OnLoad`: it ends the process. -/
  aborted : Bool

def SetupStep.effect (s : AgentState) : SetupStep → AgentState
  | .setEventCallbacks => { s with callbacksSet := true }
  | .enable event => { s with enabled := event :: s.enabled }
  | .initStorage | .expectCapabilities | .addCapabilities | .addEmbeddedJar => s

def AgentState.Initial (s : AgentState) : Prop :=
  s.world.Initial ∧ s.todo = configureJvmtiEnv ∧ s.callbacksSet = false ∧ s.enabled = [] ∧
    s.running = [] ∧ s.dead = false ∧ s.freed = false ∧ s.aborted = false

def AgentState.Sends (s : AgentState) (event : JvmtiEvent) : Prop :=
  s.aborted = false ∧ s.callbacksSet = true ∧ event ∈ s.enabled ∧ s.dead = false

inductive AgentAction where
  | setup (step : SetupStep)
  | callback (event : JvmtiEvent)
  | hookRead
  | hookEnd
  | free
  | others
  | abort
  deriving DecidableEq

/-- The steps of an agent with the configuration `c`. The virtual machine calls the callbacks on its
threads, so that a hook that it has called reads the storage at some later step, and `pj_vm_death`
frees it at some step after `VMDeath` was sent. -/
inductive AgentStep (c : PjAgentConf) : AgentState → AgentAction → AgentState → Prop
  | initStorage {s : AgentState} {A : Allocator} {todo : List SetupStep} {env' : JvmtiEnv} :
      s.aborted = false → s.todo = .initStorage :: todo →
      (EnvStorage.init A c).run s.world.env = .returned () env' →
      AgentStep c s (.setup .initStorage)
        { s with world := { s.world with env := env' }, todo := todo }
  | setup {s : AgentState} {step : SetupStep} {todo : List SetupStep} :
      s.aborted = false → s.todo = step :: todo → step ≠ .initStorage →
      AgentStep c s (.setup step) { step.effect s with todo := todo }
  -- a step of the setup that fails, such as a capability that is not there
  | setupPanics {s : AgentState} {step : SetupStep} {todo : List SetupStep} :
      s.aborted = false → s.todo = step :: todo → AgentStep c s .abort { s with aborted := true }
  | hookCalled {s : AgentState} {args : HookArgs} {answers : HookAnswers} :
      s.Sends .classFileLoadHook →
      AgentStep c s (.callback .classFileLoadHook)
        { s with running := ⟨args, answers, none⟩ :: s.running }
  -- one step, since no `free` overlaps with it where the steps are allowed
  | hookReads {s : AgentState} {before after : List RunningHook} {hook : RunningHook}
      {storage : EnvStorage} {env' : JvmtiEnv} :
      s.aborted = false → s.running = before ++ hook :: after → hook.conf = none →
      EnvStorage.of.run s.world.env = .returned (some storage) env' →
      AgentStep c s .hookRead
        { s with
          world := { s.world with env := env' }
          running := before ++ { hook with conf := some storage.conf } :: after }
  -- the `expect` on the storage, or reading it, panics
  | hookFails {s : AgentState} {hook : RunningHook} :
      s.aborted = false → hook ∈ s.running → hook.conf = none →
      (∀ storage env', EnvStorage.of.run s.world.env ≠ .returned (some storage) env') →
      AgentStep c s .abort { s with aborted := true }
  -- the two cells for the results are the virtual machine's, and the new block becomes its own
  | hookEnds {s : AgentState} {A : Allocator} {before after : List RunningHook}
      {hook : RunningHook} {conf : PjAgentConf} {env' : JvmtiEnv} :
      s.aborted = false → s.running = before ++ hook :: after → hook.conf = some conf →
      hook.args.newClassDataLen ∈ s.world.others → hook.args.newClassData ∈ s.world.others →
      (hookWithConf A hook.answers hook.args conf).run s.world.env = .returned () env' →
      AgentStep c s .hookEnd
        { s with
          world := ⟨env', s.world.others ∪
            {a | s.world.env.memory a = none ∧ (env'.memory a).isSome}⟩
          running := before ++ after }
  | hookPanics {s : AgentState} {A : Allocator} {hook : RunningHook} {conf : PjAgentConf}
      {message : String} {env' : JvmtiEnv} :
      s.aborted = false → hook ∈ s.running → hook.conf = some conf →
      (hookWithConf A hook.answers hook.args conf).run s.world.env = .panicked message env' →
      AgentStep c s .abort { s with aborted := true }
  | vmStart {s : AgentState} : s.Sends .vmStart → AgentStep c s (.callback .vmStart) s
  | vmInit {s : AgentState} : s.Sends .vmInit → AgentStep c s (.callback .vmInit) s
  | vmDeath {s : AgentState} :
      s.Sends .vmDeath → AgentStep c s (.callback .vmDeath) { s with dead := true }
  | free {s : AgentState} {env' : JvmtiEnv} :
      s.aborted = false → s.dead = true → s.freed = false →
      EnvStorage.free.run s.world.env = .returned () env' →
      AgentStep c s .free { s with world := { s.world with env := env' }, freed := true }
  | freePanics {s : AgentState} {message : String} {env' : JvmtiEnv} :
      s.aborted = false → s.dead = true → s.freed = false →
      EnvStorage.free.run s.world.env = .panicked message env' →
      AgentStep c s .abort { s with aborted := true }
  | others {s : AgentState} {w : World} :
      s.aborted = false → OthersStep s.world w → AgentStep c s .others { s with world := w }

/-- The storage is freed only when all hooks that were called have read it. -/
def AgentState.Allows (s : AgentState) : AgentAction → Prop
  | .free => ∀ hook ∈ s.running, hook.conf ≠ none
  | _ => True

/-- A hook has read the configuration, or it will if it reads the storage now. -/
def RunningHook.Reads (c : PjAgentConf) (env : JvmtiEnv) (hook : RunningHook) : Prop :=
  hook.conf = some c ∨ hook.conf = none ∧ EnvStorage.of.run env = .returned (some ⟨c⟩) env

def AgentState.content (c : PjAgentConf) (s : AgentState) : Option PjAgentConf :=
  if s.todo = configureJvmtiEnv ∨ s.freed = true then none else some c

structure AgentState.Ok (c : PjAgentConf) (s : AgentState) : Prop where
  todo : s.todo <:+ configureJvmtiEnv
  quiet : s.todo = configureJvmtiEnv → s.enabled = [] ∧ s.running = [] ∧ s.dead = false
  freed : s.freed = true → s.dead = true
  holds : s.world.Holds (s.content c)
  running : ∀ hook ∈ s.running, hook.conf = some c ∨ hook.conf = none ∧ s.freed = false

section Preservation

variable {c : PjAgentConf} {s u : AgentState} {a : AgentAction} {t : List AgentAction}
  {step : SetupStep} {todo : List SetupStep}

lemma initStorage_first (h : s.todo <:+ configureJvmtiEnv) (hs : s.todo = step :: todo) :
    todo <:+ configureJvmtiEnv ∧ todo ≠ configureJvmtiEnv ∧
      (s.todo = configureJvmtiEnv ↔ step = .initStorage) := by
  rw [hs] at h ⊢
  refine ⟨(List.suffix_cons step todo).trans h, ?_, ?_⟩
  · rintro rfl
    exact absurd h.length_le (by simp)
  · constructor
    · intro he
      exact (List.cons_eq_cons.mp he).1
    · rintro rfl
      rcases List.suffix_cons_iff.mp h with he | ht
      · exact he
      -- the storage is not initialised again later
      · exact absurd (ht.subset (List.mem_cons_self ..)) (by decide)

lemma AgentState.Ok.holds_conf (h : s.Ok c) (hne : s.todo ≠ configureJvmtiEnv)
    (hf : s.freed = false) : s.world.Holds (some c) := by
  have := h.holds
  rwa [AgentState.content, if_neg (by simp [hne, hf])] at this

lemma AgentState.Ok.not_freed (h : s.Ok c) (hd : s.dead = false) : s.freed = false := by
  by_contra hf
  rw [h.freed (by simpa using hf)] at hd
  cases hd

lemma AgentState.Ok.sends {event : JvmtiEvent} (h : s.Ok c) (hs : s.Sends event) :
    s.todo ≠ configureJvmtiEnv := by
  intro he
  have hin := hs.2.2.1
  rw [(h.quiet he).1] at hin
  cases hin

lemma AgentState.Ok.waiting {hook : RunningHook} (h : s.Ok c) (hin : hook ∈ s.running)
    (hw : hook.conf = none) : s.world.Holds (some c) := by
  refine h.holds_conf (fun he => ?_) ?_
  · rw [(h.quiet he).2.1] at hin
    cases hin
  · rcases h.running hook hin with hc | ⟨-, hf⟩
    · rw [hw] at hc
      cases hc
    · exact hf

lemma AgentState.Ok.reads {hook : RunningHook} (h : s.Ok c) (hin : hook ∈ s.running) :
    hook.Reads c s.world.env := by
  rcases h.running hook hin with hc | ⟨hw, -⟩
  · exact .inl hc
  · exact .inr ⟨hw, (h.waiting hin hw).of_returns⟩

lemma World.Holds.hook {w : World} {content : Option PjAgentConf} {conf : PjAgentConf}
    {A : Allocator} {answers : HookAnswers} {args : HookArgs} {env' : JvmtiEnv}
    (h : w.Holds content) (hlen : args.newClassDataLen ∈ w.others)
    (hdata : args.newClassData ∈ w.others)
    (hr : (hookWithConf A answers args conf).run w.env = .returned () env') :
    World.Holds ⟨env', w.others ∪ {a | w.env.memory a = none ∧ (env'.memory a).isSome}⟩
      content := by
  rcases hookWithConf_keeps hr with rfl | ⟨out, buf, hbuf, hfresh, rfl⟩
  · refine h.frame rfl (fun _ _ _ hb => hb) ?_ ?_
    · rintro a (ha | ⟨hn, hs⟩)
      · exact .inl ha
      · simp [hn] at hs
    · rintro a (ha | ⟨-, hs⟩)
      · exact h.live a ha
      · exact Option.isSome_iff_exists.mp hs
  · refine h.frame rfl ?_ ?_ ?_
    · intro a b ha hb
      rw [handedOver_memory _ (ne_of_mem_of_not_mem hlen ha).symm
        (ne_of_mem_of_not_mem hdata ha).symm, hb]
      rintro rfl
      simp [hfresh] at hb
    · rintro a (ha | ⟨hn, hs⟩)
      · exact .inl ha
      · by_cases he : a = buf
        · exact .inr ⟨he ▸ hbuf, hn⟩
        · obtain ⟨b, hb⟩ := h.live _ hlen
          obtain ⟨b', hb'⟩ := h.live _ hdata
          rw [handedOver_memory he, hn] at hs
          · cases hs
          · rintro rfl
            simp [hn] at hb
          · rintro rfl
            simp [hn] at hb'
    · rintro a (ha | ⟨-, hs⟩)
      · obtain ⟨b, hb⟩ := h.live a ha
        by_cases h₁ : a = args.newClassData
        · exact ⟨_, by rw [h₁, handedOver, JvmtiEnv.set_same]⟩
        · by_cases h₂ : a = args.newClassDataLen
          · exact ⟨_, by rw [h₂, handedOver, JvmtiEnv.set_other (h₂ ▸ h₁), JvmtiEnv.set_same]⟩
          · refine ⟨b, ?_⟩
            rw [handedOver_memory _ h₂ h₁, hb]
            rintro rfl
            simp [hfresh] at hb
      · exact Option.isSome_iff_exists.mp hs

lemma SetupStep.effect_keeps (s : AgentState) (step : SetupStep) :
    (step.effect s).world = s.world ∧ (step.effect s).dead = s.dead ∧
      (step.effect s).freed = s.freed ∧ (step.effect s).running = s.running := by
  cases step <;> exact ⟨rfl, rfl, rfl, rfl⟩

lemma AgentStep.ok (hs : AgentStep c s a u) (ha : s.Allows a) (hc : c.phasicjExec ≠ some "")
    (h : s.Ok c) : u.Ok c := by
  cases hs with
  | initStorage _ hs hr =>
    obtain ⟨hsuffix, hne, hfirst⟩ := initStorage_first h.todo hs
    have hfull := hfirst.mpr rfl
    have hf := h.not_freed (h.quiet hfull).2.2
    have hholds := h.holds
    rw [AgentState.content, if_pos (.inl hfull)] at hholds
    refine ⟨hsuffix, fun he => absurd he hne, h.freed, ?_, h.running⟩
    rw [AgentState.content, if_neg (by simp [hne, hf])]
    exact hholds.init hc hr
  | @setup step todo _ hs hstep =>
    obtain ⟨hsuffix, hne, hfirst⟩ := initStorage_first h.todo hs
    obtain ⟨hworld, hdead, hfreed, hrunning⟩ := step.effect_keeps s
    refine ⟨hsuffix, fun he => absurd he hne, ?_, ?_, ?_⟩
    · simpa only [hdead, hfreed] using h.freed
    · have hholds := h.holds
      simp only [AgentState.content, hfirst, hstep, false_or] at hholds
      simpa only [AgentState.content, hne, false_or, hworld, hfreed] using hholds
    · simpa only [hrunning, hfreed] using h.running
  | hookCalled hsends =>
    refine ⟨h.todo, fun he => absurd he (h.sends hsends), h.freed, h.holds, ?_⟩
    rintro hook (_ | ⟨_, hin⟩)
    · exact .inr ⟨rfl, h.not_freed hsends.2.2.2⟩
    · exact h.running hook hin
  | @hookReads before after hook storage env' _ hr hw hof =>
    have hin : hook ∈ s.running := hr ▸ List.mem_append_right _ List.mem_cons_self
    have hstored := (h.waiting hin hw).of_returns
    rw [hof, Outcome.returned.injEq, Option.map_some, Option.some.injEq] at hstored
    obtain ⟨rfl, rfl⟩ := hstored
    refine ⟨h.todo, fun he => ?_, h.freed, h.holds, ?_⟩
    · rw [(h.quiet he).2.1] at hin
      cases hin
    · intro hook' hin'
      rcases List.mem_append.mp hin' with hb | hb
      · exact h.running hook' (hr ▸ List.mem_append_left _ hb)
      · rcases List.mem_cons.mp hb with rfl | hb
        · exact .inl rfl
        · exact h.running hook' (hr ▸ List.mem_append_right _ (List.mem_cons_of_mem _ hb))
  | @hookEnds A before after hook conf env' _ hr _ hlen hdata hrun =>
    refine ⟨h.todo, fun he => ?_, h.freed, h.holds.hook hlen hdata hrun, ?_⟩
    · rw [(h.quiet he).2.1] at hr
      simp at hr
    · intro hook hin
      apply h.running
      rw [hr]
      rcases List.mem_append.mp hin with hin | hin
      · exact List.mem_append_left _ hin
      · exact List.mem_append_right _ (List.mem_cons_of_mem _ hin)
  | vmStart _ => exact h
  | vmInit _ => exact h
  | vmDeath hsends =>
    exact ⟨h.todo, fun he => absurd he (h.sends hsends), fun _ => rfl, h.holds, h.running⟩
  | @free env' _ hd hf hr =>
    have hne : s.todo ≠ configureJvmtiEnv := by
      intro he
      rw [(h.quiet he).2.2] at hd
      cases hd
    obtain ⟨env'', hrun, hfree⟩ := (h.holds_conf hne hf).free_returns
    obtain rfl : env'' = env' := by simpa [hrun] using hr
    refine ⟨h.todo, fun he => absurd he hne, fun _ => hd, ?_, ?_⟩
    · rw [AgentState.content, if_pos (.inr rfl)]
      exact hfree
    · intro hook hin
      exact .inl ((h.running hook hin).resolve_right fun hw => ha hook hin hw.1)
  | others _ hs => exact ⟨h.todo, h.quiet, h.freed, hs.holds h.holds, h.running⟩
  | setupPanics | hookFails | hookPanics | freePanics =>
    exact ⟨h.todo, h.quiet, h.freed, h.holds, h.running⟩

lemma AgentStep.allows_of_reads (hs : AgentStep c s a u) (h : s.Ok c)
    (hr : ∀ hook ∈ u.running, hook.Reads c u.world.env) : s.Allows a := by
  cases hs with
  | @free env' _ hd hf hrun =>
    have hne : s.todo ≠ configureJvmtiEnv := by
      intro he
      rw [(h.quiet he).2.2] at hd
      cases hd
    obtain ⟨env'', hrun', hfree⟩ := (h.holds_conf hne hf).free_returns
    obtain rfl : env'' = env' := by simpa [hrun'] using hrun
    intro hook hin hw
    rcases hr hook hin with hc | ⟨-, hof⟩
    · rw [hw] at hc
      cases hc
    -- the storage is gone, so that the hook finds nothing
    · rw [hfree.of_returns] at hof
      cases hof
  | _ => trivial

lemma AgentState.Initial.ok (h : s.Initial) : s.Ok c := by
  obtain ⟨hw, htodo, -, henabled, hrunning, hdead, hfreed, -⟩ := h
  refine ⟨htodo ▸ List.suffix_refl _, fun _ => ⟨henabled, hrunning, hdead⟩, fun hf => ?_, ?_, ?_⟩
  · rw [hfreed] at hf
    cases hf
  · rw [AgentState.content, if_pos (.inl htodo)]
    exact hw.holds
  · rw [hrunning]
    rintro _ ⟨⟩

def AllowedStep (c : PjAgentConf) (s : AgentState) (a : AgentAction) (u : AgentState) : Prop :=
  AgentStep c s a u ∧ s.Allows a

lemma ok_of_agentRun (hc : c.phasicjExec ≠ some "") (h₀ : s.Initial)
    (h : Run (AllowedStep c) s t u) : u.Ok c :=
  h.invariant (AgentState.Ok c) (fun _ _ _ hu hs => hs.1.ok hs.2 hc hu) h₀.ok

lemma AgentState.Ok.hook_goes_on (h : s.Ok c)
    (hw : s.Sends .classFileLoadHook ∨ ∃ hook ∈ s.running, hook.conf = none) (A : Allocator)
    (answers : HookAnswers) (args : HookArgs) :
    (pjClassFileLoadHook A answers args).run s.world.env =
      (hookWithConf A answers args c).run s.world.env := by
  have hholds : s.world.Holds (some c) := by
    rcases hw with hsends | ⟨hook, hin, hw⟩
    · exact h.holds_conf (h.sends hsends) (h.not_freed hsends.2.2.2)
    · exact h.waiting hin hw
  rw [pjClassFileLoadHook, Action.bind_returned hholds.of_returns]
  rfl

/-- What was parsed is what is read: in every run of calls on a storage, `of` gives the
configuration that was stored last and changes nothing. In every run of the agent that frees the
storage only when all hooks that were called have read it, each of them has read or will read the
configuration of the agent's options, and a further step keeps that so if and only if it does not
free the storage too early. -/
theorem conf_read_is_conf_parsed (options : String) (c : PjAgentConf) :
    (∀ (w₀ w : World) (t : List StorageEvent), w₀.Initial → Run StorageStep w₀ t w →
      w.Answers (stored t) ∧
      ∀ t₁ t₂ c', t = t₁ ++ .initialized c' :: t₂ → .freed ∉ t₂ → stored t = some c') ∧
    ∀ (s u : AgentState) (t : List AgentAction),
      PjAgentConf.newFromAgentOptionsListStr options = .ok c → s.Initial →
      Run (AllowedStep c) s t u →
      (∀ hook ∈ u.running, hook.Reads c u.world.env) ∧
      (u.Sends .classFileLoadHook ∨ (∃ hook ∈ u.running, hook.conf = none) →
        ∀ A answers args, (pjClassFileLoadHook A answers args).run u.world.env =
          (hookWithConf A answers args c).run u.world.env) ∧
      ∀ a v, AgentStep c u a v →
        ((∀ hook ∈ v.running, hook.Reads c v.world.env) ↔ u.Allows a) := by
  constructor
  · intro w₀ w t h₀ h
    refine ⟨(holds_run h₀ h).answers, ?_⟩
    rintro t₁ t₂ c' rfl hf
    exact stored_until_freed h₀ h hf
  · intro s u t hparse hs h
    have hc := PjAgentConf.newFromAgentOptionsListStr_exec hparse
    have hok := ok_of_agentRun hc hs h
    refine ⟨fun hook => hok.reads, hok.hook_goes_on, fun a v hv => ?_⟩
    constructor
    · exact hv.allows_of_reads hok
    · intro ha hook
      exact (hv.ok ha hc hok).reads

end Preservation

section Example

def loading : AgentState :=
  ⟨emptyWorld, configureJvmtiEnv, false, [], [], false, false, false⟩

lemma loading_initial : loading.Initial :=
  ⟨emptyWorld_initial, rfl, rfl, rfl, rfl, rfl, rfl, rfl⟩

lemma default_options : PjAgentConf.newFromAgentOptionsListStr "" = .ok .newWithDefaults := by
  decide

lemma init_emptyWorld : ∃ env', (EnvStorage.init oneBlock .newWithDefaults).run emptyWorld.env =
    .returned () env' := ⟨_, rfl⟩

def smallHook : RunningHook :=
  ⟨⟨some [0x41], 1, 8, 16, 24⟩, ⟨true, true, fun _ _ => none⟩, none⟩

lemma loading_run : ∃ u, Run (AllowedStep .newWithDefaults) loading
      (configureJvmtiEnv.map .setup) u ∧
    u.Sends .classFileLoadHook ∧ u.Sends .vmDeath ∧ u.freed = false ∧ u.running = [] := by
  obtain ⟨env', hr⟩ := init_emptyWorld
  have h : Run (AllowedStep .newWithDefaults) loading [] loading := .nil loading
  have h := h.snoc ⟨.initStorage rfl rfl hr, trivial⟩
  have h := h.snoc ⟨.setup rfl rfl (by decide), trivial⟩
  have h := h.snoc ⟨.setup rfl rfl (by decide), trivial⟩
  have h := h.snoc ⟨.setup rfl rfl (by decide), trivial⟩
  have h := h.snoc ⟨.setup rfl rfl (by decide), trivial⟩
  have h := h.snoc ⟨.setup rfl rfl (by decide), trivial⟩
  have h := h.snoc ⟨.setup rfl rfl (by decide), trivial⟩
  have h := h.snoc ⟨.setup rfl rfl (by decide), trivial⟩
  have h := h.snoc ⟨.setup rfl rfl (by decide), trivial⟩
  exact ⟨_, h, ⟨rfl, rfl, List.mem_of_elem_eq_true rfl, rfl⟩,
    ⟨rfl, rfl, List.mem_of_elem_eq_true rfl, rfl⟩, rfl, rfl⟩

lemma hook_called : ∃ u t, Run (AllowedStep .newWithDefaults) loading t u ∧
    u.Sends .vmDeath ∧ u.freed = false ∧ u.running = [smallHook] := by
  obtain ⟨u, hu, hload, hdeath, hfreed, hrunning⟩ := loading_run
  have hcall : AgentStep .newWithDefaults u (.callback .classFileLoadHook)
      { u with running := smallHook :: u.running } := .hookCalled hload
  exact ⟨_, _, hu.snoc ⟨hcall, trivial⟩, hdeath, hfreed, congrArg _ hrunning⟩

theorem conf_read_is_conf_parsed_loading :
    (∃ w, Run StorageStep emptyWorld [.initialized .newWithDefaults] w ∧
      w.Answers (some .newWithDefaults)) ∧
    ∃ u t, Run (AllowedStep .newWithDefaults) loading t u ∧ u.running = [smallHook] ∧
      EnvStorage.of.run u.world.env = .returned (some ⟨.newWithDefaults⟩) u.world.env := by
  obtain ⟨env', hr⟩ := init_emptyWorld
  have hrun := Run.single (StorageStep.init default_options hr)
  obtain ⟨u, t, hu, -, -, hrunning⟩ := hook_called
  have h := conf_read_is_conf_parsed "" .newWithDefaults
  have hreads := (h.2 loading u t default_options loading_initial hu).1 smallHook
    (by rw [hrunning]; exact List.mem_cons_self)
  exact ⟨⟨_, hrun, (h.1 _ _ _ emptyWorld_initial hrun).1⟩, u, t, hu, hrunning,
    (hreads.resolve_left (by rintro ⟨⟩)).2⟩

/-- `VMDeath` is sent and the storage is freed before the hook reads it. -/
theorem conf_not_read_after_free : loading.Initial ∧
    PjAgentConf.newFromAgentOptionsListStr "" = .ok .newWithDefaults ∧
    ∃ u t v, Run (AgentStep .newWithDefaults) loading t u ∧ u.running = [smallHook] ∧
      ¬ smallHook.Reads .newWithDefaults u.world.env ∧
      (pjClassFileLoadHook oneBlock smallHook.answers smallHook.args).run u.world.env =
        .panicked storageMissing u.world.env ∧
      AgentStep .newWithDefaults u .abort v := by
  obtain ⟨u, t, hu, hdeath, hfreed, hrunning⟩ := hook_called
  have hok := ok_of_agentRun (PjAgentConf.newFromAgentOptionsListStr_exec default_options)
    loading_initial hu
  obtain ⟨env', hr, hfree⟩ := (hok.holds_conf (hok.sends hdeath) hfreed).free_returns
  have hrun := ((hu.mono fun _ _ _ => And.left).snoc (.vmDeath hdeath)).snoc
    (.free hdeath.1 rfl hfreed hr)
  have hof := hfree.of_returns
  refine ⟨loading_initial, default_options, _, _, _, hrun, hrunning, ?_, ?_,
    .hookFails hdeath.1 (hrunning ▸ List.mem_cons_self) rfl ?_⟩
  · rintro (hc | ⟨-, hc⟩)
    · cases hc
    · rw [hof] at hc
      cases hc
  · rw [pjClassFileLoadHook, Action.bind_returned hof]
    rfl
  · intro storage env'' hc
    rw [hof] at hc
    cases hc

end Example

end PhasicJ.AgentJvm
