import PhasicJ.AgentJvm.EntryPoints

/-! The agent starts once in a process, whatever is called after that. -/

namespace PhasicJ.AgentJvm

open Panics AgentConf InstrumenterProcess Transitions

/-- The logger is set, and there are at most so many environments, channels and workers. -/
structure AgentProcess.Bounded (envs channels workers : ℕ) (p : AgentProcess) : Prop where
  logger : p.loggerSet = true
  envs : p.envs.length ≤ envs
  channels : p.channels ≤ channels
  workers : p.workers.length ≤ workers

namespace Setup

open Action

variable {answers : Answers} {conf : PjAgentConf} {env n c k n' c' k' : ℕ} {p q : AgentProcess}
  {f : Environment → Setup Unit}

lemma bounded_mono (h : p.Bounded n c k) (hn : n ≤ n') (hc : c ≤ c') (hk : k ≤ k') :
    p.Bounded n' c' k' :=
  ⟨h.logger, h.envs.trans hn, h.channels.trans hc, h.workers.trans hk⟩

lemma leads_withEnv (hf : ∀ e, Leads (·.Bounded n c k) (·.Bounded n c k) (f e)) :
    Leads (·.Bounded n c k) (·.Bounded n c k) (withEnv env f) := by
  intro p q hp hq
  simp only [withEnv] at hq
  cases he : p.envs[env]? with
  | none =>
    rw [he] at hq
    cases hq
  | some e =>
    rw [he] at hq
    exact hf e p q hp hq

lemma leads_putEnv (e : Environment) :
    Leads (·.Bounded n c k) (·.Bounded n c k) (putEnv env e) := by
  intro p q hp hq
  cases hq
  exact ⟨hp.logger, by rw [List.length_set]; exact hp.envs, hp.channels, hp.workers⟩

lemma leads_onStorage (x : Jvmti Unit) :
    Leads (·.Bounded n c k) (·.Bounded n c k) (onStorage env x) := by
  refine leads_withEnv fun e p q hp hq => ?_
  simp only at hq
  cases hx : x.run ⟨p.memory, e.localStorage⟩ with
  | undefined =>
    rw [hx] at hq
    cases hq
  | returned _ u | panicked _ u =>
    rw [hx] at hq
    cases hq
    exact ⟨hp.logger, by rw [List.length_set]; exact hp.envs, hp.channels, hp.workers⟩

lemma leads_step (step : SetupStep) :
    Leads (·.Bounded n c k) (·.Bounded n c k) (Setup.step answers env conf step) := by
  cases step with
  | initStorage => exact leads_onStorage _
  | expectCapabilities =>
    refine Leads.bind_same ?_ fun _ => (leads_require _ _).bind_same fun _ => leads_require _ _
    rw [getPotentialCapabilities]
    cases answers.getPotentialCapabilities with
    | error err => exact leads_panic _
    | ok capa => exact leads_pure _
  | addCapabilities =>
    exact leads_withEnv fun e => (leads_require _ _).bind_same fun _ =>
      (leads_require _ _).bind_same fun _ => leads_putEnv _
  | setEventCallbacks | enable event =>
    exact leads_withEnv fun e => (leads_require _ _).bind_same fun _ => leads_putEnv _
  | addEmbeddedJar =>
    refine (leads_require _ _).bind_same fun _ => ?_
    cases answers.rtJarPath with
    | none => exact leads_panic _
    | some path =>
      refine (leads_require _ _).bind_same fun _ => ?_
      exact leads_returned fun p hp => ⟨hp.logger, hp.envs, hp.channels, hp.workers⟩

lemma leads_startForwardingWorkerThread :
    Leads (·.Bounded n c k) (·.Bounded n (c + 1) (k + 1)) (startForwardingWorkerThread answers) := by
  have hmono : ∀ p : AgentProcess, p.Bounded n (c + 1) k → p.Bounded n (c + 1) (k + 1) :=
    fun p hp => bounded_mono hp le_rfl le_rfl (Nat.le_succ k)
  refine Leads.bind (J := (·.Bounded n (c + 1) k)) ?_ (fun channel => ?_) hmono
  · exact leads_returned fun p hp =>
      ⟨hp.logger, hp.envs, Nat.succ_le_succ hp.channels, hp.workers⟩
  refine Leads.bind (leads_require _ _) (fun _ => ?_) hmono
  refine Leads.bind (J := (·.Bounded n (c + 1) k)) ?_ (fun _ => ?_) hmono
  · exact leads_returned fun p hp => ⟨hp.logger, hp.envs, hp.channels, hp.workers⟩
  refine Leads.bind (leads_require _ _) (fun _ => ?_) hmono
  exact leads_returned fun p hp => ⟨hp.logger, hp.envs, hp.channels, Nat.succ_le_succ hp.workers⟩

lemma leads_setupAgent :
    Leads (·.Bounded n c k) (·.Bounded (n + 1) (c + 1) (k + 1)) (setupAgent answers conf) := by
  have hmono : ∀ p : AgentProcess, p.Bounded (n + 1) c k → p.Bounded (n + 1) (c + 1) (k + 1) :=
    fun p hp => bounded_mono hp le_rfl (Nat.le_succ c) (Nat.le_succ k)
  refine Leads.bind (J := (·.Bounded (n + 1) c k)) ?_ (fun env => ?_) hmono
  · refine Leads.bind (leads_require _ _) (fun _ => ?_) fun p hp =>
      bounded_mono hp (Nat.le_succ n) le_rfl le_rfl
    refine leads_returned fun p hp => ⟨hp.logger, ?_, hp.channels, hp.workers⟩
    rw [List.length_append]
    exact Nat.succ_le_succ hp.envs
  · refine Leads.bind (leads_forM fun step _ => leads_step step) (fun _ => ?_) hmono
    exact leads_startForwardingWorkerThread

lemma leads_onLoad (options : Bytes) :
    Leads (· = .initial) (·.Bounded 1 1 1) (onLoad answers options) := by
  have hmono : ∀ p : AgentProcess, p.Bounded 0 0 0 → p.Bounded 1 1 1 :=
    fun p hp => bounded_mono hp (Nat.zero_le 1) (Nat.zero_le 1) (Nat.zero_le 1)
  refine Leads.bind (J := (·.Bounded 0 0 0)) ?_ (fun _ => ?_) hmono
  · rintro p q rfl hq
    cases hq
    exact ⟨rfl, le_rfl, le_rfl, le_rfl⟩
  cases fromUtf8 options with
  | none => exact (leads_panic _).mono hmono
  | some text =>
    simp only
    cases PjAgentConf.newFromAgentOptionsListStr text with
    | error message => exact (leads_panic _).mono hmono
    | ok conf =>
      refine Leads.bind (leads_require _ _) (fun _ => ?_) hmono
      exact leads_setupAgent

end Setup

section Runs

variable {answers : Answers} {options : Option Bytes} {p q : AgentProcess} {entry : EntryPoint}
  {result : Option ℤ} {t : List (EntryPoint × Option ℤ)}

def EntryPoint.isLoad : EntryPoint → Bool
  | .onLoad _ _ => true
  | _ => false

def loaded (call : EntryPoint × Option ℤ) : Bool := call.1.isLoad && call.2.isSome

lemma leads_agentOnLoad (answers : Answers) (options : Option Bytes) :
    Action.Leads (· = .initial) (·.Bounded 1 1 1) (agentOnLoad answers options) := by
  cases options <;>
    exact (Setup.leads_onLoad _).bind (fun _ => Action.leads_pure 0) fun _ hp => hp

lemma agentOnLoad_again (h : p.loggerSet = true) (answers : Answers) (options : Option Bytes) :
    (agentOnLoad answers options).run p =
      .panicked "env_logger::init should not be called after logger initialized" p := by
  have hlogger : Setup.envLoggerInit.run p =
      .panicked "env_logger::init should not be called after logger initialized" p := by
    simp only [Setup.envLoggerInit, h, if_true]
  cases options <;> exact Action.bind_panicked (Action.bind_panicked hlogger _) _

lemma EntryStep.same (hs : EntryStep p (entry, result) q)
    (h : p.loggerSet = true ∨ entry.isLoad = false) :
    q = p ∧ loaded (entry, result) = false := by
  cases hs with
  | onAttach hr => exact ⟨(EntryStep.attach (.onAttach hr)).2, rfl⟩
  | onUnload hr =>
    cases hr
    exact ⟨rfl, rfl⟩
  | onLoad hr =>
    rw [agentOnLoad_again (h.resolve_right (by simp [EntryPoint.isLoad]))] at hr
    cases hr
  | onLoadPanics hr =>
    rw [agentOnLoad_again (h.resolve_right (by simp [EntryPoint.isLoad]))] at hr
    cases hr
    exact ⟨rfl, rfl⟩

/-- Either `Agent_OnLoad` has not been called, or the first call of it has left the process as it
is. -/
inductive StartedOnce (t : List (EntryPoint × Option ℤ)) (p : AgentProcess) : Prop
  | unloaded : p = .initial → (∀ call ∈ t, call.1.isLoad = false) → StartedOnce t p
  | failed : p.Bounded 1 1 1 → (∀ call ∈ t, loaded call = false) → StartedOnce t p
  | succeeded {answers : Answers} {options : Option Bytes} {conf : PjAgentConf} {rtJar : String} :
      p.Bounded 1 1 1 → t.filter loaded = [(.onLoad answers options, some 0)] →
      EntryPoint.IsFor conf rtJar (.onLoad answers options) → InPlace conf rtJar .initial p →
      StartedOnce t p

lemma StartedOnce.quiet (h : StartedOnce t p) (hn : loaded (entry, result) = false)
    (hl : p.loggerSet = true ∨ entry.isLoad = false) :
    StartedOnce (t ++ [(entry, result)]) p := by
  have hall : ∀ Q : EntryPoint × Option ℤ → Prop, (∀ call ∈ t, Q call) → Q (entry, result) →
      ∀ call ∈ t ++ [(entry, result)], Q call := fun Q ht hq =>
    List.forall_mem_append.mpr ⟨ht, List.forall_mem_singleton.mpr hq⟩
  cases h with
  | unloaded hp ht =>
    subst hp
    exact .unloaded rfl (hall _ ht (hl.resolve_left nofun))
  | failed hp ht => exact .failed hp (hall _ ht hn)
  | succeeded hp ht hfor hin =>
    refine .succeeded hp ?_ hfor hin
    rw [List.filter_append, ht, List.filter_cons_of_neg (by simp [hn])]
    rfl

lemma StartedOnce.step (h : StartedOnce t p) (hs : EntryStep p (entry, result) q) :
    StartedOnce (t ++ [(entry, result)]) q := by
  by_cases hl : p.loggerSet = true ∨ entry.isLoad = false
  · obtain ⟨rfl, hn⟩ := hs.same hl
    exact h.quiet hn hl
  rw [not_or] at hl
  obtain ⟨rfl, ht⟩ : p = .initial ∧ ∀ call ∈ t, call.1.isLoad = false := by
    cases h with
    | unloaded hp ht => exact ⟨hp, ht⟩
    | failed hp | succeeded hp => exact absurd hp.logger hl.1
  have hnone : t.filter loaded = [] := List.filter_eq_nil_iff.mpr fun call hc => by
    simp [loaded, ht call hc]
  cases hs with
  | @onLoad _ answers options _ hr =>
    obtain ⟨rfl, conf, rtJar, hfor, hin⟩ :=
      (post_agentOnLoad answers options .initial).of_returned hr
    refine .succeeded (leads_agentOnLoad answers options _ _ rfl (by rw [hr]; rfl)) ?_ hfor hin
    rw [List.filter_append, hnone]
    rfl
  | @onLoadPanics _ answers options _ hr =>
    refine .failed (leads_agentOnLoad answers options _ _ rfl (by rw [hr]; rfl)) ?_
    refine List.forall_mem_append.mpr ⟨fun call hc => ?_, List.forall_mem_singleton.mpr rfl⟩
    simp [loaded, ht call hc]
  | onAttach => exact absurd rfl hl.2
  | onUnload => exact absurd rfl hl.2

lemma startedOnce_run (h : Run EntryStep .initial t q) : StartedOnce t q :=
  h.trace_invariant StartedOnce (fun _ _ _ _ hu hs => hu.step hs) (.unloaded rfl (by simp))

/-- `Agent_OnLoad` returns at most once. What it has then set up stays in place, whatever is called
later, and no call adds a second environment, event channel or worker. -/
theorem agent_starts_once (h : Run EntryStep .initial t q) :
    t.countP loaded ≤ 1 ∧
    (∀ answers options code, (.onLoad answers options, some code) ∈ t → ∃ conf rtJar,
      EntryPoint.IsFor conf rtJar (.onLoad answers options) ∧ InPlace conf rtJar .initial q) ∧
    q.envs.length ≤ 1 ∧ q.channels ≤ 1 ∧ q.workers.length ≤ 1 := by
  rw [List.countP_eq_length_filter]
  cases startedOnce_run h with
  | unloaded hp ht =>
    subst hp
    have hnone : t.filter loaded = [] := List.filter_eq_nil_iff.mpr fun call hc => by
      simp [loaded, ht call hc]
    refine ⟨by simp [hnone], fun answers options code hc => ?_, Nat.zero_le 1, Nat.zero_le 1,
      Nat.zero_le 1⟩
    cases ht _ hc
  | failed hp ht =>
    have hnone : t.filter loaded = [] := List.filter_eq_nil_iff.mpr fun call hc => by simp [ht call hc]
    refine ⟨by simp [hnone], fun answers options code hc => ?_, hp.envs, hp.channels, hp.workers⟩
    cases ht _ hc
  | succeeded hp ht hfor hin =>
    refine ⟨by simp [ht], fun answers options code hc => ?_, hp.envs, hp.channels, hp.workers⟩
    have hmem := List.mem_filter.mpr ⟨hc, (rfl : loaded (_, some code) = true)⟩
    rw [ht, List.mem_singleton] at hmem
    cases hmem
    exact ⟨_, _, hfor, hin⟩

end Runs

section Example

theorem agent_starts_once_twice : ∃ q,
    Run EntryStep .initial [(.onLoad allSucceed none, some 0), (.onLoad allSucceed none, none)] q ∧
    ∃ conf rtJar, InPlace conf rtJar .initial q := by
  obtain ⟨q, hr⟩ := onLoad_returns
  have hl : q.loggerSet = true :=
    (leads_agentOnLoad allSucceed none _ _ rfl (by rw [hr]; rfl)).logger
  have h : Run EntryStep .initial
      [(.onLoad allSucceed none, some 0), (.onLoad allSucceed none, none)] q :=
    .cons (.onLoad hr) (.single (.onLoadPanics (agentOnLoad_again hl allSucceed none)))
  obtain ⟨conf, rtJar, -, hin⟩ := (agent_starts_once h).2.1 _ _ _ List.mem_cons_self
  exact ⟨q, h, conf, rtJar, hin⟩

end Example

end PhasicJ.AgentJvm
