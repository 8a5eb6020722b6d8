import PhasicJ.AgentRt.Applications

/-! An application with instrumented methods does what it does without the agent, and the agent gets
the events of its monitor instructions. -/

namespace PhasicJ.AgentRt

open Code Instr Sync Transitions

section Messages

variable {s u : State} {a : Action} {kind : Kind}

lemma countP_tags (l : List (ℕ × Kind)) {n : ℕ} (h : ∀ x ∈ l, x.1 < n) :
    (l.countP fun x => x.2 = kind) = ∑ i ∈ Finset.range n,
      (l.filterMap fun x => if x.1 = i then some x.2 else none).count kind := by
  induction l with
  | nil => simp
  | cons x l ih =>
    have hx : x.1 ∈ Finset.range n := Finset.mem_range.mpr (h x List.mem_cons_self)
    have hc : ∀ i, ((x :: l).filterMap fun x => if x.1 = i then some x.2 else none).count kind =
        (l.filterMap fun x => if x.1 = i then some x.2 else none).count kind +
          if x.1 = i then (if x.2 = kind then 1 else 0) else 0 := by
      intro i
      by_cases hi : x.1 = i <;> simp [hi, List.count_cons]
    rw [List.countP_cons, ih fun y hy => h y (List.mem_cons_of_mem x hy), Finset.sum_congr rfl
      fun i _ => hc i, Finset.sum_add_distrib, Finset.sum_ite_eq, if_pos hx]
    simp

structure State.Sees (s : State) : Prop where
  enabled : s.instrumentationIsEnabled = true
  calls : ∀ c ∈ s.calls, c.pc ≠ .returned false

lemma State.Sees.step (h : s.Sees) (hs : Step s a u) : u.Sees := by
  have hset : ∀ (k : ℕ) (c : Call) (pc : Pc), pc ≠ .returned false →
      ∀ d ∈ s.calls.set k { c with pc }, d.pc ≠ .returned false := by
    intro k c pc hpc d hd
    rcases List.mem_or_eq_of_mem_set hd with hd | rfl
    · exact h.calls d hd
    · exact hpc
  cases hs with
  | readDisabled _ _ hd =>
    rw [h.enabled] at hd
    cases hd
  | call =>
    refine ⟨h.enabled, fun c hc => ?_⟩
    rcases List.mem_append.mp hc with hc | hc
    · exact h.calls c hc
    · obtain rfl := List.mem_singleton.mp hc
      nofun
  | enableInstrumentation => exact ⟨rfl, h.calls⟩
  | readEnabled | countEnter | countExit | returnExit | lock | lockPanics | borrow | borrowPanics
  | send | sendPanics | unlock | returnEnter => exact ⟨h.enabled, hset _ _ _ nofun⟩
  | _ => exact ⟨h.enabled, h.calls⟩

lemma Serving.messages (h : Serving s) (hsees : s.Sees)
    (hret : ∀ c ∈ s.calls, c.pc.isReturned = true) :
    s.received + s.channel.queue.length = s.tags.countP fun x => x.2 = .monitorEnter := by
  obtain ⟨⟨t, hr⟩, -⟩ := h
  rw [(ok_run hr).2.forwarded, State.tags, List.countP_map]
  refine List.countP_congr fun c hc => ?_
  have hpc : c.pc = .returned true := by
    have h₁ := hret c hc
    have h₂ := hsees.calls c hc
    cases hp : c.pc with
    | returned b => cases b <;> simp_all
    | _ => simp [hp, Pc.isReturned] at h₁
  cases hk : c.kind <;> simp [Call.passedSend, hpc, hk]

end Messages

section Application

variable {M V R F H : Type} {J : ThreadedJvm M V R F H} {eventHandlerClass : String}
  {instrumented : M → Bool} {code : M → List MethodEvent} {h h' : Hosted M V R F H State}
  {p : Pool M V R F H} {t : List (HostedAction MethodEvent M F H Action)}
  {a : HostedAction MethodEvent M F H Action} {g : H} {s : State}

lemma started_idle (hs : Serving s) (hcalls : s.calls = []) :
    (started (M := M) (V := V) (R := R) (F := F) g s).Idle (rtAgent eventHandlerClass) Serving := by
  refine ⟨hs, fun i _ c hc => ?_⟩
  rw [show (started (M := M) (V := V) (R := R) (F := F) g s).agent = s from rfl, hcalls] at hc
  cases hc

/-- The calls of a thread are those of the monitor instructions that it has executed, and maybe the
one of the instruction that comes next. -/
lemma tracks_kinds (hp : HostTracks (insertedCalls eventHandlerClass instrumented) code p h t)
    (i : ℕ) : ∃ rest, (t.filterMap (HostedAction.begun i)).filterMap (callKind eventHandlerClass) =
      observedKinds instrumented i t ++ rest ∧
      rest <+: (p.threads[i]?.bind (nextKind instrumented code)).toList := by
  have hthread := hp.thread i
  have howed : (owed (insertedCalls eventHandlerClass instrumented) i t).filterMap
      (callKind eventHandlerClass) = observedKinds instrumented i t := owed_kinds i t
  generalize t.filterMap (HostedAction.begun i) = begun at hthread
  generalize owed _ i t = owed at hthread howed
  generalize p.threads[i]? = x, h.pool.threads[i]? = y, h.calling i = calling at hthread
  cases hthread with
  | absent => exact ⟨[], by rw [← howed]; rfl, List.nil_prefix⟩
  | present _ _ hb =>
    refine ⟨_, by rw [hb, List.filterMap_append, howed], ?_⟩
    rw [Option.bind_some, ← inserted_kinds]
    exact (List.take_prefix _ _).filterMap _

lemma tags_bound_step (hs : J.machine.HostedStep (rtAgent eventHandlerClass)
    (instrumentedCode eventHandlerClass instrumented code) h a h') (hi : Serving h.agent)
    (hb : ∀ x ∈ h.agent.tags, x.1 < h.pool.threads.length) :
    ∀ x ∈ h'.agent.tags, x.1 < h'.pool.threads.length := by
  cases hs with
  | start =>
    intro x hx
    rw [List.length_append]
    exact Nat.lt_add_right _ (hb x hx)
  | thread | ends =>
    intro x hx
    rw [List.length_set]
    exact hb x hx
  | agent hx =>
    rw [hi.tags_step hx.2 hx.1]
    exact hb
  | @begins i top cs e u hi' _ _ _ hbegins =>
    obtain ⟨kind, -, hstep⟩ := hbegins
    obtain ⟨hlt, -⟩ := List.getElem?_eq_some_iff.mp hi'
    intro x hx
    rw [call_cases hstep, State.tags, List.map_append] at hx
    rcases List.mem_append.mp hx with hx | hx
    · exact hb x hx
    · obtain rfl := List.mem_singleton.mp hx
      exact hlt

lemma tags_bound_run (hr : Run (J.machine.HostedStep (rtAgent eventHandlerClass)
    (instrumentedCode eventHandlerClass instrumented code)) h t h')
    (hi : h.Idle (rtAgent eventHandlerClass) Serving)
    (hb : ∀ x ∈ h.agent.tags, x.1 < h.pool.threads.length) :
    ∀ x ∈ h'.agent.tags, x.1 < h'.pool.threads.length := by
  induction hr with
  | nil => exact hb
  | snoc hr hs ih => exact tags_bound_step hs (hi.run rtAgent_responsive hr).agent ih

lemma sees_step (hs : J.machine.HostedStep (rtAgent eventHandlerClass)
    (instrumentedCode eventHandlerClass instrumented code) h a h') (hsees : h.agent.Sees) :
    h'.agent.Sees := by
  cases hs with
  | start | thread | ends => exact hsees
  | agent hx => exact hsees.step hx.2
  | begins _ _ _ _ hb =>
    obtain ⟨kind, -, hstep⟩ := hb
    exact hsees.step hstep

variable (J) (eventHandlerClass instrumented)

/-- Whatever an instrumented application with no event call of its own does on the threads of the
virtual machine, it does the same without the calls, with the same heap and the same frames. -/
theorem application_observed (hcode : ∀ m, ∀ e ∈ code m, callKind eventHandlerClass e = none)
    (hr : Run (J.machine.HostedStep (rtAgent eventHandlerClass)
      (instrumentedCode eventHandlerClass instrumented code)) (started g s) t h) :
    ∃ p, Run (J.machine.Step code) ⟨[], g⟩ (t.filterMap HostedAction.visible) p ∧
      h.pool.memory = p.memory ∧
      h.pool.threads.map Thread.erased = p.threads.map Thread.erased := by
  rw [instrumentedCode_eq] at hr
  obtain ⟨p, hp, htracks⟩ := host_run (insertedCalls_separate J) (insertedCalls_serves hcode)
    hostTracks_started hr
  exact ⟨p, hp, htracks.memory, htracks.erased⟩

/-- The calls hold no thread back: wherever they are, an application with no event call of its own
can go on as it can without them. -/
theorem application_unhindered (hcode : ∀ m, ∀ e ∈ code m, callKind eventHandlerClass e = none)
    (hs : Serving s) (hcalls : s.calls = [])
    (hr : Run (J.machine.HostedStep (rtAgent eventHandlerClass)
      (instrumentedCode eventHandlerClass instrumented code)) (started g s) t h) :
    ∃ p, Run (J.machine.Step code) ⟨[], g⟩ (t.filterMap HostedAction.visible) p ∧
      ∀ b p', Run (J.machine.Step code) p b p' →
        ∃ t' h', Run (J.machine.HostedStep (rtAgent eventHandlerClass)
            (instrumentedCode eventHandlerClass instrumented code)) h t' h' ∧
          t'.filterMap HostedAction.visible = b ∧ h'.pool.memory = p'.memory ∧
          h'.pool.threads.map Thread.erased = p'.threads.map Thread.erased := by
  have hidle := (started_idle hs hcalls).run rtAgent_responsive hr
  rw [instrumentedCode_eq] at hr ⊢
  obtain ⟨p, hp, htracks⟩ := host_run (insertedCalls_separate J) (insertedCalls_serves hcode)
    hostTracks_started hr
  refine ⟨p, hp, fun b p' hb => ?_⟩
  obtain ⟨t', h', hr', hv, htracks'⟩ := host_forward (insertedCalls_separate J)
    (insertedCalls_serves hcode) rtAgent_responsive htracks hidle hb
  exact ⟨t', h', hr', hv, htracks'.memory, htracks'.erased⟩

/-- In an application with no event call of its own, the calls that the agent gets of a thread are
those of the monitor instructions that it has executed in instrumented methods, and maybe the one of
the next instruction. Under instrumentation there is a message for each monitor that was entered
so. -/
theorem application_events (hcode : ∀ m, ∀ e ∈ code m, callKind eventHandlerClass e = none)
    (hs : Serving s) (hcalls : s.calls = [])
    (hr : Run (J.machine.HostedStep (rtAgent eventHandlerClass)
      (instrumentedCode eventHandlerClass instrumented code)) (started g s) t h) :
    ∃ (p : Pool M V R F H) (next : ℕ → List Kind),
      Run (J.machine.Step code) ⟨[], g⟩ (t.filterMap HostedAction.visible) p ∧
      (∀ i, h.agent.kindsOf i = observedKinds instrumented i t ++ next i ∧
        next i <+: (p.threads[i]?.bind (nextKind instrumented code)).toList) ∧
      (s.instrumentationIsEnabled = true → (∀ i, h.calling i = false) →
        h.agent.received + h.agent.channel.queue.length =
          ∑ i ∈ Finset.range h.pool.threads.length,
            (observedKinds instrumented i t ++ next i).count .monitorEnter) := by
  have hidle : (started (M := M) (V := V) (R := R) (F := F) g s).Idle (rtAgent eventHandlerClass)
      Serving := started_idle hs hcalls
  have hkinds := kindsOf_run hr hidle
  have hbound := tags_bound_run hr hidle (by simp [started, State.tags, hcalls])
  have hend := hidle.run rtAgent_responsive hr
  have hsees : s.instrumentationIsEnabled = true → h.agent.Sees := fun he =>
    hr.invariant (fun h => h.agent.Sees) (fun _ _ _ hu hstep => sees_step hstep hu)
      ⟨he, by simp [started, hcalls]⟩
  rw [instrumentedCode_eq] at hr
  obtain ⟨p, hp, htracks⟩ := host_run (insertedCalls_separate J) (insertedCalls_serves hcode)
    hostTracks_started hr
  rw [List.nil_append] at htracks
  choose next hnext hprefix using tracks_kinds htracks
  have hof : ∀ i, h.agent.kindsOf i = observedKinds instrumented i t ++ next i := by
    intro i
    rw [hkinds i, ← hnext i]
    simp [started, State.kindsOf, State.tags, hcalls]
  refine ⟨p, next, hp, fun i => ⟨hof i, hprefix i⟩, fun he hc => ?_⟩
  have hm := hend.agent.messages (hsees he) fun c hcall => hend.returned c.thread (hc _) c hcall rfl
  rw [hm, countP_tags _ hbound]
  exact Finset.sum_congr rfl fun i _ => by rw [← hof i]; rfl

end Application

section Example

def countingEffect : MethodEvent → Unit × ℕ → Effect Label Unit (Unit × ℕ) (Unit × ℕ)
  | .insn 194, (f, g) => .next (f, g + 1)
  | .insn 177, (f, g) => .finish (f, g)
  | _, f => .next f

def countingJvm : ThreadedJvm Unit Unit Unit Unit ℕ where
  effect e f x := x = countingEffect e f
  invokes _ _ _ _ _ := False
  resume _ f := f
  enter _ f := f
  instanceOf _ _ := false

def countingCode (_ : Unit) : List MethodEvent := [.insn Opcodes.MONITORENTER, .insn 177]

def enabledState : State :=
  { State.initial with
    onLoad := .returned
    objectLoaded := true
    vmStart := .returned
    instrumentationIsEnabled := true
    eventForwardingChannel := (Mutex.new none).write (some ⟨⟩)
    worker := .receiving }

lemma enabledState_serving : Serving enabledState := by
  refine ⟨⟨[.loadObject, .configure, .createChannel, .lockChannel, .installSender, .unlockChannel,
    .spawnWorker, .vmStart, .enableInstrumentation], ?_⟩, rfl⟩
  exact .cons (.loadObject rfl) (.cons (.configure rfl) (.cons (.createChannel rfl)
    (.cons (.lockChannel rfl ⟨rfl, rfl, rfl⟩) (.cons (.installSender rfl)
    (.cons (.unlockChannel rfl) (.cons (.spawnWorker rfl) (.cons (.vmStart rfl rfl rfl)
    (.single (.enableInstrumentation rfl)))))))))

lemma countingCode_calls (m : Unit) (e : MethodEvent) (he : e ∈ countingCode m) :
    callKind "java/lang/Object" e = none := by
  rcases List.mem_cons.mp he with rfl | he
  · rfl
  · obtain rfl := List.mem_singleton.mp he
    rfl

def CountingRun (t : List (HostedAction MethodEvent Unit Unit ℕ Action))
    (h : Hosted Unit Unit Unit Unit ℕ State) : Prop :=
  Run (countingJvm.machine.HostedStep (rtAgent "java/lang/Object")
    (instrumentedCode "java/lang/Object" (fun _ => true) countingCode)) (started 0 enabledState) t h

lemma counting_run : ∃ t h, CountingRun t h ∧
    h.pool.memory = 1 ∧ h.agent.received + h.agent.channel.queue.length = 1 ∧
    observedKinds (fun _ => true) 0 t = [.monitorEnter] ∧
    h.pool.threads.length = 1 ∧ ∀ i, h.calling i = false := by
  refine ⟨[.start, .begins 0 (eventCall "java/lang/Object" "phasicj$agent$rt$monitorEnter"),
    .agent (.readFlag 0), .agent (.count 0), .agent (.lock 0), .agent (.borrow 0), .agent (.send 0),
    .agent (.unlock 0), .agent (.ret 0), .ends 0, .thread 0 _], _,
    .cons (.start (m := ()) (f := ())) (.cons
    (.begins rfl rfl rfl rfl ⟨.monitorEnter, rfl, .call rfl nofun⟩)
    (.cons (.agent ⟨rfl, .readEnabled rfl rfl rfl⟩) (.cons (.agent ⟨rfl, .countEnter rfl rfl rfl⟩)
    (.cons (.agent ⟨rfl, .lock rfl rfl rfl ⟨rfl, rfl, rfl⟩⟩) (.cons (.agent ⟨rfl, .borrow rfl rfl rfl⟩)
    (.cons (.agent ⟨rfl, .send rfl rfl ⟨rfl, rfl⟩⟩) (.cons (.agent ⟨rfl, .unlock rfl rfl⟩)
    (.cons (.agent ⟨rfl, .returnEnter rfl rfl⟩) (.cons (.ends rfl rfl ?_)
    (.single (.thread rfl rfl (.next rfl rfl) ?_))))))))))), ?_⟩
  · intro c hc _
    obtain rfl := List.mem_singleton.mp hc
    rfl
  · intro x hx
    rw [← Option.some.inj hx]
    rfl
  · refine ⟨rfl, rfl, rfl, rfl, fun i => ?_⟩
    by_cases hi : i = 0 <;> simp [hi, started]

theorem application_observed_counting : ∃ t h, CountingRun t h ∧ h.pool.memory = 1 ∧
    ∃ p : Pool Unit Unit Unit Unit ℕ,
      Run (countingJvm.machine.Step countingCode) ⟨[], 0⟩ (t.filterMap HostedAction.visible) p ∧
      p.memory = 1 := by
  obtain ⟨t, h, hr, hm, -⟩ := counting_run
  obtain ⟨p, hp, hmem, -⟩ := application_observed countingJvm "java/lang/Object" (fun _ => true)
    countingCode_calls hr
  exact ⟨t, h, hr, hm, p, hp, hmem.symm.trans hm⟩

theorem application_unhindered_counting : ∃ t h, CountingRun t h ∧
    h.agent.received + h.agent.channel.queue.length = 1 ∧
    ∃ p : Pool Unit Unit Unit Unit ℕ,
      Run (countingJvm.machine.Step countingCode) ⟨[], 0⟩ (t.filterMap HostedAction.visible) p ∧
      ∀ b p', Run (countingJvm.machine.Step countingCode) p b p' →
        ∃ t' h', Run (countingJvm.machine.HostedStep (rtAgent "java/lang/Object")
          (instrumentedCode "java/lang/Object" (fun _ => true) countingCode)) h t' h' ∧
          t'.filterMap HostedAction.visible = b := by
  obtain ⟨t, h, hr, -, hm, -⟩ := counting_run
  obtain ⟨p, hp, hall⟩ := application_unhindered countingJvm "java/lang/Object" (fun _ => true)
    countingCode_calls enabledState_serving rfl hr
  refine ⟨t, h, hr, hm, p, hp, fun b p' hb => ?_⟩
  obtain ⟨t', h', hr', hv, -⟩ := hall b p' hb
  exact ⟨t', h', hr', hv⟩

theorem application_events_counting : ∃ t h, CountingRun t h ∧
    [.monitorEnter] <+: h.agent.kindsOf 0 ∧
    h.agent.received + h.agent.channel.queue.length =
      (h.agent.kindsOf 0).count .monitorEnter := by
  obtain ⟨t, h, hr, -, -, ht, hlen, hc⟩ := counting_run
  obtain ⟨p, next, -, hkinds, hm⟩ := application_events countingJvm "java/lang/Object"
    (fun _ => true) countingCode_calls enabledState_serving rfl hr
  refine ⟨t, h, hr, ?_, ?_⟩
  · rw [(hkinds 0).1, ht]
    exact List.prefix_append _ _
  · rw [hm rfl hc, hlen, Finset.sum_range_one, (hkinds 0).1]

end Example

end PhasicJ.AgentRt
