import PhasicJ.AgentRt.CallsReturn
import PhasicJ.Code.HostedSplicing
import PhasicJ.Instr.Execution

/-! Applications on the threads of a virtual machine, with calls to the agent in some methods. -/

namespace PhasicJ.AgentRt

open Code Instr Transitions

/-- A Java virtual machine whose threads share a heap. -/
structure ThreadedJvm (M V R F H : Type) where
  effect : MethodEvent → F × H → Effect Label V (R × H) (F × H) → Prop
  invokes : MethodEvent → F × H → M → F → F × H → Prop
  resume : R → F → F
  enter : V → F × H → F × H
  instanceOf : String → V → Bool

def ThreadedJvm.machine {M V R F H : Type} (J : ThreadedJvm M V R F H) :
    Machine MethodEvent Label (Option String) M V R F H where
  semantics :=
    { label? := Jvm.label?
      handler? := Jvm.handler?
      effect := J.effect
      catches type x := type.all fun t => J.instanceOf t x
      enter := J.enter }
  invokes := J.invokes
  resume := J.resume

section Events

variable (eventHandlerClass : String)

def callKind (e : MethodEvent) : Option Kind :=
  if e = eventCall eventHandlerClass "phasicj$agent$rt$monitorEnter" then some .monitorEnter
  else if e = eventCall eventHandlerClass "phasicj$agent$rt$monitorExit" then some .monitorExit
  else none

def monitorKind (e : MethodEvent) : Option Kind :=
  if e = .insn Opcodes.MONITORENTER then some .monitorEnter
  else if e = .insn Opcodes.MONITOREXIT then some .monitorExit
  else none

/-- The agent as the threads see it: a call holds its thread until it returns. -/
def rtAgent : Agent MethodEvent State Action where
  isCall e := (callKind eventHandlerClass e).isSome
  begins i e s u := ∃ kind, callKind eventHandlerClass e = some kind ∧ Step s (.call i kind) u
  internal s a u := a.isCall = false ∧ Step s a u
  returned i s := ∀ c ∈ s.calls, c.thread = i → c.pc.isReturned = true

section Methods

variable {M : Type} (instrumented : M → Bool) (code : M → List MethodEvent)

def instrumentedCode (m : M) : List MethodEvent :=
  if instrumented m then MethodInstrumenter.accept eventHandlerClass (code m) else code m

def insertedCalls (m : M) (e : MethodEvent) : List MethodEvent :=
  if instrumented m then MethodInstrumenter.inserted eventHandlerClass e else []

variable {instrumented code} {eventHandlerClass : String} {e : MethodEvent} {m : M}

lemma instrumentedCode_eq : instrumentedCode eventHandlerClass instrumented code =
    spliceAll (insertedCalls eventHandlerClass instrumented) code := by
  funext m
  have hn : insertedCalls eventHandlerClass instrumented m = if instrumented m then
      MethodInstrumenter.inserted eventHandlerClass else fun _ => [] := by
    funext e
    simp only [insertedCalls]
    split <;> rfl
  rw [instrumentedCode, spliceAll, hn]
  split
  · rw [MethodInstrumenter.accept_eq]
  · simp [splice]

lemma mem_insertedCalls {i : MethodEvent}
    (h : i ∈ insertedCalls eventHandlerClass instrumented m e) :
    instrumented m = true ∧ MethodInstrumenter.monitorCall eventHandlerClass e = some i := by
  simp only [insertedCalls] at h
  split at h
  · next hm => exact ⟨hm, Option.mem_toList.mp h⟩
  · cases h

lemma eventCall_inj {event event' : String}
    (h : eventCall eventHandlerClass event = eventCall eventHandlerClass event') :
    event = event' := by
  injection h

lemma callKind_of_monitorCall {call : MethodEvent}
    (h : MethodInstrumenter.monitorCall eventHandlerClass e = some call) :
    callKind eventHandlerClass call = monitorKind e ∧ (monitorKind e).isSome := by
  have hne : eventCall eventHandlerClass "phasicj$agent$rt$monitorExit" ≠
      eventCall eventHandlerClass "phasicj$agent$rt$monitorEnter" := fun he =>
    absurd (eventCall_inj he) (by decide)
  rcases MethodInstrumenter.monitorCall_eq h with ⟨rfl, rfl⟩ | ⟨rfl, rfl⟩
  · simp [callKind, monitorKind]
  · simp [callKind, monitorKind, hne, MethodInstrumenter.exit_ne_enter]

lemma monitorKind_of_not_monitorCall
    (h : MethodInstrumenter.monitorCall eventHandlerClass e = none) : monitorKind e = none := by
  have hm := MethodInstrumenter.monitorCall_isSome eventHandlerClass e
  rw [h] at hm
  simp only [MethodEvent.isMonitor, Option.isSome_none, Bool.false_eq, Bool.or_eq_false_iff,
    decide_eq_false_iff_not] at hm
  rw [monitorKind, if_neg hm.1, if_neg hm.2]

def observedKind (instrumented : M → Bool) (m : M) (e : MethodEvent) : Option Kind :=
  if instrumented m then monitorKind e else none

lemma insertedCalls_kind : (insertedCalls eventHandlerClass instrumented m e).filterMap
    (callKind eventHandlerClass) = (observedKind instrumented m e).toList := by
  rw [insertedCalls, observedKind]
  split
  · rw [MethodInstrumenter.inserted]
    cases hc : MethodInstrumenter.monitorCall eventHandlerClass e with
    | none => rw [monitorKind_of_not_monitorCall hc]; rfl
    | some call =>
      obtain ⟨hk, hs⟩ := callKind_of_monitorCall hc
      obtain ⟨kind, hkind⟩ := Option.isSome_iff_exists.mp hs
      simp [hk, hkind]
  · rfl

lemma insertedCalls_separate {V R F H : Type} (J : ThreadedJvm M V R F H) (m : M) :
    Separate J.machine.semantics (insertedCalls eventHandlerClass instrumented m) := by
  refine ⟨?_, ?_, ?_⟩
  · intro e i hi
    rcases MethodInstrumenter.monitorCall_eq (mem_insertedCalls hi).2 with ⟨-, rfl⟩ | ⟨-, rfl⟩ <;>
      rfl
  · intro e i hi
    rcases MethodInstrumenter.monitorCall_eq (mem_insertedCalls hi).2 with ⟨-, rfl⟩ | ⟨-, rfl⟩ <;>
      rfl
  · intro e he
    rw [List.eq_nil_iff_forall_not_mem]
    intro i hi
    rcases MethodInstrumenter.monitorCall_eq (mem_insertedCalls hi).2 with ⟨rfl, -⟩ | ⟨rfl, -⟩ <;>
      cases he

lemma insertedCalls_serves (hcode : ∀ m, ∀ e ∈ code m, callKind eventHandlerClass e = none) :
    Serves (rtAgent eventHandlerClass) (insertedCalls eventHandlerClass instrumented) code := by
  refine ⟨?_, ?_⟩
  · intro m e i hi
    obtain ⟨hk, hs⟩ := callKind_of_monitorCall (mem_insertedCalls hi).2
    rw [← hk] at hs
    exact hs
  · intro m e he
    simp [rtAgent, hcode m e he]

end Methods

end Events

section Kinds

def State.tags (s : State) : List (ℕ × Kind) := s.calls.map fun c => (c.thread, c.kind)

def State.kindsOf (s : State) (i : ℕ) : List Kind :=
  s.tags.filterMap fun x => if x.1 = i then some x.2 else none

end Kinds

/-- States of the agent when threads may call it. -/
def Serving (s : State) : Prop := (∃ t, Run Step .initial t s) ∧ s.objectLoaded = true

section Agent

variable {eventHandlerClass : String} {s u : State} {a : Action} {i : ℕ} {kind : Kind}

lemma objectLoaded_step (hs : Step s a u) (h : s.objectLoaded = true) : u.objectLoaded = true := by
  cases hs <;> first | exact h | rfl

lemma Serving.step (h : Serving s) (hs : Step s a u) : Serving u := by
  obtain ⟨⟨t, hr⟩, hl⟩ := h
  exact ⟨⟨_, hr.snoc hs⟩, objectLoaded_step hs hl⟩

lemma Serving.no_panic (h : Serving s) (hs : Step s a u) : a.isPanic = false := by
  obtain ⟨⟨t, hr⟩, -⟩ := h
  obtain ⟨hst, hc⟩ := ok_run hr
  exact AgentRt.no_panic hst hc hs

lemma Serving.returned_step (h : Serving s) (hs : Step s a u) (ha : a.isCall = false)
    (hret : ∀ c ∈ s.calls, c.thread = i → c.pc.isReturned = true) :
    ∀ c ∈ u.calls, c.thread = i → c.pc.isReturned = true := by
  cases hstep : a.isCallStep with
  | false => rwa [calls_frame hs hstep ha (h.no_panic hs)]
  | true =>
    obtain ⟨k, c, pc, hk, hu, hlt, -⟩ := callStep_cases hs hstep
    intro d hd hi
    rw [hu] at hd
    rcases List.mem_or_eq_of_mem_set hd with hd | rfl
    · exact hret d hd hi
    · have hc := hret c (List.mem_of_getElem? hk) hi
      cases hpc : c.pc with
      | returned b => simp [hpc, Pc.left] at hlt
      | _ => simp [hpc, Pc.isReturned] at hc

lemma call_cases (hs : Step s (.call i kind) u) :
    u = { s with calls := s.calls ++ [⟨i, kind, .entered⟩] } := by
  cases hs
  rfl

lemma rtAgent_responsive : (rtAgent eventHandlerClass).Responsive Serving := by
  refine ⟨?_, ?_, ?_, ?_⟩
  · intro i e s hs hcall hret
    obtain ⟨kind, hk⟩ := Option.isSome_iff_exists.mp hcall
    refine ⟨_, kind, hk, .call hs.2 fun c hc hi => ?_⟩
    have := hret c hc hi
    cases hpc : c.pc with
    | returned b => exact ⟨b, rfl⟩
    | _ => simp [hpc, Pc.isReturned] at this
  · intro i e s u hs hb
    obtain ⟨kind, -, hstep⟩ := hb
    refine ⟨hs.step hstep, fun k hk hret c hc hi => ?_⟩
    rw [call_cases hstep] at hc
    rcases List.mem_append.mp hc with hc | hc
    · exact hret c hc hi
    · obtain rfl := List.mem_singleton.mp hc
      exact absurd hi.symm hk
  · intro a s u hs hi
    exact ⟨hs.step hi.2, fun k hret => hs.returned_step hi.2 hi.1 hret⟩
  · intro s hs
    obtain ⟨⟨t, hr⟩, -⟩ := hs
    obtain ⟨t', u, hr', ht', hu⟩ := run_until_returned hr
    refine ⟨t', u, ?_, fun k c hc _ => hu c hc⟩
    clear hu hr
    induction hr' with
    | nil => exact .nil _
    | @snoc v w t' a _ hs ih =>
      refine (ih fun b hb => ht' b (List.mem_append_left _ hb)).snoc ⟨?_, hs⟩
      have := ht' a (List.mem_append_right _ List.mem_cons_self)
      cases a <;> first | rfl | cases this

lemma Serving.tags_step (h : Serving s) (hs : Step s a u) (ha : a.isCall = false) :
    u.tags = s.tags := by
  cases hstep : a.isCallStep with
  | false => rw [State.tags, State.tags, calls_frame hs hstep ha (h.no_panic hs)]
  | true =>
    obtain ⟨k, c, pc, hk, hu, -⟩ := callStep_cases hs hstep
    obtain ⟨hlt, rfl⟩ := List.getElem?_eq_some_iff.mp hk
    have hlen : k < (s.calls.map fun c => (c.thread, c.kind)).length := by rwa [List.length_map]
    have hself := List.set_getElem_self hlen
    rw [List.getElem_map] at hself
    rw [State.tags, State.tags, hu, List.map_set]
    exact hself

end Agent

section Application

variable {M V R F H : Type}

/-- The kind of the monitor instruction that a thread executes next in an instrumented method. -/
def nextKind (instrumented : M → Bool) (code : M → List MethodEvent) :
    Thread M V R F → Option Kind
  | .running top _ => (code top.method)[top.pc]?.bind (observedKind instrumented top.method)
  | .unwinding _ _ | .finished _ => none

def observedKinds (instrumented : M → Bool) (i : ℕ)
    (t : List (HostedAction MethodEvent M F H Action)) : List Kind :=
  (t.filterMap (HostedAction.executedBy i)).filterMap fun x =>
    observedKind instrumented x.method x.event

def started (g : H) (s : State) : Hosted M V R F H State := ⟨⟨[], g⟩, s, fun _ => false⟩

variable {J : ThreadedJvm M V R F H} {eventHandlerClass : String} {instrumented : M → Bool}
  {code : M → List MethodEvent} {p : Pool M V R F H} {h h' : Hosted M V R F H State}
  {t : List (HostedAction MethodEvent M F H Action)} {a : HostedAction MethodEvent M F H Action}
  {g : H} {s : State}

lemma hostTracks_started : HostTracks (insertedCalls eventHandlerClass instrumented) code
    (⟨[], g⟩ : Pool M V R F H) (started g s) ([] : List (HostedAction MethodEvent M F H Action)) :=
  ⟨rfl, fun _ => .absent⟩

lemma owed_kinds (i : ℕ) (t : List (HostedAction MethodEvent M F H Action)) :
    (owed (insertedCalls eventHandlerClass instrumented) i t).filterMap
      (callKind eventHandlerClass) = observedKinds instrumented i t := by
  rw [owed, observedKinds]
  induction t.filterMap (HostedAction.executedBy i) with
  | nil => rfl
  | cons x xs ih =>
    rw [List.flatMap_cons, List.filterMap_append, ih, insertedCalls_kind]
    cases hk : observedKind instrumented x.method x.event <;> simp [hk]

lemma inserted_kinds (th : Thread M V R F) :
    (inserted (insertedCalls eventHandlerClass instrumented) code th).filterMap
      (callKind eventHandlerClass) = (nextKind instrumented code th).toList := by
  cases th with
  | unwinding | finished => rfl
  | running top cs =>
    rw [inserted, nextKind, insertedAt]
    cases (code top.method)[top.pc]? with
    | none => rfl
    | some e => exact insertedCalls_kind

lemma kindsOf_step (hs : J.machine.HostedStep (rtAgent eventHandlerClass)
    (instrumentedCode eventHandlerClass instrumented code) h a h') (hi : Serving h.agent) (i : ℕ) :
    h'.agent.kindsOf i =
      h.agent.kindsOf i ++ (a.begun i).toList.filterMap (callKind eventHandlerClass) := by
  cases hs with
  | start | thread | ends => exact (List.append_nil _).symm
  | agent hx =>
    rw [State.kindsOf, hi.tags_step hx.2 hx.1]
    exact (List.append_nil _).symm
  | @begins j top cs e a' _ _ _ _ hb =>
    obtain ⟨kind, hk, hstep⟩ := hb
    rw [call_cases hstep]
    by_cases hj : j = i <;> simp [State.kindsOf, State.tags, HostedAction.begun, hj, hk]

lemma kindsOf_run (hr : Run (J.machine.HostedStep (rtAgent eventHandlerClass)
    (instrumentedCode eventHandlerClass instrumented code)) h t h')
    (hi : h.Idle (rtAgent eventHandlerClass) Serving) (i : ℕ) :
    h'.agent.kindsOf i = h.agent.kindsOf i ++
      (t.filterMap (HostedAction.begun i)).filterMap (callKind eventHandlerClass) := by
  induction hr with
  | nil => exact (List.append_nil _).symm
  | snoc hr hs ih =>
    rw [kindsOf_step hs (hi.run rtAgent_responsive hr).agent, ih, begun_snoc, List.filterMap_append,
      List.append_assoc]

end Application

end PhasicJ.AgentRt
