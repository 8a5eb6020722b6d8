import PhasicJ.AgentJvm.ClassLoads
import PhasicJ.AgentRt.Transparency
import PhasicJ.Instr.References

/-! Applications whose classes went through the class-load hook, each with its own outcome. -/

namespace PhasicJ.AgentRt

open AgentJvm Code Instr Transitions

/-- A method, by the number of its class in the order of loading. -/
structure MethodId where
  load : ℕ
  key : String × MethodDescriptor

def bodyIn (methods : List MethodMember) (key : String × MethodDescriptor) : List MethodEvent :=
  ((methods.find? fun m => m.key = key).map MethodMember.body).getD []

def receivedCode (received : List Received) (m : MethodId) : List MethodEvent :=
  bodyIn ((received[m.load]?.map fun r => r.definition.methods).getD []) m.key

/-- The methods of the class, and those that its amendments add to it. -/
def methodsOf (load : ClassLoad) : List MethodMember :=
  if load.instruments then
    load.cls.methods ++
      (getInstrumenter.amendmentsOf load.cls.name).flatMap Amendment.memberMethods
  else load.cls.methods

def loadedCode (loads : List ClassLoad) (m : MethodId) : List MethodEvent :=
  bodyIn ((loads[m.load]?.map methodsOf).getD []) m.key

def isInstrumented (loads : List ClassLoad) (m : MethodId) : Bool :=
  (loads[m.load]?.map ClassLoad.instruments).getD false

section Loads

variable {loads : List ClassLoad} {load : ClassLoad} {m : MethodMember} {e : MethodEvent}

lemma bodyIn_visitMethod (methods : List MethodMember) (key : String × MethodDescriptor) :
    bodyIn (methods.map getInstrumenter.visitMethod) key =
      MethodInstrumenter.accept "java/lang/Object" (bodyIn methods key) := by
  have hkey : (fun m : MethodMember => decide (m.key = key)) ∘ getInstrumenter.visitMethod =
      fun m => decide (m.key = key) := rfl
  rw [bodyIn, bodyIn, List.find?_map, hkey]
  cases methods.find? fun m => decide (m.key = key) <;> rfl

lemma hook_methods (load : ClassLoad) : (classFileLoadHook load).definition.methods =
    if load.instruments then (methodsOf load).map getInstrumenter.visitMethod
    else methodsOf load := by
  rw [hook_eq, methodsOf]
  cases load.instruments with
  | false => rfl
  | true => exact List.map_append.symm

lemma receivedCode_hook (loads : List ClassLoad) :
    receivedCode (loads.map classFileLoadHook) =
      instrumentedCode "java/lang/Object" (isInstrumented loads) (loadedCode loads) := by
  funext m
  rw [receivedCode, instrumentedCode, isInstrumented, loadedCode, List.getElem?_map, Option.map_map]
  cases loads[m.load]? with
  | none => rfl
  | some load =>
    simp only [Option.map_some, Option.getD_some, Function.comp_apply, hook_methods]
    cases load.instruments with
    | false => rfl
    | true => exact bodyIn_visitMethod ..

lemma isEventCall_of_callKind (h : callKind "java/lang/Object" e ≠ none) : IsEventCall e := by
  rw [callKind] at h
  split at h
  · next he => exact ⟨_, .head _, he⟩
  · split at h
    · next he => exact ⟨_, .tail _ (.head _), he⟩
    · exact absurd rfl h

lemma methodsOf_quiet (h : ¬ CallsEvents load.cls) (hm : m ∈ methodsOf load) (he : e ∈ m.body) :
    ¬ IsEventCall e := by
  intro hc
  have hcls : m ∉ load.cls.methods := fun hin => h ⟨m, hin, e, he, hc⟩
  rw [methodsOf] at hm
  split at hm
  · obtain ⟨a, ha, hma⟩ := List.mem_flatMap.mp ((List.mem_append.mp hm).resolve_left hcls)
    rw [amendmentsOf_eq] at ha
    split at ha
    · obtain rfl := List.mem_singleton.mp ha
      exact amendment_quiet hma ⟨e, he, .inr hc⟩
    · cases ha
  · exact hcls hm

lemma loadedCode_quiet (h : ∀ load ∈ loads, ¬ CallsEvents load.cls) (m : MethodId)
    (he : e ∈ loadedCode loads m) : callKind "java/lang/Object" e = none := by
  by_contra hk
  rw [loadedCode, bodyIn] at he
  cases hl : loads[m.load]? with
  | none =>
    rw [hl] at he
    cases he
  | some load =>
    rw [hl, Option.map_some, Option.getD_some] at he
    cases hf : (methodsOf load).find? fun x => decide (x.key = m.key) with
    | none =>
      rw [hf] at he
      cases he
    | some x =>
      rw [hf, Option.map_some, Option.getD_some] at he
      exact methodsOf_quiet (h load (List.mem_of_getElem? hl)) (List.mem_of_find?_eq_some hf) he
        (isEventCall_of_callKind hk)

lemma resolvable_of_object {object : ClassLoad} (ho : object.cls.name = "java/lang/Object")
    (hs : object.instrumenterSucceeds = true) :
    Resolvable ((object :: loads).map classFileLoadHook) := by
  intro r _ _ _
  exact ⟨classFileLoadHook object, rfl, (hook_object ho).mpr hs⟩

end Loads

section Application

variable {V R F H : Type} {J : ThreadedJvm MethodId V R F H} {loads : List ClassLoad}
  {object : ClassLoad} {received : List Received} {h : Hosted MethodId V R F H State}
  {t : List (HostedAction MethodEvent MethodId F H Action)} {g : H} {s : State}

/-- Once the hook has amended `java/lang/Object`, an application of any classes that have no event
calls of their own, instrumented or not as the hook managed to, does what its classes do as they
were loaded. Each inserted call can be resolved and held back by nothing, and the agent gets the
calls of the instrumented classes. -/
theorem loaded_application_observed (J : ThreadedJvm MethodId V R F H)
    (ho : object.cls.name = "java/lang/Object") (hobject : object.instrumenterSucceeds = true)
    (hloads : Run HookStep [] (object :: loads) received)
    (hplain : ∀ load ∈ object :: loads, ¬ CallsEvents load.cls)
    (hs : Serving s) (hcalls : s.calls = [])
    (hr : Run (J.machine.HostedStep (rtAgent "java/lang/Object") (receivedCode received))
      (started g s) t h) :
    Resolvable received ∧ ∃ p,
      Run (J.machine.Step (loadedCode (object :: loads))) ⟨[], g⟩
        (t.filterMap HostedAction.visible) p ∧
      h.pool.memory = p.memory ∧
      h.pool.threads.map Thread.erased = p.threads.map Thread.erased ∧
      (∀ i, ∃ next,
        h.agent.kindsOf i = observedKinds (isInstrumented (object :: loads)) i t ++ next ∧
        next <+: (p.threads[i]?.bind (nextKind (isInstrumented (object :: loads))
          (loadedCode (object :: loads)))).toList) ∧
      ∀ b p', Run (J.machine.Step (loadedCode (object :: loads))) p b p' →
        ∃ t' h', Run (J.machine.HostedStep (rtAgent "java/lang/Object") (receivedCode received))
            h t' h' ∧
          t'.filterMap HostedAction.visible = b ∧ h'.pool.memory = p'.memory ∧
          h'.pool.threads.map Thread.erased = p'.threads.map Thread.erased := by
  have hreceived := run_received hloads
  rw [List.nil_append] at hreceived
  subst hreceived
  rw [receivedCode_hook] at hr ⊢
  have hcode := fun m e (he : e ∈ loadedCode (object :: loads) m) => loadedCode_quiet hplain m he
  have hidle : (started (M := MethodId) (V := V) (R := R) (F := F) g s).Idle
      (rtAgent "java/lang/Object") Serving := started_idle hs hcalls
  have hkinds := kindsOf_run hr hidle
  have hend := hidle.run rtAgent_responsive hr
  rw [instrumentedCode_eq] at hr ⊢
  obtain ⟨p, hp, htracks⟩ := host_run (insertedCalls_separate J) (insertedCalls_serves hcode)
    hostTracks_started hr
  rw [List.nil_append] at htracks
  refine ⟨resolvable_of_object ho hobject, p, hp, htracks.memory, htracks.erased, fun i => ?_,
    fun b p' hb => ?_⟩
  · obtain ⟨next, hnext, hprefix⟩ := tracks_kinds htracks i
    refine ⟨next, ?_, hprefix⟩
    rw [hkinds i, ← hnext]
    simp [started, State.kindsOf, State.tags, hcalls]
  · obtain ⟨t', h', hr', hv, htracks'⟩ := host_forward (insertedCalls_separate J)
      (insertedCalls_serves hcode) rtAgent_responsive htracks hend hb
    exact ⟨t', h', hr', hv, htracks'.memory, htracks'.erased⟩

end Application

section Example

def appJvm : ThreadedJvm MethodId Unit Unit Unit ℕ where
  effect e f x := x = countingEffect e f
  invokes _ _ _ _ _ := False
  resume _ f := f
  enter _ f := f
  instanceOf _ _ := false

def appRun : MethodId := ⟨1, "run", voidMethodDescr⟩

lemma app_run : ∃ t h, Run (appJvm.machine.HostedStep (rtAgent "java/lang/Object")
    (receivedCode ((twoLoads true).map classFileLoadHook))) (started 0 enabledState) t h ∧
    h.agent.kindsOf 0 = [.monitorEnter] := by
  refine ⟨[.start, .thread 0 (some ⟨appRun, .code, (), 0⟩),
    .thread 0 (some ⟨appRun, .varInsn 25 0, (), 0⟩),
    .begins 0 (eventCall "java/lang/Object" "phasicj$agent$rt$monitorEnter")], _,
    .cons (.start (m := appRun) (f := ())) (.cons (.thread rfl rfl (.next (by decide) rfl) ?_)
    (.cons (.thread rfl rfl (.next (by decide) rfl) ?_) (.single
    (.begins rfl rfl (by decide) rfl ⟨.monitorEnter, rfl, .call rfl nofun⟩)))), rfl⟩
  · rintro x hx
    cases hx
    rfl
  · rintro x hx
    cases hx
    rfl

theorem loaded_application_observed_app :
    Resolvable ((twoLoads true).map classFileLoadHook) ∧
    ∃ t h, Run (appJvm.machine.HostedStep (rtAgent "java/lang/Object")
        (receivedCode ((twoLoads true).map classFileLoadHook))) (started 0 enabledState) t h ∧
      h.agent.kindsOf 0 = [.monitorEnter] ∧
      ∃ p : Pool MethodId Unit Unit Unit ℕ, Run (appJvm.machine.Step (loadedCode (twoLoads true)))
        ⟨[], 0⟩ (t.filterMap HostedAction.visible) p ∧ h.pool.memory = p.memory := by
  obtain ⟨t, h, hr, hkinds⟩ := app_run
  have hplain : ∀ load ∈ twoLoads true, ¬ CallsEvents load.cls := by decide
  obtain ⟨hres, p, hp, hm, -⟩ := loaded_application_observed appJvm rfl rfl
    (hook_run (twoLoads true)) hplain enabledState_serving rfl hr
  exact ⟨hres, t, h, hr, hkinds, p, hp, hm⟩

end Example

end PhasicJ.AgentRt
