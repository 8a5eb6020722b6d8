import PhasicJ.Daemon.Replay

/-! The daemon on the worker threads of its runtime, which its handlers block. -/

namespace PhasicJ.Daemon

open Sync Transitions

/-- The requests whose handlers have a worker thread. -/
structure Runtime where
  recorder : State
  running : List ℕ

def Runtime.fresh : Runtime := ⟨.fresh, []⟩

namespace Action

def keepsWorker : Action → Bool
  | lock _ | insert _ | unlock _ => true
  | _ => false

def freesWorker : Action → Bool
  | sendAck _ | insertFails _ | lockPanics _ => true
  | _ => false

end Action

/-- A handler awaits nothing, so that it keeps its worker until it returns or panics. -/
inductive RuntimeStep (workers : ℕ) : Runtime → Action → Runtime → Prop
  | client {w : Runtime} {a : Action} {u : State} :
      a.ofServer = false → Step w.recorder a u →
      RuntimeStep workers w a { w with recorder := u }
  | starts {w : Runtime} {r : ℕ} {u : State} :
      w.running.length < workers → Step w.recorder (.arrive r) u →
      RuntimeStep workers w (.arrive r) ⟨u, r :: w.running⟩
  | runs {w : Runtime} {a : Action} {u : State} :
      a.keepsWorker = true → a.request ∈ w.running → Step w.recorder a u →
      RuntimeStep workers w a { w with recorder := u }
  | ends {w : Runtime} {a : Action} {u : State} :
      a.freesWorker = true → a.request ∈ w.running → Step w.recorder a u →
      RuntimeStep workers w a ⟨u, w.running.erase a.request⟩

def Stage.isHandled : Stage → Bool
  | waiting | locked | inserted | unlocked => true
  | _ => false

structure Runtime.Ok (w : Runtime) : Prop where
  running : ∀ r, r ∈ w.running ↔ ∃ stage, w.recorder.stage r = some stage ∧ stage.isHandled = true
  once : w.running.Nodup

section Invariant

variable {workers : ℕ} {w v : Runtime} {a : Action} {t : List Action} {r : ℕ}

lemma RuntimeStep.recorder (hs : RuntimeStep workers w a v) : Step w.recorder a v.recorder := by
  cases hs <;> assumption

lemma recorder_run (h : Run (RuntimeStep workers) w t v) : Run Step w.recorder t v.recorder := by
  induction h with
  | nil => exact .nil _
  | snoc _ hs ih => exact ih.snoc hs.recorder

lemma RuntimeStep.running_frame (hs : RuntimeStep workers w a v) (h : r ≠ a.request) :
    r ∈ v.running ↔ r ∈ w.running := by
  cases hs with
  | client | runs => rfl
  | starts =>
    change r ∈ _ :: w.running ↔ _
    rw [List.mem_cons]
    exact or_iff_right h
  | ends => exact List.mem_erase_of_ne h

lemma RuntimeStep.running_iff (hs : RuntimeStep workers w a v) (hd : w.running.Nodup)
    (hok : a.request ∈ w.running ↔ ∃ stage, a.source = some stage ∧ stage.isHandled = true) :
    a.request ∈ v.running ↔ a.target.isHandled = true := by
  cases hs with
  | client ha =>
    cases a with
    | send client r =>
      exact iff_of_false (fun h => by simpa [Action.source] using hok.mp h) Bool.false_ne_true
    | deliver r =>
      refine iff_of_false (fun h => ?_) Bool.false_ne_true
      obtain ⟨_, he, hh⟩ := hok.mp h
      cases he
      cases hh
    | _ => cases ha
  | starts => exact iff_of_true List.mem_cons_self rfl
  | runs ha hr => cases a <;> first | exact absurd ha Bool.false_ne_true | exact iff_of_true hr rfl
  | ends ha =>
    have hn : a.request ∉ w.running.erase a.request := hd.not_mem_erase
    cases a <;> first | exact absurd ha Bool.false_ne_true | exact iff_of_false hn Bool.false_ne_true

lemma Runtime.Ok.step (hok : w.Ok) (hs : RuntimeStep workers w a v) : v.Ok := by
  have hstep := hs.recorder
  refine ⟨fun r => ?_, ?_⟩
  · by_cases he : r = a.request
    · subst he
      have hw := hok.running a.request
      rw [hstep.source] at hw
      rw [hstep.target, hs.running_iff hok.once hw]
      simp
    · rw [hs.running_frame he, hstep.stage_frame he]
      exact hok.running r
  · cases hs with
    | client | runs => exact hok.once
    | ends => exact hok.once.erase _
    | @starts r u hlt hstep =>
      refine List.nodup_cons.mpr ⟨fun hr => ?_, hok.once⟩
      obtain ⟨stage, hst, hh⟩ := (hok.running r).mp hr
      have hsrc := hstep.source
      rw [show Action.request (.arrive r) = r from rfl, hst] at hsrc
      obtain rfl := Option.some.inj hsrc
      cases hh

lemma runtime_ok (h : Run (RuntimeStep workers) .fresh t w) : w.Ok := by
  refine h.invariant Runtime.Ok (fun _ _ _ hu hs => hu.step hs) ⟨fun r => ?_, List.nodup_nil⟩
  simp [Runtime.fresh, State.fresh, State.stage]

end Invariant

section Left

variable {s u : State} {a : Action} {t : List Action} {r : ℕ} {l : List ℕ}

def State.left (s : State) (r : ℕ) : ℕ := ((s.stage r).map Stage.left).getD 0

lemma Step.left_frame (hs : Step s a u) (h : r ≠ a.request) : u.left r = s.left r := by
  rw [State.left, hs.stage_frame h, State.left]

lemma Step.left_lt (hs : Step s a u) (ha : a.sends = none) :
    u.left a.request < s.left a.request := by
  rw [State.left, State.left, hs.target, hs.source]
  cases a with
  | send => cases ha
  | _ => simp [Action.source, Action.target, Stage.left]

lemma sum_frame (hs : Step s a u) (h : a.request ∉ l) : (l.map u.left).sum = (l.map s.left).sum := by
  refine congrArg List.sum (List.map_congr_left fun r hr => hs.left_frame ?_)
  rintro rfl
  exact h hr

lemma sum_lt (hs : Step s a u) (ha : a.sends = none) (hd : l.Nodup) (h : a.request ∈ l) :
    (l.map u.left).sum < (l.map s.left).sum := by
  have hframe := sum_frame hs hd.not_mem_erase
  have hlt := hs.left_lt ha
  rw [← List.sum_map_erase _ h, ← List.sum_map_erase s.left h]
  omega

structure State.SentOk (t : List Action) (s : State) : Prop where
  mem : ∀ r, r ∈ sents t ↔ s.stage r ≠ none
  once : (sents t).Nodup
  left : t.length + ((sents t).map s.left).sum ≤ 7 * (sents t).length

lemma State.SentOk.step (h : s.SentOk t) (hs : Step s a u) : u.SentOk (t ++ [a]) := by
  have hstage : ∀ r, u.stage r ≠ none ↔ r = a.request ∨ s.stage r ≠ none := by
    intro r
    by_cases he : r = a.request
    · simp [he, hs.target]
    · simp [he, hs.stage_frame he]
  have hmem := h.mem a.request
  rw [hs.source] at hmem
  cases hsend : a.sends with
  | none =>
    have hin : a.request ∈ sents t := hmem.mpr (Action.source_ne_none hsend)
    have hsents : sents (t ++ [a]) = sents t := by simp [sents_snoc, hsend]
    have hlt := sum_lt hs hsend h.once hin
    have := h.left
    refine ⟨fun r => ?_, hsents ▸ h.once, ?_⟩
    · rw [hsents, hstage, h.mem, or_iff_right_of_imp]
      rintro rfl
      exact (h.mem _).mp hin
    · rw [hsents, List.length_append, List.length_singleton]
      omega
  | some r =>
    obtain ⟨client, rfl⟩ : ∃ client, a = .send client r := by
      cases a <;> cases hsend
      exact ⟨_, rfl⟩
    have hnot : r ∉ sents t := fun hr => hmem.mp hr rfl
    have hsents : sents (t ++ [.send client r]) = sents t ++ [r] := sents_snoc ..
    have hnew : u.left r = 6 := by
      rw [State.left, show u.stage r = some .sent from hs.target]
      rfl
    have := h.left
    refine ⟨fun r' => ?_, ?_, ?_⟩
    · rw [hsents, hstage, List.mem_append, List.mem_singleton, h.mem, or_comm]
      rfl
    · rw [hsents]
      exact h.once.append (List.nodup_singleton r) (by simpa using hnot)
    · rw [hsents, List.map_append, List.sum_append, List.length_append, List.length_append,
        sum_frame hs hnot, List.map_singleton, List.sum_singleton, hnew]
      simp only [List.length_singleton]
      omega

lemma sentOk_run (h : Run Step .fresh t s) : s.SentOk t := by
  refine Run.trace_invariant (fun t s => s.SentOk t) (fun _ _ _ _ hu hs => hu.step hs) h ?_
  constructor <;> simp [State.fresh, State.stage, sents]

end Left

section Progress

variable {workers : ℕ} {w v : Runtime} {s : State} {a : Action} {t : List Action} {r : ℕ}

def Stage.isDone : Stage → Bool
  | delivered | panicked => true
  | _ => false

/-- The holder of the connection can go on, and it is free for a handler if nobody holds it. -/
lemma handler_can_step (h : Run (RuntimeStep workers) .fresh t w) {stage : Stage}
    (hst : w.recorder.stage r = some stage) (hh : stage.isHandled = true) :
    ∃ a v, a.isOrdinary = true ∧ RuntimeStep workers w a v := by
  have hok := runtime_ok h
  have holder : ∀ r stage, w.recorder.stage r = some stage → stage.holdsConnection = true →
      ∃ a v, a.isOrdinary = true ∧ RuntimeStep workers w a v := by
    intro r stage hst hc
    have hr : r ∈ w.running := (hok.running r).mpr ⟨stage, hst, by cases stage <;> trivial⟩
    obtain ⟨q, hq, rfl⟩ := Option.map_eq_some_iff.mp hst
    cases hstage : q.stage with
    | locked => exact ⟨.insert r, _, rfl, .runs rfl hr (.insert hq hstage)⟩
    | inserted => exact ⟨.unlock r, _, rfl, .runs rfl hr (.unlock hq hstage)⟩
    | _ => rw [hstage] at hc; cases hc
  have hr : r ∈ w.running := (hok.running r).mpr ⟨stage, hst, hh⟩
  obtain ⟨q, hq, hqs⟩ := Option.map_eq_some_iff.mp hst
  cases stage with
  | locked | inserted => exact holder r _ hst rfl
  | unlocked => exact ⟨.sendAck r, _, rfl, .ends rfl hr (.sendAck hq hqs)⟩
  | waiting =>
    cases hholder : w.recorder.databaseConnection.holder with
    | some r' =>
      obtain ⟨stage, hst', hc⟩ := holder_run (recorder_run h) r' hholder
      exact holder r' stage hst' hc
    | none =>
      cases hp : w.recorder.databaseConnection.poisoned with
      | false => exact ⟨.lock r, _, rfl, .runs rfl hr (.lock hq hqs ⟨hholder, hp, rfl⟩)⟩
      | true => exact ⟨.lockPanics r, _, rfl, .ends rfl hr (.lockPanics hq hqs ⟨hholder, hp⟩)⟩
  | _ => cases hh

lemma request_can_step (hw : 0 < workers) (h : Run (RuntimeStep workers) .fresh t w) {stage : Stage}
    (hst : w.recorder.stage r = some stage) (hd : stage.isDone = false) :
    ∃ a v, a.isOrdinary = true ∧ RuntimeStep workers w a v := by
  obtain ⟨q, hq, hqs⟩ := Option.map_eq_some_iff.mp hst
  cases hrun : w.running with
  | cons r' _ =>
    obtain ⟨stage, hst', hh⟩ := ((runtime_ok h).running r').mp (hrun ▸ List.mem_cons_self)
    exact handler_can_step h hst' hh
  | nil =>
    cases stage with
    | sent => exact ⟨.arrive r, _, rfl, .starts (by rw [hrun]; exact hw) (.arrive hq hqs)⟩
    | acked => exact ⟨.deliver r, _, rfl, .client rfl (.deliver hq hqs)⟩
    | delivered | panicked => cases hd
    | _ => exact handler_can_step h hst rfl

lemma run_until_done (hw : 0 < workers) (h : Run (RuntimeStep workers) .fresh t w) :
    ∃ t' v, Run (RuntimeStep workers) w t' v ∧ (∀ a ∈ t', a.isOrdinary = true) ∧
      ∀ r stage, v.recorder.stage r = some stage → stage.isDone = true := by
  have hgo : ∀ v, (∃ t', Run (RuntimeStep workers) .fresh t' v ∧ sents t' = sents t) →
      ¬ (∀ r stage, v.recorder.stage r = some stage → stage.isDone = true) →
      ∃ a u, a.isOrdinary = true ∧ RuntimeStep workers v a u ∧
        (∃ t', Run (RuntimeStep workers) .fresh t' u ∧ sents t' = sents t) ∧
        ((sents t).map u.recorder.left).sum < ((sents t).map v.recorder.left).sum := by
    rintro v ⟨t', hr, ht'⟩ hn
    push Not at hn
    obtain ⟨r, stage, hst, hd⟩ := hn
    obtain ⟨a, u, ha, hs⟩ := request_can_step hw hr hst (by simpa using hd)
    have hsent := sentOk_run (recorder_run hr)
    have hin : a.request ∈ sents t' := by
      rw [hsent.mem, hs.recorder.source]
      exact Action.source_ne_none (Action.isOrdinary.sends ha)
    refine ⟨a, u, ha, hs, ⟨_, hr.snoc hs, ?_⟩, ?_⟩
    · rw [sents_snoc, Action.isOrdinary.sends ha, ht']
      exact List.append_nil _
    · rw [← ht']
      exact sum_lt hs.recorder (Action.isOrdinary.sends ha) hsent.once hin
  obtain ⟨t', v, hr, ht', -, hv⟩ := Run.until_goal
    (fun v : Runtime => ((sents t).map v.recorder.left).sum) hgo ⟨t, h, rfl⟩
  exact ⟨t', v, hr, ht', hv⟩

lemma panicked_after (h : Run Step .fresh t s) (hst : s.stage r = some .panicked) :
    ∃ r', .insertFails r' ∈ t := by
  rcases (traceOk_run h).panicked r hst with hr | hr
  · exact ⟨r, hr⟩
  · obtain ⟨t₁, t₂, r', rfl, -⟩ := failed_before_refused h hr
    exact ⟨r', by simp⟩

/-- Handlers that wait for the connection block their workers, but one worker is enough for all
requests to end, since no handler awaits anything while it holds the connection. Together `n`
requests take at most `7 * n` steps, and no handler panics unless an `INSERT` has failed. -/
theorem workers_suffice (hw : 0 < workers) (h : Run (RuntimeStep workers) .fresh t w) :
    t.length ≤ 7 * (sents t).length ∧
    (∀ r stage, w.recorder.stage r = some stage → stage.isDone = false →
      ∃ a v, a.isOrdinary = true ∧ RuntimeStep workers w a v) ∧
    ∃ t' v, Run (RuntimeStep workers) w t' v ∧ (∀ a ∈ t', a.isOrdinary = true) ∧
      v.running = [] ∧ ∀ r ∈ sents t, v.recorder.stage r = some .delivered ∨
        (v.recorder.stage r = some .panicked ∧ ∃ r', .insertFails r' ∈ t) := by
  refine ⟨?_, fun r stage hst hd => request_can_step hw h hst hd, ?_⟩
  · have := (sentOk_run (recorder_run h)).left
    omega
  obtain ⟨t', v, hr, ht', hdone⟩ := run_until_done hw h
  have hv := recorder_run (h.trans hr)
  refine ⟨t', v, hr, ht', ?_, fun r hin => ?_⟩
  · rw [List.eq_nil_iff_forall_not_mem]
    intro r hin
    obtain ⟨stage, hst, hh⟩ := ((runtime_ok (h.trans hr)).running r).mp hin
    have hd := hdone r stage hst
    cases stage <;> first | exact Bool.false_ne_true hh | exact Bool.false_ne_true hd
  · have hsent : r ∈ sents (t ++ t') := by
      rw [sents, List.filterMap_append]
      exact List.mem_append_left _ hin
    obtain ⟨stage, hst⟩ := Option.ne_none_iff_exists'.mp (((sentOk_run hv).mem r).mp hsent)
    have hd := hdone r stage hst
    cases stage with
    | delivered => exact .inl hst
    | panicked =>
      obtain ⟨r', hr'⟩ := panicked_after hv hst
      refine .inr ⟨hst, r', (List.mem_append.mp hr').resolve_right fun hin => ?_⟩
      cases ht' _ hin
    | _ => cases hd

end Progress

section Example

theorem workers_suffice_two : ∃ t w, Run (RuntimeStep 1) .fresh t w ∧
    w.recorder.stage 0 = some .locked ∧ w.recorder.stage 1 = some .sent ∧
    ∃ t' v, Run (RuntimeStep 1) w t' v ∧ v.recorder.stage 1 = some .delivered := by
  have h₀ : Step State.fresh (.send 0 0) (State.fresh.put 0 ⟨"first", .sent⟩) := .send rfl
  have h₁ : Step (State.fresh.put 0 ⟨"first", .sent⟩) (.send 1 1)
      ((State.fresh.put 0 ⟨"first", .sent⟩).put 1 ⟨"second", .sent⟩) := .send rfl
  have hr : Run (RuntimeStep 1) .fresh [.send 0 0, .send 1 1, .arrive 0, .lock 0] _ :=
    .cons (.client rfl h₀) (.cons (.client rfl h₁) (.cons (.starts one_pos (.arrive rfl rfl))
      (.single (.runs rfl List.mem_cons_self (.lock rfl rfl ⟨rfl, rfl, rfl⟩)))))
  obtain ⟨t', v, hr', -, -, hdone⟩ := (workers_suffice one_pos hr).2.2
  refine ⟨_, _, hr, rfl, rfl, t', v, hr', (hdone 1 (by decide)).resolve_right ?_⟩
  simp

end Example

end PhasicJ.Daemon
