import PhasicJ.Daemon.RequestSteps

/-! What a failed `INSERT` does to the other requests. -/

namespace PhasicJ.Daemon

open Sync Transitions

/-- The requests of `s'` are those of `s` that do not fail, and the rows are the same. -/
structure Agrees (fails : ℕ → Bool) (s s' : State) : Prop where
  request : ∀ r, s'.request r = if fails r then none else s.request r
  rows : s'.rows = s.rows

/-- The state `s'` is `s` without the requests that fail. -/
structure Erased (fails : ℕ → Bool) (s s' : State) : Prop extends Agrees fails s s' where
  holder : ∀ r, s'.databaseConnection.holder = some r ↔
    fails r = false ∧ s.databaseConnection.holder = some r
  healthy : s'.databaseConnection.poisoned = false

section Erasing

variable {fails : ℕ → Bool} {s s' u : State} {a : Action} {t : List Action} {r : ℕ}

lemma Erased.free (h : Erased fails s s') (hf : s.databaseConnection.holder = none) :
    s'.databaseConnection.holder = none := by
  rw [Option.eq_none_iff_forall_ne_some]
  intro r hr
  cases hf.symm.trans ((h.holder r).mp hr).2

lemma Agrees.request_eq (h : Agrees fails s s') (hr : fails r = false) :
    s'.request r = s.request r := by
  rw [h.request, hr]
  rfl

lemma Erased.skip (h : Erased fails s s') (ho : s.OrderOk t) (hs : Step s a u)
    (hf : fails a.request = true) (hi : a ≠ .insert a.request) : Erased fails u s' := by
  have hne : ∀ r, fails r = false → r ≠ a.request := by
    rintro r hr rfl
    rw [hf] at hr
    cases hr
  refine ⟨⟨?_, h.rows.trans (hs.rows_eq hi).symm⟩, ?_, h.healthy⟩
  · intro r
    rw [h.request]
    cases hr : fails r with
    | true => rfl
    | false => exact (hs.frame (hne r hr)).symm
  · intro r
    rw [h.holder]
    refine and_congr_right fun hr => ?_
    exact (hs.holder_frame ho (hne r hr)).symm

lemma Agrees.put (h : Agrees fails s s') (hr : fails r = false) {q : Request}
    {m m' : Mutex ℕ (List Row)} (hd : m'.data = m.data) :
    Agrees fails ((s.put r q).setConnection m) ((s'.put r q).setConnection m') := by
  refine ⟨fun x => ?_, hd⟩
  by_cases hx : x = r
  · simp [hx, hr]
  · simpa [hx] using h.request x

lemma Erased.put (h : Erased fails s s') (hr : fails r = false) {q : Request}
    {m m' : Mutex ℕ (List Row)} (hd : m'.data = m.data)
    (hh : ∀ r, m'.holder = some r ↔ fails r = false ∧ m.holder = some r)
    (hp : m'.poisoned = false) :
    Erased fails ((s.put r q).setConnection m) ((s'.put r q).setConnection m') :=
  ⟨h.toAgrees.put hr hd, hh, hp⟩

lemma Erased.step (h : Erased fails s s') (hs : Step s a u) (hf : fails a.request = false)
    (hi : a ≠ .insertFails a.request) (hl : a ≠ .lockPanics a.request) :
    ∃ u', Step s' a u' ∧ Erased fails u u' := by
  have hreq := h.request_eq hf
  cases hs with
  | send hq => exact ⟨_, .send (hreq.trans hq), h.put hf h.rows h.holder h.healthy⟩
  | arrive hq hstage =>
    exact ⟨_, .arrive (hreq.trans hq) hstage, h.put hf h.rows h.holder h.healthy⟩
  | @lock r q m hq hstage hm =>
    refine ⟨_, .lock (hreq.trans hq) hstage ⟨h.free hm.free, h.healthy, rfl⟩,
      h.put hf ?_ ?_ h.healthy⟩
    · exact h.rows.trans hm.data.symm
    · intro x
      rw [hm.holder]
      constructor
      · rintro hx
        obtain rfl := Option.some.inj hx
        exact ⟨hf, rfl⟩
      · exact And.right
  | insert hq hstage =>
    refine ⟨_, .insert (hreq.trans hq) hstage, h.put hf ?_ h.holder h.healthy⟩
    rw [Mutex.write_data, Mutex.write_data, h.rows]
  | unlock hq hstage =>
    refine ⟨_, .unlock (hreq.trans hq) hstage, h.put hf h.rows ?_ h.healthy⟩
    intro x
    simp
  | sendAck hq hstage =>
    exact ⟨_, .sendAck (hreq.trans hq) hstage, h.put hf h.rows h.holder h.healthy⟩
  | deliver hq hstage =>
    exact ⟨_, .deliver (hreq.trans hq) hstage, h.put hf h.rows h.holder h.healthy⟩
  | insertFails => exact absurd rfl hi
  | lockPanics => exact absurd rfl hl

lemma erase_run (h : Run Step .fresh t s) (hf : ∀ r, .insertFails r ∈ t → fails r = true)
    (hi : ∀ r, fails r = true → .insert r ∉ t) (hl : ∀ r, .lockPanics r ∉ t) :
    ∃ s', Run Step .fresh (t.filter fun a => !fails a.request) s' ∧ Erased fails s s' := by
  induction h with
  | nil =>
    refine ⟨.fresh, .nil _, ⟨?_, rfl⟩, ?_, rfl⟩
    · simp [State.fresh]
    · simp [State.fresh, Mutex.new]
  | @snoc s u t a hr hs ih =>
    have hpre : ∀ b, b ∉ t ++ [a] → b ∉ t := fun b hb hin => hb (mem_snoc.mpr (.inl hin))
    obtain ⟨s', hr', he⟩ := ih (fun r hr => hf r (mem_snoc.mpr (.inl hr)))
      (fun r hr => hpre _ (hi r hr)) (fun r => hpre _ (hl r))
    rw [List.filter_append]
    cases hfa : fails a.request with
    | true =>
      refine ⟨s', ?_, he.skip (orderOk_run hr) hs hfa ?_⟩
      · simpa [hfa] using hr'
      · intro ha
        exact hi _ hfa (mem_snoc.mpr (.inr ha))
    | false =>
      obtain ⟨u', hs', he'⟩ := he.step hs hfa
        (fun ha => by
          have := hf _ (mem_snoc.mpr (.inr ha))
          rw [hfa] at this
          cases this)
        (fun ha => hl _ (mem_snoc.mpr (.inr ha)))
      refine ⟨u', ?_, he'⟩
      simpa [hfa] using hr'.snoc hs'

/-- No request is on its way to the connection. -/
def State.Settled (s : State) : Prop :=
  ∀ r q, s.request r = some q → q.stage ≠ .sent ∧ q.stage ≠ .waiting

lemma Step.settled (hs : Step s a u) (ha : a.sends = none) (h : s.Settled) : u.Settled := by
  intro r q hq
  have hst := stage_of_request hq
  by_cases he : r = a.request
  · subst he
    have hsrc := hs.source
    rw [hs.target, Option.some.injEq] at hst
    rw [← hst]
    cases a with
    | send => cases ha
    | arrive =>
      obtain ⟨q', hq', hqs⟩ := Option.map_eq_some_iff.mp hsrc
      exact absurd hqs (h _ q' hq').1
    | _ => exact ⟨by rintro ⟨⟩, by rintro ⟨⟩⟩
  · exact h r q ((hs.frame he) ▸ hq)

lemma settled_run (h : Run Step s t u) (ht : ∀ a ∈ t, a.sends = none) (hset : s.Settled) :
    u.Settled := by
  induction h with
  | nil => exact hset
  | @snoc _ _ t a _ hs ih =>
    have ht' := List.forall_mem_append.mp ht
    exact hs.settled (ht'.2 a (List.mem_singleton_self a)) (ih ht'.1)

/-- What settled requests do needs the mutex no more, so that it may be poisoned in `s`. -/
lemma Agrees.follow (h : Agrees fails s s') {v' : State} (hset : s'.Settled) (hs : Step s' a v')
    (ha : a.sends = none) : ∃ v, Step s a v ∧ Agrees fails v v' := by
  have hlive : ∀ {r q}, s'.request r = some q → fails r = false ∧ s.request r = some q := by
    intro r q hq
    rw [h.request] at hq
    cases hf : fails r with
    | true => simp [hf] at hq
    | false => exact ⟨rfl, by simpa [hf] using hq⟩
  cases hs with
  | send => cases ha
  | arrive hq hst => exact absurd hst (hset _ _ hq).1
  | lock hq hst _ | lockPanics hq hst _ => exact absurd hst (hset _ _ hq).2
  | insert hq hst =>
    obtain ⟨hf, hq⟩ := hlive hq
    refine ⟨_, .insert hq hst, h.put hf ?_⟩
    rw [Mutex.write_data, Mutex.write_data, h.rows]
  | unlock hq hst =>
    obtain ⟨hf, hq⟩ := hlive hq
    exact ⟨_, .unlock hq hst, h.put hf h.rows⟩
  | sendAck hq hst =>
    obtain ⟨hf, hq⟩ := hlive hq
    exact ⟨_, .sendAck hq hst, h.put hf h.rows⟩
  | deliver hq hst =>
    obtain ⟨hf, hq⟩ := hlive hq
    exact ⟨_, .deliver hq hst, h.put hf h.rows⟩
  | insertFails hq hst =>
    obtain ⟨hf, hq⟩ := hlive hq
    exact ⟨_, .insertFails hq hst, h.put hf h.rows⟩

lemma Agrees.follow_run (h : Agrees fails s s') {v' : State} (hset : s'.Settled)
    (hr : Run Step s' t v') (ht : ∀ a ∈ t, a.sends = none) :
    ∃ v, Run Step s t v ∧ Agrees fails v v' := by
  induction hr with
  | nil => exact ⟨s, .nil s, h⟩
  | @snoc _ _ t a hr hs ih =>
    have ht' := List.forall_mem_append.mp ht
    obtain ⟨u, hu, hagrees⟩ := ih ht'.1
    obtain ⟨v, hv, hagrees'⟩ := hagrees.follow (settled_run hr ht'.1 hset) hs
      (ht'.2 a (List.mem_singleton_self a))
    exact ⟨v, hu.snoc hv, hagrees'⟩

end Erasing

/-- An `INSERT` fails only when all other requests of the run have got the connection before. -/
def FailsLast (t : List Action) : Prop :=
  ∀ t₁ t₂ r, t = t₁ ++ .insertFails r :: t₂ → ∀ r' ∈ sents t, r' ≠ r → r' ∈ holders t₁

def failsIn (t : List Action) (r : ℕ) : Bool := .insertFails r ∈ t

/-- A failed `INSERT` affects its own request only: that is neither acknowledged nor recorded. The
run without it gives the same rows and the same other requests, which can go on after it in every
way in which they can without it. Each of them can still be recorded and acknowledged, and has its
row as soon as its own `INSERT` has succeeded, and no handler panics but the one that failed. -/
structure Handled (t : List Action) (s : State) : Prop where
  failed : ∀ r, .insertFails r ∈ t → s.stage r = some .panicked ∧ ∀ row ∈ s.rows, row.request ≠ r
  others : ∃ s', Run Step .fresh (t.filter fun a => !failsIn t a.request) s' ∧ s'.rows = s.rows ∧
    (∀ r, .insertFails r ∉ t → s'.request r = s.request r) ∧
    ∀ b v', Run Step s' b v' → (∀ a ∈ b, a.sends = none) →
      ∃ v, Run Step s b v ∧ v.rows = v'.rows ∧
        ∀ r, .insertFails r ∉ t → v.request r = v'.request r
  live : ∀ r q, s.request r = some q → .insertFails r ∉ t →
    ∃ b v q', Run Step s b v ∧ (∀ a ∈ b, a.isOrdinary = true) ∧ v.request r = some q' ∧
      q'.stage.isAcked ∧ ∃ row ∈ v.rows, row.request = r ∧ row.description = q.description
  succeeded : ∀ r, .insert r ∈ t → ∃ q, s.request r = some q ∧
    ∃ row ∈ s.rows, row.request = r ∧ row.description = q.description
  panics : ∀ r, s.stage r = some .panicked → .insertFails r ∈ t

section Runs

variable {t : List Action} {s : State} {r : ℕ} {q : Request}

lemma failed_of_insertFails (h : Run Step .fresh t s) (hr : .insertFails r ∈ t) :
    s.stage r = some .panicked ∧ ∀ row ∈ s.rows, row.request ≠ r := by
  obtain ⟨hst, -⟩ := (traceOk_run h).failed r hr
  refine ⟨hst, ?_⟩
  rintro row hrow rfl
  obtain ⟨q, hq, hrec⟩ := (tableOk_run h).owned row hrow
  rw [stage_of_request hq, Option.some.injEq] at hst
  rw [hst] at hrec
  cases hrec

lemma succeeded_of_insert (h : Run Step .fresh t s) (hr : .insert r ∈ t) :
    ∃ q, s.request r = some q ∧
      ∃ row ∈ s.rows, row.request = r ∧ row.description = q.description := by
  obtain ⟨stage, hst, hrec⟩ := (traceOk_run h).inserted r hr
  obtain ⟨q, hq, rfl⟩ := Option.map_eq_some_iff.mp hst
  exact ⟨q, hq, (tableOk_run h).recorded r q hq hrec⟩

lemma not_inserted_of_fails (h : Run Step .fresh t s) (hr : failsIn t r = true) :
    .insert r ∉ t := by
  intro hi
  obtain ⟨hst, -⟩ := (traceOk_run h).failed r (of_decide_eq_true hr)
  obtain ⟨stage, hst', hrec⟩ := (traceOk_run h).inserted r hi
  obtain rfl := Option.some.inj (hst.symm.trans hst')
  cases hrec

lemma failed_before_refused (h : Run Step .fresh t s) (hr : .lockPanics r ∈ t) :
    ∃ t₁ t₂ r', t = t₁ ++ .insertFails r' :: t₂ ∧ r' ≠ r ∧ .lockPanics r ∈ t₂ := by
  obtain ⟨x, y, rfl⟩ := List.append_of_mem hr
  obtain ⟨v, _, hv, hs, -⟩ := h.mid_split
  have hsrc := hs.source
  cases hs with
  | lockPanics _ _ hm =>
    obtain ⟨r', hr'⟩ := (traceOk_run hv).poisoned.mp hm.2
    obtain ⟨t₁, t₂, rfl⟩ := List.append_of_mem hr'
    refine ⟨t₁, t₂ ++ .lockPanics r :: y, r', by simp, ?_, by simp⟩
    rintro rfl
    have hst := ((traceOk_run hv).failed r' hr').1
    rw [show Action.request (.lockPanics r') = r' from rfl, hst] at hsrc
    cases hsrc

lemma row_of_acks (h : Run Step .fresh t s) (hq : s.request r = some q) (ha : s.Acks r) :
    ∃ b v q', Run Step s b v ∧ (∀ a ∈ b, a.isOrdinary = true) ∧ v.request r = some q' ∧
      q'.stage.isAcked ∧ ∃ row ∈ v.rows, row.request = r ∧ row.description = q.description := by
  obtain ⟨b, v, stage, hr, hb, hst, hacked⟩ := ha
  obtain ⟨q', hq', rfl⟩ := Option.map_eq_some_iff.mp hst
  have hrec : q'.stage.isRecorded = true := by
    cases hs : q'.stage <;> rw [hs] at hacked <;> first | rfl | cases hacked
  obtain ⟨row, hrow, hrr, hd⟩ := (tableOk_run (h.trans hr)).recorded r q' hq' hrec
  refine ⟨b, v, q', hr, hb, hq', hacked, row, hrow, hrr, hd.trans ?_⟩
  obtain ⟨q'', hq'', hd'⟩ := description_run hr hq
  rw [hq', Option.some.injEq] at hq''
  rw [hq'', hd']

/-- After a failure nobody else gets the connection, so that a request that has not got it before
cannot be acknowledged any more. -/
lemma Handled.failsLast (h : Run Step .fresh t s) (hh : Handled t s) : FailsLast t := by
  rintro t₁ t₂ r rfl r' hsent hne
  have hsplit : t₁ ++ .insertFails r :: t₂ = t₁ ++ [.insertFails r] ++ t₂ := by simp
  have hin : .insertFails r ∈ t₁ ++ [.insertFails r] := by simp
  have hheld : ∀ {b v}, Run Step .fresh (t₁ ++ .insertFails r :: t₂ ++ b) v →
      r' ∈ holders (t₁ ++ .insertFails r :: t₂ ++ b) → r' ∈ holders t₁ := by
    intro b v hv hl
    rw [hsplit, List.append_assoc] at hv hl
    rw [holders, List.filterMap_append, List.mem_append] at hl
    have := hl.resolve_right (not_held_after hv hin)
    rw [List.filterMap_append, List.mem_append] at this
    exact this.resolve_right (by simp [Action.locks])
  by_cases hf : .insertFails r' ∈ t₁ ++ .insertFails r :: t₂
  · refine hheld (b := []) (by rwa [List.append_nil]) ?_
    rw [List.append_nil]
    exact held_of_insertFails h hf
  · obtain ⟨stage, hst⟩ := Option.ne_none_iff_exists'.mp ((mem_sents h).mp hsent)
    obtain ⟨q, hq, -⟩ := Option.map_eq_some_iff.mp hst
    obtain ⟨b, v, q', hr, -, hq', hacked, -⟩ := hh.live r' q hq hf
    refine hheld (h.trans hr) (held_run (h.trans hr) (stage_of_request hq') (.inl ?_))
    cases hs : q'.stage <;> rw [hs] at hacked <;> first | rfl | cases hacked

lemma FailsLast.not_refused (hl : FailsLast t) (h : Run Step .fresh t s) : .lockPanics r ∉ t := by
  intro hr
  have hsent : r ∈ sents t := by
    rw [mem_sents h, (traceOk_run h).refused r hr]
    exact Option.some_ne_none _
  obtain ⟨t₁, t₂, r', rfl, hne, hin⟩ := failed_before_refused h hr
  have hheld := hl t₁ t₂ r' rfl r hsent hne.symm
  obtain ⟨x, y, rfl⟩ := List.append_of_mem hin
  rw [← List.cons_append, ← List.append_assoc] at h
  obtain ⟨v, _, hv, hs, -⟩ := h.mid_split
  -- who has got the connection does not wait for it again
  obtain ⟨q, hq, -, hw⟩ := (orderOk_run hv).held r (by
    rw [mem_holders] at hheld ⊢
    exact List.mem_append_left _ hheld)
  exact hw (Option.some.inj ((stage_of_request hq).symm.trans hs.source))

lemma FailsLast.held (hl : FailsLast t) (h : Run Step .fresh t s) {r' : ℕ}
    (hf : .insertFails r' ∈ t) (hr : .insertFails r ∉ t) (hq : s.request r = some q) :
    q.stage.isRecorded = true ∨ q.stage = .locked := by
  have hst := stage_of_request hq
  have hne : r ≠ r' := by
    rintro rfl
    exact hr hf
  obtain ⟨t₁, t₂, rfl⟩ := List.append_of_mem hf
  have hin := hl t₁ t₂ r' rfl r ((mem_sents h).mpr (hst ▸ Option.some_ne_none _)) hne
  obtain ⟨q', hq', hsent, hwaiting⟩ := (orderOk_run h).held r (by
    rw [mem_holders] at hin ⊢
    exact List.mem_append_left _ hin)
  obtain rfl := Option.some.inj (hq.symm.trans hq')
  have hpanicked : q.stage ≠ .panicked := by
    intro hp
    rcases (traceOk_run h).panicked r (hst.trans (congrArg some hp)) with hin | hin
    · exact hr hin
    · exact hl.not_refused h hin
  cases hs : q.stage with
  | sent => exact absurd hs hsent
  | waiting => exact absurd hs hwaiting
  | panicked => exact absurd hs hpanicked
  | locked => exact .inr rfl
  | _ => exact .inl rfl

lemma FailsLast.live (hl : FailsLast t) (h : Run Step .fresh t s) (hr : .insertFails r ∉ t)
    (hq : s.request r = some q) : s.Acks r := by
  have hst := stage_of_request hq
  have hpoisoned := (traceOk_run h).poisoned
  by_cases hf : ∃ r', .insertFails r' ∈ t
  · obtain ⟨r', hr'⟩ := hf
    exact acks_held hst (hl.held h hr' hr hq)
  · refine acks_healthy h hst (by simpa [hf] using hpoisoned) ?_
    intro hp
    rcases (traceOk_run h).panicked r (hst.trans (congrArg some hp)) with hin | hin
    · exact hr hin
    · exact hl.not_refused h hin

lemma FailsLast.others (hl : FailsLast t) (h : Run Step .fresh t s) :
    ∃ s', Run Step .fresh (t.filter fun a => !failsIn t a.request) s' ∧ s'.rows = s.rows ∧
      (∀ r, .insertFails r ∉ t → s'.request r = s.request r) ∧
      ∀ b v', Run Step s' b v' → (∀ a ∈ b, a.sends = none) →
        ∃ v, Run Step s b v ∧ v.rows = v'.rows ∧
          ∀ r, .insertFails r ∉ t → v.request r = v'.request r := by
  by_cases hf : ∃ r', .insertFails r' ∈ t
  · obtain ⟨r', hr'⟩ := hf
    have hfails : ∀ r, .insertFails r ∈ t → failsIn t r = true := fun r => decide_eq_true
    obtain ⟨s', hr, he⟩ := erase_run h hfails (fun r => not_inserted_of_fails h)
      fun r => hl.not_refused h
    have hset : s'.Settled := by
      intro r q hq
      rw [he.request] at hq
      cases hfr : failsIn t r with
      | true => simp [hfr] at hq
      | false =>
        rw [hfr] at hq
        have hheld := hl.held h hr' (of_decide_eq_false hfr) hq
        constructor
        · intro hs
          simp [hs, Stage.isRecorded] at hheld
        · intro hs
          simp [hs, Stage.isRecorded] at hheld
    refine ⟨s', hr, he.rows, fun r hr => he.request_eq (decide_eq_false hr), ?_⟩
    intro b v' hb hsends
    obtain ⟨v, hv, hagrees⟩ := he.toAgrees.follow_run hset hb hsends
    exact ⟨v, hv, hagrees.rows.symm, fun r hr => (hagrees.request_eq (decide_eq_false hr)).symm⟩
  · push Not at hf
    have hall : (t.filter fun a => !failsIn t a.request) = t :=
      List.filter_eq_self.mpr fun a _ => by simp [failsIn, hf]
    exact ⟨s, by rwa [hall], rfl, fun _ _ => rfl, fun b v hb _ => ⟨v, hb, rfl, fun _ _ => rfl⟩⟩

/-- Failed inserts affect their own requests only in exactly the runs in which none fails before
all other requests have got the connection. -/
theorem failed_insert_isolated (h : Run Step .fresh t s) : Handled t s ↔ FailsLast t := by
  constructor
  · exact Handled.failsLast h
  · intro hl
    refine ⟨fun r => failed_of_insertFails h, hl.others h, fun r q hq hr => ?_,
      fun r => succeeded_of_insert h, fun r hr => ?_⟩
    · exact row_of_acks h hq (hl.live h hr hq)
    · exact ((traceOk_run h).panicked r hr).resolve_right (hl.not_refused h)

end Runs

section Example

lemma send_two : Run Step .fresh [.send 0 0, .send 1 1]
    ((State.fresh.put 0 ⟨"first", .sent⟩).put 1 ⟨"second", .sent⟩) := by
  have h₀ : Step .fresh (.send 0 0) (State.fresh.put 0 ⟨"first", .sent⟩) := .send rfl
  exact .cons h₀ (.single (.send rfl))

lemma failsLast_snoc {t : List Action} {r : ℕ} (hn : ∀ r', .insertFails r' ∉ t)
    (hr : ∀ r' ∈ sents t, r' ≠ r → r' ∈ holders t) : FailsLast (t ++ [.insertFails r]) := by
  intro t₁ t₂ r₀ ht r' hsent hne
  rcases trace_snoc_cases ht with ⟨rfl, ⟨⟩⟩ | ⟨t₃, rfl⟩
  · exact hr r' (by simpa [sents_snoc, Action.sends] using hsent) hne
  · exact absurd (List.mem_append_right t₁ List.mem_cons_self) (hn r₀)

/-- The `INSERT` of the second request fails when the first one has its row but not its ack. -/
def lateFailure : List Action :=
  [.send 0 0, .send 1 1, .arrive 0, .arrive 1, .lock 0, .insert 0, .unlock 0, .lock 1] ++
    [.insertFails 1]

lemma late_failure_run : ∃ s, Run Step .fresh lateFailure s ∧
    s.stage 0 = some .unlocked ∧ s.stage 1 = some .panicked :=
  ⟨_, (send_two.trans (.cons (.arrive rfl rfl) (.cons (.arrive rfl rfl)
    (.cons (.lock rfl rfl ⟨rfl, rfl, rfl⟩) (.cons (.insert rfl rfl) (.cons (.unlock rfl rfl)
      (.single (.lock rfl rfl ⟨rfl, rfl, rfl⟩)))))))).snoc (.insertFails rfl rfl), rfl, rfl⟩

theorem failed_insert_isolated_late : ∃ s, Run Step .fresh lateFailure s ∧
    s.stage 0 = some .unlocked ∧ s.stage 1 = some .panicked ∧ Handled lateFailure s := by
  obtain ⟨s, hr, h₀, h₁⟩ := late_failure_run
  exact ⟨s, hr, h₀, h₁, (failed_insert_isolated hr).mpr (failsLast_snoc (by simp) (by decide))⟩

/-- The first `INSERT` fails while the second request waits for the connection. -/
def earlyFailure : List Action :=
  [.send 0 0, .send 1 1, .arrive 0, .arrive 1, .lock 0, .insertFails 0]

lemma early_failure_run : ∃ s, Run Step .fresh earlyFailure s ∧
    s.request 1 = some ⟨"second", .waiting⟩ ∧ s.databaseConnection.LockFails :=
  ⟨_, send_two.trans (.cons (.arrive rfl rfl) (.cons (.arrive rfl rfl)
    (.cons (.lock rfl rfl ⟨rfl, rfl, rfl⟩) (.single (.insertFails rfl rfl))))), rfl, rfl, rfl⟩

theorem failed_insert_spreads : ∃ s, Run Step .fresh earlyFailure s ∧ ¬ Handled earlyFailure s ∧
    s.stage 1 = some .waiting ∧ ∃ u, Step s (.lockPanics 1) u := by
  obtain ⟨s, hr, hq, hl⟩ := early_failure_run
  refine ⟨s, hr, fun hh => ?_, stage_of_request hq, _, .lockPanics hq rfl hl⟩
  have hheld := hh.failsLast hr [.send 0 0, .send 1 1, .arrive 0, .arrive 1, .lock 0] [] 0 rfl 1
    (by decide) (by decide)
  exact absurd hheld (by decide)

end Example

end PhasicJ.Daemon
