import PhasicJ.Daemon.RecordedOnce

/-! What the steps of a request change, and how a request ends as long as nothing fails. -/

namespace PhasicJ.Daemon

open Sync Transitions

namespace Action

def request : Action → ℕ
  | send _ r | arrive r | lock r | insert r | unlock r | sendAck r | deliver r | insertFails r
  | lockPanics r => r

def source : Action → Option Stage
  | send _ _ => none
  | arrive _ => some .sent
  | lock _ | lockPanics _ => some .waiting
  | insert _ | insertFails _ => some .locked
  | unlock _ => some .inserted
  | sendAck _ => some .unlocked
  | deliver _ => some .acked

def target : Action → Stage
  | send _ _ => .sent
  | arrive _ => .waiting
  | lock _ => .locked
  | insert _ => .inserted
  | unlock _ => .unlocked
  | sendAck _ => .acked
  | deliver _ => .delivered
  | insertFails _ | lockPanics _ => .panicked

def sends : Action → Option ℕ
  | send _ r => some r
  | _ => none

/-- What goes on when the clients send nothing new and SQLite has no failures. -/
def isOrdinary : Action → Bool
  | send _ _ | insertFails _ => false
  | _ => true

lemma isOrdinary.sends {a : Action} (h : a.isOrdinary = true) : a.sends = none := by
  cases a <;> first | rfl | cases h

lemma source_ne_none {a : Action} (h : a.sends = none) : a.source ≠ none := by
  cases a with
  | send => cases h
  | _ => nofun

end Action

def sents (t : List Action) : List ℕ := t.filterMap Action.sends

lemma sents_snoc (t : List Action) (a : Action) : sents (t ++ [a]) = sents t ++ a.sends.toList := by
  cases h : a.sends <;> simp [sents, List.filterMap_append, h]

def State.stage (s : State) (r : ℕ) : Option Stage := (s.request r).map Request.stage

section Steps

variable {s u : State} {a : Action} {t : List Action} {r : ℕ}

lemma stage_of_request {q : Request} (hq : s.request r = some q) : s.stage r = some q.stage := by
  rw [State.stage, hq, Option.map_some]

lemma Step.source (hs : Step s a u) : s.stage a.request = a.source := by
  cases hs with
  | send h => simp [State.stage, Action.request, Action.source, h]
  | arrive h hq | unlock h hq | sendAck h hq | deliver h hq | insert h hq | insertFails h hq
  | lock h hq _ | lockPanics h hq _ =>
    simp [State.stage, Action.request, Action.source, h, hq]

lemma Step.target (hs : Step s a u) : u.stage a.request = some a.target := by
  cases hs <;> simp [State.stage, Action.request, Action.target]

lemma Step.frame (hs : Step s a u) (h : r ≠ a.request) : u.request r = s.request r := by
  cases hs <;> (simp only [Action.request] at h; simp [h])

lemma Step.stage_frame (hs : Step s a u) (h : r ≠ a.request) : u.stage r = s.stage r := by
  rw [State.stage, hs.frame h, State.stage]

lemma Step.poisoned (hs : Step s a u) : u.databaseConnection.poisoned =
    (s.databaseConnection.poisoned || a = .insertFails a.request) := by
  cases hs with
  | insertFails => simp [State.setConnection, Mutex.poison, Action.request]
  | lock _ _ hm => simp [State.setConnection, hm.poisoned, hm.2.1]
  | _ => simp [State.setConnection, State.put, Mutex.unlock, Mutex.write]

lemma Step.rows_eq (hs : Step s a u) (h : a ≠ .insert a.request) : u.rows = s.rows := by
  cases hs with
  | insert => exact absurd rfl h
  | lock _ _ hm => exact hm.data
  | _ => rfl

lemma Step.holder_frame (hs : Step s a u) (ho : s.OrderOk t) (h : r ≠ a.request) :
    u.databaseConnection.holder = some r ↔ s.databaseConnection.holder = some r := by
  cases hs with
  | lock _ _ hm =>
    refine iff_of_false (fun hr => ?_) (fun hr => ?_)
    · exact h (Option.some.inj (hm.holder.symm.trans hr)).symm
    · cases hm.free.symm.trans hr
  | unlock hq hstage | insertFails hq hstage =>
    have hold := ho.holds _ _ hq (by rw [hstage]; rfl)
    refine iff_of_false nofun (fun hr => ?_)
    exact h (Option.some.inj (hold.symm.trans hr)).symm
  | _ => rfl

lemma Step.description (hs : Step s a u) (ha : a.source ≠ none) :
    (u.request a.request).map Request.description =
      (s.request a.request).map Request.description := by
  cases hs with
  | send => exact absurd rfl ha
  | arrive h _ | unlock h _ | sendAck h _ | deliver h _ | insert h _ | insertFails h _
  | lock h _ _ | lockPanics h _ _ => simp [Action.request, h]

end Steps

structure State.TraceOk (t : List Action) (s : State) : Prop where
  inserted : ∀ r, .insert r ∈ t → ∃ stage, s.stage r = some stage ∧ stage.isRecorded
  failed : ∀ r, .insertFails r ∈ t → s.stage r = some .panicked ∧ .lockPanics r ∉ t
  refused : ∀ r, .lockPanics r ∈ t → s.stage r = some .panicked
  panicked : ∀ r, s.stage r = some .panicked → .insertFails r ∈ t ∨ .lockPanics r ∈ t
  poisoned : s.databaseConnection.poisoned = true ↔ ∃ r, .insertFails r ∈ t

section Traces

variable {s u : State} {a : Action} {t : List Action} {r : ℕ}

lemma mem_snoc {b : Action} : b ∈ t ++ [a] ↔ b ∈ t ∨ a = b := by
  rw [List.mem_append, List.mem_singleton, eq_comm]

lemma Step.stays_panicked (hs : Step s a u) (h : s.stage r = some .panicked) : r ≠ a.request := by
  rintro rfl
  have hsrc := hs.source
  rw [h] at hsrc
  cases a <;> cases hsrc

lemma Step.stays_recorded {stage : Stage} (hs : Step s a u) (h : s.stage r = some stage)
    (hrec : stage.isRecorded) : ∃ stage', u.stage r = some stage' ∧ stage'.isRecorded := by
  by_cases he : r = a.request
  · subst he
    have hsrc := hs.source
    rw [h] at hsrc
    refine ⟨a.target, hs.target, ?_⟩
    cases a <;> cases hsrc <;> first | rfl | cases hrec
  · exact ⟨stage, (hs.stage_frame he).trans h, hrec⟩

lemma State.TraceOk.step (h : s.TraceOk t) (hs : Step s a u) : u.TraceOk (t ++ [a]) := by
  refine ⟨?_, ?_, ?_, ?_, ?_⟩
  · intro r hr
    rcases mem_snoc.mp hr with hr | rfl
    · obtain ⟨stage, hst, hrec⟩ := h.inserted r hr
      exact hs.stays_recorded hst hrec
    · exact ⟨.inserted, hs.target, rfl⟩
  · intro r hr
    rcases mem_snoc.mp hr with hr | rfl
    · obtain ⟨hst, hn⟩ := h.failed r hr
      have hne := hs.stays_panicked hst
      refine ⟨(hs.stage_frame hne).trans hst, fun hl => ?_⟩
      rcases mem_snoc.mp hl with hl | rfl
      · exact hn hl
      · exact hne rfl
    · refine ⟨hs.target, fun hl => ?_⟩
      rcases mem_snoc.mp hl with hl | hl
      · exact hs.stays_panicked (h.refused r hl) rfl
      · cases hl
  · intro r hr
    rcases mem_snoc.mp hr with hr | rfl
    · have hst := h.refused r hr
      exact (hs.stage_frame (hs.stays_panicked hst)).trans hst
    · exact hs.target
  · intro r hr
    rw [mem_snoc, mem_snoc]
    by_cases he : r = a.request
    · subst he
      have htgt := hs.target
      rw [hr] at htgt
      cases a <;> first | exact .inl (.inr rfl) | exact .inr (.inr rfl) | cases htgt
    · rw [hs.stage_frame he] at hr
      exact (h.panicked r hr).imp .inl .inl
  · rw [hs.poisoned, Bool.or_eq_true, h.poisoned, decide_eq_true_eq]
    constructor
    · rintro (⟨r, hr⟩ | ha)
      · exact ⟨r, mem_snoc.mpr (.inl hr)⟩
      · exact ⟨a.request, mem_snoc.mpr (.inr ha)⟩
    · rintro ⟨r, hr⟩
      rcases mem_snoc.mp hr with hr | rfl
      · exact .inl ⟨r, hr⟩
      · exact .inr rfl

lemma traceOk_run (h : Run Step .fresh t s) : s.TraceOk t := by
  refine Run.trace_invariant (fun t s => s.TraceOk t) (fun _ _ _ _ hu hs => hu.step hs) h ?_
  constructor <;> simp [State.fresh, State.stage, Mutex.new]

lemma mem_sents (h : Run Step .fresh t s) : r ∈ sents t ↔ s.stage r ≠ none := by
  induction h with
  | nil => simp [sents, State.stage, State.fresh]
  | @snoc s u t a _ hs ih =>
    rw [sents_snoc, List.mem_append, ih]
    by_cases he : r = a.request
    · subst he
      rw [hs.target, hs.source]
      cases a <;> simp [Action.sends, Action.source, Action.request]
    · rw [hs.stage_frame he, or_iff_left]
      cases a with
      | send client r' => simpa [Action.sends, Action.request, eq_comm] using he
      | _ => simp [Action.sends]

lemma holder_run (h : Run Step .fresh t s) :
    ∀ r, s.databaseConnection.holder = some r →
      ∃ stage, s.stage r = some stage ∧ stage.holdsConnection = true := by
  induction h with
  | nil => intro r hr; cases hr
  | @snoc s u t a hrun hs ih =>
    intro r hr
    by_cases he : r = a.request
    · subst he
      have hsrc := hs.source
      have htgt := hs.target
      cases hs with
      | lock | insert => exact ⟨_, htgt, rfl⟩
      | unlock | insertFails => cases hr
      | _ =>
        obtain ⟨stage, hst, hold⟩ := ih _ hr
        rw [hst] at hsrc
        cases hsrc <;> cases hold
    · obtain ⟨stage, hst, hold⟩ := ih r ((hs.holder_frame (orderOk_run hrun) he).mp hr)
      exact ⟨stage, (hs.stage_frame he).trans hst, hold⟩

lemma description_run {q : Request} (h : Run Step s t u) (hq : s.request r = some q) :
    ∃ q', u.request r = some q' ∧ q'.description = q.description := by
  induction h with
  | nil => exact ⟨q, hq, rfl⟩
  | @snoc _ _ t a _ hs ih =>
    obtain ⟨q', hq', hd⟩ := ih
    by_cases he : r = a.request
    · subst he
      have hsrc := (stage_of_request hq').symm.trans hs.source
      have hdescr := hs.description (hsrc ▸ Option.some_ne_none _)
      rw [hq'] at hdescr
      obtain ⟨q'', hq'', hd'⟩ := Option.map_eq_some_iff.mp hdescr
      exact ⟨q'', hq'', hd'.trans hd⟩
    · exact ⟨q', (hs.frame he).trans hq', hd⟩

lemma mem_holders : r ∈ holders t ↔ .lock r ∈ t := by
  rw [holders, List.mem_filterMap]
  constructor
  · rintro ⟨a, ha, hl⟩
    cases a <;> cases hl
    exact ha
  · exact fun h => ⟨_, h, rfl⟩

lemma held_run (h : Run Step .fresh t s) {stage : Stage} (hst : s.stage r = some stage)
    (hp : stage.isRecorded = true ∨ stage = .locked) : r ∈ holders t := by
  induction h generalizing stage with
  | nil => cases hst
  | @snoc s u t a _ hs ih =>
    rw [holders_snoc, List.mem_append]
    by_cases he : r = a.request
    · subst he
      have hsrc := hs.source
      rw [hs.target] at hst
      obtain rfl := Option.some.inj hst
      cases a with
      | lock => exact .inr (List.mem_singleton_self _)
      | insert => exact .inl (ih hsrc (.inr rfl))
      | unlock | sendAck | deliver => exact .inl (ih hsrc (.inl rfl))
      | _ => simp [Action.target, Stage.isRecorded] at hp
    · exact .inl (ih ((hs.stage_frame he).symm.trans hst) hp)

lemma held_of_insertFails (h : Run Step .fresh t s) (hf : .insertFails r ∈ t) : r ∈ holders t := by
  obtain ⟨t₁, t₂, rfl⟩ := List.append_of_mem hf
  obtain ⟨v, _, hv, hs, -⟩ := h.mid_split
  have := held_run hv hs.source (.inr rfl)
  rw [mem_holders] at this ⊢
  exact List.mem_append_left _ this

/-- Nobody gets the connection once the mutex is poisoned. -/
lemma not_held_after {t₁ t₂ : List Action} {r' : ℕ} (h : Run Step .fresh (t₁ ++ t₂) s)
    (hf : .insertFails r' ∈ t₁) : r ∉ holders t₂ := by
  rw [mem_holders]
  intro hl
  obtain ⟨x, y, rfl⟩ := List.append_of_mem hl
  rw [← List.append_assoc] at h
  obtain ⟨v, _, hv, hs, -⟩ := h.mid_split
  have hp : v.databaseConnection.poisoned = true :=
    (traceOk_run hv).poisoned.mpr ⟨r', List.mem_append_left _ hf⟩
  cases hs with
  | lock _ _ hm =>
    rw [hm.2.1] at hp
    cases hp

end Traces

/-- The request can be acknowledged if nothing is sent and nothing fails. -/
def State.Acks (s : State) (r : ℕ) : Prop :=
  ∃ t v stage, Run Step s t v ∧ (∀ a ∈ t, a.isOrdinary = true) ∧ v.stage r = some stage ∧
    stage.isAcked = true

section Progress

variable {s u : State} {a : Action} {t : List Action} {r : ℕ} {stage : Stage}

lemma Step.acks (hs : Step s a u) (ha : a.isOrdinary = true) (h : u.Acks r) : s.Acks r := by
  obtain ⟨t, v, stage, hr, ht, hst, hacked⟩ := h
  exact ⟨a :: t, v, stage, .cons hs hr, List.forall_mem_cons.mpr ⟨ha, ht⟩, hst, hacked⟩

lemma acks_acked (hst : s.stage r = some stage) (ha : stage.isAcked = true) : s.Acks r :=
  ⟨[], s, stage, .nil s, by simp, hst, ha⟩

lemma acks_unlocked (hst : s.stage r = some .unlocked) : s.Acks r := by
  obtain ⟨q, hq, hqs⟩ := Option.map_eq_some_iff.mp hst
  have hs := Step.sendAck hq hqs
  exact hs.acks rfl (acks_acked hs.target rfl)

lemma acks_inserted (hst : s.stage r = some .inserted) : s.Acks r := by
  obtain ⟨q, hq, hqs⟩ := Option.map_eq_some_iff.mp hst
  have hs := Step.unlock hq hqs
  exact hs.acks rfl (acks_unlocked hs.target)

lemma acks_locked (hst : s.stage r = some .locked) : s.Acks r := by
  obtain ⟨q, hq, hqs⟩ := Option.map_eq_some_iff.mp hst
  have hs := Step.insert hq hqs
  exact hs.acks rfl (acks_inserted hs.target)

lemma acks_held (hst : s.stage r = some stage)
    (hp : stage.isRecorded = true ∨ stage = .locked) : s.Acks r := by
  cases stage with
  | locked => exact acks_locked hst
  | inserted => exact acks_inserted hst
  | unlocked => exact acks_unlocked hst
  | acked | delivered => exact acks_acked hst rfl
  | _ => simp [Stage.isRecorded] at hp

lemma acks_free (hst : s.stage r = some .waiting) (hf : s.databaseConnection.holder = none)
    (hp : s.databaseConnection.poisoned = false) : s.Acks r := by
  obtain ⟨q, hq, hqs⟩ := Option.map_eq_some_iff.mp hst
  have hs := Step.lock hq hqs ⟨hf, hp, rfl⟩
  exact hs.acks rfl (acks_locked hs.target)

/-- The holder of the connection first lets go of it. -/
lemma acks_waiting (h : Run Step .fresh t s) (hst : s.stage r = some .waiting)
    (hp : s.databaseConnection.poisoned = false) : s.Acks r := by
  have hinserted : ∀ {s : State} {r' : ℕ}, s.stage r' = some .inserted →
      s.stage r = some .waiting → s.databaseConnection.poisoned = false → s.Acks r := by
    intro s r' hst' hst hp
    obtain ⟨q, hq, hqs⟩ := Option.map_eq_some_iff.mp hst'
    have hs := Step.unlock hq hqs
    have hne : r ≠ r' := by
      rintro rfl
      cases hst.symm.trans hst'
    exact hs.acks rfl (acks_free ((hs.stage_frame hne).trans hst) rfl hp)
  cases hholder : s.databaseConnection.holder with
  | none => exact acks_free hst hholder hp
  | some r' =>
    obtain ⟨stage, hst', hold⟩ := holder_run h r' hholder
    have hne : r ≠ r' := by
      rintro rfl
      obtain rfl := Option.some.inj (hst.symm.trans hst')
      cases hold
    cases stage with
    | inserted => exact hinserted hst' hst hp
    | locked =>
      obtain ⟨q, hq, hqs⟩ := Option.map_eq_some_iff.mp hst'
      have hs := Step.insert hq hqs
      exact hs.acks rfl (hinserted hs.target ((hs.stage_frame hne).trans hst) hp)
    | _ => cases hold

lemma acks_healthy (h : Run Step .fresh t s) (hst : s.stage r = some stage)
    (hp : s.databaseConnection.poisoned = false) (hn : stage ≠ .panicked) : s.Acks r := by
  cases stage with
  | sent =>
    obtain ⟨q, hq, hqs⟩ := Option.map_eq_some_iff.mp hst
    have hs := Step.arrive hq hqs
    exact hs.acks rfl (acks_waiting (h.snoc hs) hs.target hp)
  | waiting => exact acks_waiting h hst hp
  | panicked => exact absurd rfl hn
  | locked => exact acks_held hst (.inr rfl)
  | _ => exact acks_held hst (.inl rfl)

end Progress

end PhasicJ.Daemon
