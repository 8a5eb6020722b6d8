import PhasicJ.Daemon.FailedInsert

/-! The client that replays a recording to a daemon with a fresh database. -/

namespace PhasicJ.Daemon

open Sync Transitions

inductive Phase where
  | ready | awaiting | finished | stopped
  deriving DecidableEq

/-- The replay client, with the descriptions that it has not read yet, where `none` is `NULL`, and
the number of its calls; and the daemon that only it calls. -/
structure Replay where
  rteventsIter : List (Option String)
  calls : ℕ
  phase : Phase
  daemon : State

inductive ReplayAction where
  | call (r : ℕ) | undecodable | finish | handle (a : Action) | acked (r : ℕ) | fails
  deriving DecidableEq

def selectDescriptions (rows : List Row) : List (Option String) :=
  rows.map fun row => some row.description

def Replay.start (rows : List Row) : Replay := ⟨selectDescriptions rows, 0, .ready, .fresh⟩

def Action.ofServer : Action → Bool
  | .send _ _ | .deliver _ => false
  | _ => true

/-- A call may fail at any moment before its ack is there; then, as after a description that cannot
be decoded, the client stops. -/
inductive ReplayStep : Replay → ReplayAction → Replay → Prop
  | call {w : Replay} {description : String} {rest : List (Option String)} :
      w.phase = .ready → w.rteventsIter = some description :: rest →
      w.daemon.request w.calls = none →
      ReplayStep w (.call w.calls)
        ⟨rest, w.calls + 1, .awaiting, w.daemon.put w.calls ⟨description, .sent⟩⟩
  | undecodable {w : Replay} {rest : List (Option String)} :
      w.phase = .ready → w.rteventsIter = none :: rest →
      ReplayStep w .undecodable { w with rteventsIter := rest, phase := .stopped }
  | finish {w : Replay} :
      w.phase = .ready → w.rteventsIter = [] →
      ReplayStep w .finish { w with phase := .finished }
  | handle {w : Replay} {a : Action} {daemon' : State} :
      a.ofServer = true → Step w.daemon a daemon' →
      ReplayStep w (.handle a) { w with daemon := daemon' }
  | acked {w : Replay} {daemon' : State} :
      w.phase = .awaiting → Step w.daemon (.deliver (w.calls - 1)) daemon' →
      ReplayStep w (.acked (w.calls - 1)) { w with phase := .ready, daemon := daemon' }
  | fails {w : Replay} :
      w.phase = .awaiting → ReplayStep w .fails { w with phase := .stopped }

namespace ReplayAction

def daemonAction : ReplayAction → Option Action
  | call r => some (.send 0 r)
  | handle a => some a
  | acked r => some (.deliver r)
  | undecodable | finish | fails => none

/-- The call fails for the client, or its handler panics. -/
def rpcFails : ReplayAction → Bool
  | fails | handle (.insertFails _) | handle (.lockPanics _) => true
  | _ => false

end ReplayAction

section Ids

lemma foldr_max_range (n b : ℕ) : (List.range' 1 n).foldr max b = max n b := by
  induction n generalizing b with
  | zero => simp
  | succ n ih =>
    rw [List.range'_1_concat, List.foldr_append, List.foldr_cons, List.foldr_nil, ih]
    omega

lemma nextId_range {rows : List Row} (h : rows.map Row.id = List.range' 1 rows.length) :
    nextId rows = rows.length + 1 := by
  rw [nextId, h, foldr_max_range, Nat.max_zero]

lemma ids_run {t : List Action} {s : State} (h : Run Step .fresh t s) :
    s.rows.map Row.id = List.range' 1 s.rows.length := by
  refine h.invariant (fun s => s.rows.map Row.id = List.range' 1 s.rows.length) ?_ rfl
  intro s a u hi hs
  by_cases ha : a = .insert a.request
  · rw [ha] at hs
    cases hs with
    | insert hq hstage =>
      rw [State.setConnection_rows, Mutex.write_data, List.map_append, hi, List.length_append,
        List.map_singleton, List.length_singleton, nextId_range hi, List.range'_1_concat,
        Nat.add_comm 1]
  · rw [hs.rows_eq ha]
    exact hi

end Ids

section Requests

variable {s u : State} {a : Action} {t : List Action} {r : ℕ}

lemma Step.recorded_iff (hs : Step s a u) (hi : a ≠ .insert a.request) :
    (∃ stage, u.stage r = some stage ∧ stage.isRecorded = true) ↔
      ∃ stage, s.stage r = some stage ∧ stage.isRecorded = true := by
  by_cases he : r = a.request
  · subst he
    rw [hs.target, hs.source]
    cases a with
    | insert r => exact absurd rfl hi
    | _ => simp [Action.source, Action.target, Stage.isRecorded]
  · rw [hs.stage_frame he]

lemma recorded_inserted (h : Run Step .fresh t s) {stage : Stage} (hst : s.stage r = some stage)
    (hrec : stage.isRecorded = true) : .insert r ∈ t := by
  induction h generalizing stage with
  | nil => cases hst
  | @snoc s u t a hrun hs ih =>
    rw [mem_snoc]
    by_cases he : r = a.request
    · subst he
      have hsrc := hs.source
      have htgt := hs.target
      rw [hst] at htgt
      obtain rfl := Option.some.inj htgt
      cases a with
      | insert => exact .inr rfl
      | unlock | sendAck | deliver => exact .inl (ih hsrc rfl)
      | _ => cases hrec
    · exact .inl (ih ((hs.stage_frame he).symm.trans hst) hrec)

end Requests

/-- The daemon has copied the descriptions so far: of `calls` calls all but the last were answered,
and the rows are those of the calls whose `INSERT` was executed. -/
structure Copied (ds : List String) (calls : ℕ) (s : State) : Prop where
  made : ∀ r, r < calls → ∃ stage, s.stage r = some stage
  request : ∀ r q, s.request r = some q → r < calls ∧ ds[r]? = some q.description
  earlier : ∀ r, r + 1 < calls → s.stage r = some .delivered
  rows : s.rows.map Row.description = ds.take s.rows.length
  recorded : ∀ r, r < s.rows.length ↔ ∃ stage, s.stage r = some stage ∧ stage.isRecorded = true

section Copying

variable {ds : List String} {calls r : ℕ} {s u : State} {a : Action}

lemma Copied.stage_lt (h : Copied ds calls s) {stage : Stage} (hst : s.stage r = some stage) :
    r < calls := by
  obtain ⟨q, hq, -⟩ := Option.map_eq_some_iff.mp hst
  exact (h.request r q hq).1

lemma Copied.length_le (h : Copied ds calls s) : s.rows.length ≤ calls := by
  by_contra hn
  obtain ⟨stage, hst, -⟩ := (h.recorded calls).mp (by omega)
  exact absurd (h.stage_lt hst) (by omega)

lemma Copied.le_length (h : Copied ds calls s) : calls - 1 ≤ s.rows.length := by
  by_contra hn
  have hst := h.earlier s.rows.length (by omega)
  exact absurd ((h.recorded s.rows.length).mpr ⟨_, hst, rfl⟩) (by omega)

lemma Copied.active (h : Copied ds calls s) (hs : Step s a u) (ha : a.source ≠ none) :
    a.request + 1 = calls := by
  obtain ⟨stage, hst⟩ := Option.ne_none_iff_exists'.mp ha
  have hlt := h.stage_lt (hs.source.trans hst)
  by_contra hn
  have hd := h.earlier a.request (by omega)
  rw [hs.source] at hd
  cases a <;> cases hd

lemma Copied.inserts (h : Copied ds calls s) (hs : Step s a u) (hi : a = .insert a.request) :
    a.request = s.rows.length ∧ ∃ row, u.rows = s.rows ++ [row] ∧
      (s.request a.request).map Request.description = some row.description := by
  have hact := h.active hs (by rw [hi]; nofun)
  have hle := h.le_length
  have hn : ¬ a.request < s.rows.length := by
    intro hlt
    obtain ⟨stage, hst, hrec⟩ := (h.recorded _).mp hlt
    rw [hs.source, hi] at hst
    obtain rfl := Option.some.inj hst
    cases hrec
  refine ⟨by omega, ?_⟩
  cases hs with
  | insert hq _ => exact ⟨_, rfl, by simp [Action.request, hq]⟩
  | _ => cases hi

lemma Copied.step (h : Copied ds calls s) (hs : Step s a u) (ha : a.source ≠ none) :
    Copied ds calls u := by
  -- the step is one of the last call, so all calls before it keep their stage
  have hact := h.active hs ha
  refine ⟨?_, ?_, ?_, ?_, ?_⟩
  · intro r hr
    by_cases he : r = a.request
    · exact ⟨_, he ▸ hs.target⟩
    · rw [hs.stage_frame he]
      exact h.made r hr
  · intro r q hq
    by_cases he : r = a.request
    · subst he
      have hd := hs.description ha
      rw [hq] at hd
      obtain ⟨q', hq', hd'⟩ := Option.map_eq_some_iff.mp hd.symm
      exact ⟨by omega, hd' ▸ (h.request _ q' hq').2⟩
    · exact h.request r q ((hs.frame he) ▸ hq)
  · intro r hr
    rw [hs.stage_frame (by omega)]
    exact h.earlier r hr
  · by_cases hi : a = .insert a.request
    · obtain ⟨hlen, row, hrow, hd⟩ := h.inserts hs hi
      obtain ⟨q, hq, hqd⟩ := Option.map_eq_some_iff.mp hd
      rw [hrow, List.map_append, h.rows, List.length_append, List.length_singleton,
        List.take_add_one, ← hlen, (h.request _ q hq).2, hqd]
      rfl
    · rw [hs.rows_eq hi]
      exact h.rows
  · intro r
    by_cases hi : a = .insert a.request
    · obtain ⟨hlen, row, hrow, -⟩ := h.inserts hs hi
      rw [hrow, List.length_append, List.length_singleton, ← hlen]
      by_cases he : r = a.request
      · have htgt := hs.target
        rw [hi] at htgt
        exact iff_of_true (by omega) ⟨_, he ▸ htgt, rfl⟩
      · rw [hs.stage_frame he, ← h.recorded r, ← hlen]
        omega
    · rw [hs.rows_eq hi, hs.recorded_iff hi]
      exact h.recorded r

lemma Copied.call (h : Copied ds calls s)
    (hd : ∀ r, r < calls → s.stage r = some .delivered) {description : String}
    (hds : ds[calls]? = some description) :
    Copied ds (calls + 1) (s.put calls ⟨description, .sent⟩) := by
  have hstage : ∀ r, r ≠ calls → (s.put calls ⟨description, .sent⟩).stage r = s.stage r := by
    intro r hr
    simp [State.stage, hr]
  have hnew : (s.put calls ⟨description, .sent⟩).stage calls = some .sent := by
    simp [State.stage]
  refine ⟨?_, ?_, ?_, h.rows, ?_⟩
  · intro r hr
    by_cases he : r = calls
    · exact ⟨.sent, he ▸ hnew⟩
    · rw [hstage r he]
      exact h.made r (by omega)
  · intro r q hq
    by_cases he : r = calls
    · obtain rfl : Request.mk description .sent = q := by simpa [he] using hq
      exact ⟨by omega, he ▸ hds⟩
    · obtain ⟨hlt, hds'⟩ := h.request r q (by simpa [he] using hq)
      exact ⟨by omega, hds'⟩
  · intro r hr
    rw [hstage r (by omega)]
    exact hd r (by omega)
  · intro r
    rw [State.put_rows]
    by_cases he : r = calls
    · subst he
      rw [hnew]
      have hle := h.length_le
      refine iff_of_false (by omega) ?_
      rintro ⟨stage, hst, hrec⟩
      obtain rfl := Option.some.inj hst
      cases hrec
    · rw [hstage r he]
      exact h.recorded r

end Copying

structure Replay.Ok (ds : List String) (t : List ReplayAction) (w : Replay) : Prop where
  iter : w.rteventsIter = (ds.drop w.calls).map some
  calls : w.calls ≤ ds.length
  copied : Copied ds w.calls w.daemon
  answered : w.phase = .ready ∨ w.phase = .finished →
    ∀ r, r < w.calls → w.daemon.stage r = some .delivered
  awaiting : w.phase = .awaiting →
    0 < w.calls ∧ w.daemon.stage (w.calls - 1) ≠ some .delivered
  finished : w.phase = .finished → w.calls = ds.length
  stopped : w.phase = .stopped → 0 < w.calls ∧ .fails ∈ t

section Replaying

variable {ds : List String} {w v : Replay} {e : ReplayAction} {t : List ReplayAction}

lemma Action.ofServer_source {a : Action} (h : a.ofServer = true) :
    a.source ≠ none ∧ a.source ≠ some .delivered ∧ a.target ≠ .delivered := by
  cases a with
  | send | deliver => cases h
  | _ => exact ⟨nofun, nofun, nofun⟩

lemma drop_map_some {calls : ℕ} {description : String} {rest : List (Option String)}
    (h : some description :: rest = (ds.drop calls).map some) :
    ds[calls]? = some description ∧ rest = (ds.drop (calls + 1)).map some := by
  obtain ⟨first, later, hd, hf, rfl⟩ := List.map_eq_cons_iff.mp h.symm
  obtain rfl := Option.some.inj hf
  rw [← List.head?_drop, ← List.tail_drop, hd]
  exact ⟨rfl, rfl⟩

lemma Replay.Ok.busy (h : w.Ok ds t) {a : Action} {s : State} (ha : a.ofServer = true)
    (hs : Step w.daemon a s) : ¬ (w.phase = .ready ∨ w.phase = .finished) := by
  intro hp
  obtain ⟨hsrc, hne, -⟩ := Action.ofServer_source ha
  have hact := h.copied.active hs hsrc
  have hd := h.answered hp a.request (by omega)
  exact hne (hs.source.symm.trans hd)

lemma Replay.Ok.step (h : w.Ok ds t) (hs : ReplayStep w e v) : v.Ok ds (t ++ [e]) := by
  cases hs with
  | @call description rest hp hi hq =>
    rw [h.iter] at hi
    obtain ⟨hds, rfl⟩ := drop_map_some hi.symm
    have hlt : w.calls < ds.length := (List.getElem?_eq_some_iff.mp hds).1
    refine ⟨rfl, hlt, h.copied.call (h.answered (.inl hp)) hds, ?_, ?_, by rintro ⟨⟩, by rintro ⟨⟩⟩
    · rintro (hp | hp) <;> cases hp
    · intro _
      simp [State.stage]
  | undecodable hp hi =>
    rw [h.iter] at hi
    obtain ⟨_, _, -, hn, -⟩ := List.map_eq_cons_iff.mp hi
    cases hn
  | finish hp hi =>
    have hd : ds.drop w.calls = [] := List.map_eq_nil_iff.mp (h.iter.symm.trans hi)
    have hle := List.drop_eq_nil_iff.mp hd
    exact ⟨h.iter, h.calls, h.copied, fun _ => h.answered (.inl hp), by rintro ⟨⟩,
      fun _ => le_antisymm h.calls hle, by rintro ⟨⟩⟩
  | @handle a s ha hs =>
    obtain ⟨hsrc, -, htgt⟩ := Action.ofServer_source ha
    have hbusy := h.busy ha hs
    have hact := h.copied.active hs hsrc
    refine ⟨h.iter, h.calls, h.copied.step hs hsrc, fun hp => absurd hp hbusy, ?_,
      fun hp => absurd (.inr hp) hbusy, ?_⟩
    · intro hp
      refine ⟨(h.awaiting hp).1, fun hd => htgt ?_⟩
      have hr : w.calls - 1 = a.request := by omega
      exact Option.some.inj ((hr ▸ hs.target).symm.trans hd)
    · intro hp
      obtain ⟨hpos, hf⟩ := h.stopped hp
      exact ⟨hpos, List.mem_append_left _ hf⟩
  | @acked s hp hs =>
    have hsrc : (Action.deliver (w.calls - 1)).source ≠ none := Option.some_ne_none _
    have hact := h.copied.active hs hsrc
    refine ⟨h.iter, h.calls, h.copied.step hs hsrc, fun _ r hr => ?_, by rintro ⟨⟩,
      by rintro ⟨⟩, by rintro ⟨⟩⟩
    by_cases he : r = w.calls - 1
    · rw [he]
      exact hs.target
    · exact (hs.stage_frame he).trans (h.copied.earlier r (by have : r < w.calls := hr; omega))
  | fails hp =>
    refine ⟨h.iter, h.calls, h.copied, ?_, by rintro ⟨⟩, by rintro ⟨⟩,
      fun _ => ⟨(h.awaiting hp).1, List.mem_append_right _ (List.mem_singleton_self _)⟩⟩
    rintro (hp | hp) <;> cases hp

lemma replay_ok {rows : List Row} (h : Run ReplayStep (.start rows) t w) :
    w.Ok (rows.map Row.description) t := by
  refine Run.trace_invariant (fun t w => w.Ok (rows.map Row.description) t)
    (fun _ _ _ _ hu hs => hu.step hs) h ?_
  refine ⟨?_, Nat.zero_le _, ?_, fun _ r hr => absurd hr (Nat.not_lt_zero r), by rintro ⟨⟩,
    by rintro ⟨⟩, by rintro ⟨⟩⟩
  · simp [Replay.start, selectDescriptions]
  · constructor <;> simp [Replay.start, State.fresh, State.stage, State.rows, Mutex.new]

lemma daemon_run (h : Run ReplayStep w t v) :
    Run Step w.daemon (t.filterMap ReplayAction.daemonAction) v.daemon := by
  induction h with
  | nil => exact .nil _
  | @snoc u v t e _ hs ih =>
    rw [List.filterMap_append]
    cases hs with
    | call _ _ hq => exact ih.snoc (.send hq)
    | handle _ hs => exact ih.snoc hs
    | acked _ hs => exact ih.snoc hs
    | _ => exact (List.append_nil _).symm ▸ ih

def Stage.left : Stage → ℕ
  | sent => 6
  | waiting => 5
  | locked => 4
  | inserted => 3
  | unlocked => 2
  | acked => 1
  | delivered | panicked => 0

def Replay.left (w : Replay) : ℕ :=
  7 * w.rteventsIter.length + ((w.daemon.stage (w.calls - 1)).map Stage.left).getD 0 +
    if w.phase = .finished then 0 else 1

lemma Action.left_source {a : Action} (ha : a.source ≠ none)
    (hf : (ReplayAction.handle a).rpcFails = false) :
    (a.source.map Stage.left).getD 0 = a.target.left + 1 := by
  cases a with
  | send => exact absurd rfl ha
  | insertFails | lockPanics => cases hf
  | _ => rfl

lemma Replay.Ok.left_daemon (h : w.Ok ds t) {a : Action} {s : State} (hs : Step w.daemon a s)
    (ha : a.source ≠ none) (hf : (ReplayAction.handle a).rpcFails = false) :
    ((w.daemon.stage (w.calls - 1)).map Stage.left).getD 0 =
      ((s.stage (w.calls - 1)).map Stage.left).getD 0 + 1 := by
  have hact := h.copied.active hs ha
  have hr : w.calls - 1 = a.request := by omega
  rw [hr, hs.source, hs.target, Action.left_source ha hf]
  rfl

lemma Replay.Ok.left_answered (h : w.Ok ds t) (hp : w.phase = .ready) :
    ((w.daemon.stage (w.calls - 1)).map Stage.left).getD 0 = 0 := by
  rcases Nat.eq_zero_or_pos w.calls with hz | hpos
  · have hn : w.daemon.stage (w.calls - 1) = none := by
      rw [Option.eq_none_iff_forall_ne_some]
      intro stage hst
      have := h.copied.stage_lt hst
      omega
    rw [hn]
    rfl
  · rw [h.answered (.inl hp) _ (by omega)]
    rfl

lemma Replay.Ok.left_step (h : w.Ok ds t) (hs : ReplayStep w e v) (hf : e.rpcFails = false) :
    w.left = v.left + 1 := by
  cases hs with
  | @call description rest hp hi hq =>
    have hst : (w.daemon.put w.calls ⟨description, .sent⟩).stage w.calls = some .sent := by
      simp [State.stage]
    rw [Replay.left, Replay.left, h.left_answered hp, hi, hp, Nat.add_sub_cancel, hst]
    simp [Stage.left]
    omega
  | undecodable hp hi =>
    rw [h.iter] at hi
    obtain ⟨_, _, -, hn, -⟩ := List.map_eq_cons_iff.mp hi
    cases hn
  | finish hp hi =>
    rw [Replay.left, Replay.left, hp]
    simp
  | handle ha hs =>
    rw [Replay.left, Replay.left, h.left_daemon hs (Action.ofServer_source ha).1 hf]
    simp only
    omega
  | acked hp hs =>
    rw [Replay.left, Replay.left, h.left_daemon hs (Option.some_ne_none _) rfl, hp]
    simp
    omega
  | fails => cases hf

lemma run_left {rows : List Row} (h : Run ReplayStep (.start rows) t w)
    (hf : ∀ e ∈ t, e.rpcFails = false) : t.length + w.left = 7 * rows.length + 1 := by
  induction h with
  | nil => simp [Replay.left, Replay.start, selectDescriptions, State.fresh, State.stage]
  | @snoc u v t e hr hs ih =>
    have hstep := (replay_ok hr).left_step hs (hf e (List.mem_append_right _ (by simp)))
    have := ih fun e he => hf e (List.mem_append_left _ he)
    rw [List.length_append, List.length_singleton]
    omega

end Replaying

section Progress

variable {rows : List Row} {w : Replay} {t : List ReplayAction}

lemma mem_daemonActions {a : Action} (ha : a.ofServer = true)
    (h : a ∈ t.filterMap ReplayAction.daemonAction) : .handle a ∈ t := by
  obtain ⟨e, he, hd⟩ := List.mem_filterMap.mp h
  cases e with
  | handle b =>
    obtain rfl := Option.some.inj hd
    exact he
  | call r | acked r =>
    obtain rfl := Option.some.inj hd
    cases ha
  | _ => cases hd

/-- All handlers but that of the last call are done, so no other one holds the mutex. -/
lemma Replay.Ok.connection_free {ds : List String} {t' : List Action} (h : w.Ok ds t)
    (hrun : Run Step .fresh t' w.daemon) (hst : w.daemon.stage (w.calls - 1) = some .waiting) :
    w.daemon.databaseConnection.holder = none := by
  rw [Option.eq_none_iff_forall_ne_some]
  intro r hr
  obtain ⟨stage, hst', hold⟩ := holder_run hrun r hr
  have hlt := h.copied.stage_lt hst'
  by_cases he : r = w.calls - 1
  · rw [he, hst] at hst'
    obtain rfl := Option.some.inj hst'
    cases hold
  · have hd := h.copied.earlier r (by omega)
    rw [hst'] at hd
    obtain rfl := Option.some.inj hd
    cases hold

lemma replay_progress (h : Run ReplayStep (.start rows) t w) (hf : ∀ e ∈ t, e.rpcFails = false)
    (hp : w.phase ≠ .finished) : ∃ e v, ReplayStep w e v ∧ e.rpcFails = false := by
  have hok := replay_ok h
  have hrun := daemon_run h
  have htrace := traceOk_run hrun
  have hinsert : ∀ r, .insertFails r ∉ t.filterMap ReplayAction.daemonAction := fun r hr =>
    Bool.true_eq_false.mp (hf _ (mem_daemonActions rfl hr))
  have hlock : ∀ r, .lockPanics r ∉ t.filterMap ReplayAction.daemonAction := fun r hr =>
    Bool.true_eq_false.mp (hf _ (mem_daemonActions rfl hr))
  cases hphase : w.phase with
  | finished => exact absurd hphase hp
  | stopped => exact absurd (hf _ (hok.stopped hphase).2) (by decide)
  | ready =>
    cases hi : w.rteventsIter with
    | nil => exact ⟨_, _, .finish hphase hi, rfl⟩
    | cons first rest =>
      rw [hok.iter] at hi
      obtain ⟨description, later, -, rfl, -⟩ := List.map_eq_cons_iff.mp hi
      refine ⟨_, _, .call hphase (hok.iter.trans hi) ?_, rfl⟩
      rw [Option.eq_none_iff_forall_ne_some]
      intro q hq
      exact absurd (hok.copied.request _ q hq).1 (by omega)
  | awaiting =>
    obtain ⟨hpos, hnd⟩ := hok.awaiting hphase
    obtain ⟨stage, hst⟩ := hok.copied.made (w.calls - 1) (by omega)
    obtain ⟨q, hq, hqs⟩ := Option.map_eq_some_iff.mp hst
    cases stage with
    | sent => exact ⟨_, _, .handle rfl (.arrive hq hqs), rfl⟩
    | waiting =>
      have hfree := hok.connection_free hrun hst
      have hhealthy : w.daemon.databaseConnection.poisoned = false := by
        rw [Bool.eq_false_iff]
        intro hpo
        obtain ⟨r, hr⟩ := htrace.poisoned.mp hpo
        exact hinsert r hr
      exact ⟨_, _, .handle rfl (.lock hq hqs ⟨hfree, hhealthy, rfl⟩), rfl⟩
    | locked => exact ⟨_, _, .handle rfl (.insert hq hqs), rfl⟩
    | inserted => exact ⟨_, _, .handle rfl (.unlock hq hqs), rfl⟩
    | unlocked => exact ⟨_, _, .handle rfl (.sendAck hq hqs), rfl⟩
    | acked => exact ⟨_, _, .acked hphase (.deliver hq hqs), rfl⟩
    | delivered => exact absurd hst hnd
    | panicked => exact ((htrace.panicked _ hst).elim (hinsert _) (hlock _)).elim

end Progress

section Replays

variable {t₀ : List Action} {old : State} {t : List ReplayAction} {w : Replay}

lemma row_pairs {rows rows' : List Row} (hi : rows.map Row.id = rows'.map Row.id)
    (hd : rows.map Row.description = rows'.map Row.description) :
    rows.map (fun row => (row.id, row.description)) =
      rows'.map (fun row => (row.id, row.description)) := by
  have hzip : ∀ rows : List Row, rows.map (fun row => (row.id, row.description)) =
      (rows.map Row.id).zip (rows.map Row.description) := by
    intro rows
    exact List.zip_map'.symm
  rw [hzip, hzip, hi, hd]

lemma Replay.Ok.reproduces {ds : List String} (h : w.Ok ds t) (hp : w.phase = .finished) :
    w.daemon.rows.map Row.description = ds ∧ w.daemon.rows.length = ds.length := by
  have hcalls := h.finished hp
  have hlen : w.daemon.rows.length = ds.length := by
    refine le_antisymm (hcalls ▸ h.copied.length_le) ?_
    by_contra hn
    have hst := h.answered (.inr hp) w.daemon.rows.length (by omega)
    exact absurd ((h.copied.recorded _).mpr ⟨_, hst, rfl⟩) (by omega)
  refine ⟨?_, hlen⟩
  rw [h.copied.rows, hlen, List.take_length]

lemma Replay.Ok.interrupted {ds : List String} (h : w.Ok ds t) (hp : w.phase = .stopped)
    (hn : ∀ stage, w.daemon.stage (w.calls - 1) = some stage → stage.isRecorded = false) :
    w.daemon.rows.length = w.calls - 1 := by
  have hpos := (h.stopped hp).1
  have hge := h.copied.le_length
  refine le_antisymm ?_ hge
  by_contra hlt
  obtain ⟨stage, hst, hrec⟩ := (h.copied.recorded (w.calls - 1)).mp (by omega)
  rw [hn stage hst] at hrec
  cases hrec

lemma stopped_step {e : ReplayAction} {v : Replay} (hp : w.phase = .stopped)
    (hs : ReplayStep w e v) : v.phase = .stopped ∧ v.calls = w.calls := by
  cases hs with
  | handle => exact ⟨hp, rfl⟩
  | call h | undecodable h | finish h | acked h | fails h => cases hp.symm.trans h

lemma Replay.Ok.panicked_step {ds : List String} (h : w.Ok ds t) (hp : w.phase = .awaiting)
    (hst : w.daemon.stage (w.calls - 1) = some .panicked) {e : ReplayAction} {v : Replay}
    (hs : ReplayStep w e v) : e = .fails := by
  cases hs with
  | fails => rfl
  | @handle a s ha hs =>
    have hact := h.copied.active hs (Action.ofServer_source ha).1
    exact absurd (by omega) (hs.stays_panicked hst)
  | acked _ hs => exact absurd rfl (hs.stays_panicked hst)
  | call h | undecodable h | finish h => cases hp.symm.trans h

/-- A replay in which no call fails ends, with the same ids and descriptions; one whose last call
fails before the `INSERT` stops with the rows before it. -/
theorem replay_reproduces (h₀ : Run Step .fresh t₀ old) (h : Run ReplayStep (.start old.rows) t w) :
    (w.phase = .finished → w.daemon.rows.map (fun row => (row.id, row.description)) =
      old.rows.map (fun row => (row.id, row.description))) ∧
    ((∀ e ∈ t, e.rpcFails = false) → t.length ≤ 7 * old.rows.length + 1 ∧
      (w.phase = .finished ∨ ∃ e v, ReplayStep w e v ∧ e.rpcFails = false)) ∧
    (w.phase = .stopped → .handle (.insert (w.calls - 1)) ∉ t →
      w.daemon.rows.map (fun row => (row.id, row.description)) =
        (old.rows.map (fun row => (row.id, row.description))).take (w.calls - 1) ∧
      w.daemon.rows.length = w.calls - 1) ∧
    (w.phase = .stopped → ∀ e v, ReplayStep w e v → v.phase = .stopped ∧ v.calls = w.calls) ∧
    (w.phase = .awaiting → w.daemon.stage (w.calls - 1) = some .panicked →
      ∀ e v, ReplayStep w e v → e = .fails) := by
  have hok := replay_ok h
  have hrun := daemon_run h
  have hids := ids_run hrun
  have hids₀ := ids_run h₀
  refine ⟨?_, ?_, ?_, fun hp _ _ => stopped_step hp, fun hp hst _ _ => hok.panicked_step hp hst⟩
  · intro hp
    obtain ⟨hd, hlen⟩ := hok.reproduces hp
    rw [List.length_map] at hlen
    exact row_pairs (by rw [hids, hids₀, hlen]) hd
  · intro hf
    have hleft := run_left h hf
    refine ⟨by omega, ?_⟩
    by_cases hp : w.phase = .finished
    · exact .inl hp
    · exact .inr (replay_progress h hf hp)
  · intro hp hn
    have hlen : w.daemon.rows.length = w.calls - 1 := by
      refine hok.interrupted hp fun stage hst => ?_
      by_contra hrec
      have hin := recorded_inserted hrun hst (by simpa using hrec)
      exact hn (mem_daemonActions rfl hin)
    have hle : w.calls ≤ old.rows.length := (List.length_map Row.description) ▸ hok.calls
    refine ⟨?_, hlen⟩
    rw [← List.map_take]
    refine row_pairs ?_ ?_
    · rw [hids, hlen, List.map_take, hids₀, List.take_range'_of_length_ge (by omega)]
    · rw [hok.copied.rows, hlen, List.map_take]

end Replays

section Example

lemma greeting_recorded : ∃ old, Run Step .fresh [.send 0 0, .arrive 0, .lock 0, .insert 0] old ∧
    old.rows = [⟨1, "Hello, PhasicJ!", 0⟩] := by
  have hsend : Step .fresh (.send 0 0) (State.fresh.put 0 ⟨"Hello, PhasicJ!", .sent⟩) := .send rfl
  exact ⟨_, .cons hsend (.cons (.arrive rfl rfl) (.cons (.lock rfl rfl ⟨rfl, rfl, rfl⟩)
    (.single (.insert rfl rfl)))), rfl⟩

def greetingReplay : List ReplayAction :=
  [.call 0, .handle (.arrive 0), .handle (.lock 0), .handle (.insert 0), .handle (.unlock 0),
    .handle (.sendAck 0), .acked 0, .finish]

lemma greeting_replayed : ∃ w, w.phase = .finished ∧
    Run ReplayStep (.start [⟨1, "Hello, PhasicJ!", 0⟩]) greetingReplay w := by
  have hcall : ReplayStep (.start [⟨1, "Hello, PhasicJ!", 0⟩]) (.call 0)
      ⟨[], 1, .awaiting, State.fresh.put 0 ⟨"Hello, PhasicJ!", .sent⟩⟩ := .call rfl rfl rfl
  exact ⟨_, rfl, .cons hcall (.cons (.handle rfl (.arrive rfl rfl))
    (.cons (.handle rfl (.lock rfl rfl ⟨rfl, rfl, rfl⟩)) (.cons (.handle rfl (.insert rfl rfl))
    (.cons (.handle rfl (.unlock rfl rfl)) (.cons (.handle rfl (.sendAck rfl rfl))
    (.cons (.acked rfl (.deliver rfl rfl)) (.single (.finish rfl rfl))))))))⟩

theorem replay_reproduces_greeting : ∃ w,
    Run ReplayStep (.start [⟨1, "Hello, PhasicJ!", 0⟩]) greetingReplay w ∧
    greetingReplay.length ≤ 8 ∧ w.daemon.rows.map (fun row => (row.id, row.description)) =
      [(1, "Hello, PhasicJ!")] := by
  obtain ⟨old, h₀, hrows⟩ := greeting_recorded
  obtain ⟨w, hp, h⟩ := greeting_replayed
  obtain ⟨hsame, hends, -⟩ := replay_reproduces h₀ (hrows.symm ▸ h)
  rw [hrows] at hsame hends
  exact ⟨w, h, (hends (by decide)).1, hsame hp⟩

end Example

end PhasicJ.Daemon
