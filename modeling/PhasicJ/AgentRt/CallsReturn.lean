import PhasicJ.AgentRt.NothingLost

/-! The inserted calls return: none waits for the worker, and none for ever for another call. -/

namespace PhasicJ.AgentRt

open Sync Transitions

namespace Pc

def left : Pc → ℕ
  | entered => 7
  | counting => 6
  | native => 5
  | locked => 4
  | borrowed => 3
  | sent => 2
  | unlocked => 1
  | returned _ | panicked => 0

def holdsChannel : Pc → Bool
  | locked | borrowed | sent => true
  | _ => false

def isReturned : Pc → Bool
  | returned _ => true
  | _ => false

lemma left_le (pc : Pc) : pc.left ≤ 7 * if !pc.isReturned then 1 else 0 := by
  cases pc <;> simp [left, isReturned]

end Pc

def Action.isCallStep : Action → Bool
  | readFlag _ | count _ | lock _ | borrow _ | send _ | unlock _ | ret _ => true
  | _ => false

def Action.stepOf : Action → Option ℕ
  | readFlag k | count k | lock k | borrow k | send k | unlock k | ret k => some k
  | _ => none

def Action.isCall : Action → Bool
  | call _ _ => true
  | _ => false

def State.left (s : State) : ℕ := (s.calls.map fun c => c.pc.left).sum

/-- The steps that the call with this number has left, also before it is there. -/
def State.leftOf (s : State) (k : ℕ) : ℕ := s.calls[k]?.elim 7 fun c => c.pc.left

structure State.HolderOk (s : State) : Prop where
  main : s.eventForwardingChannel.holder = some .main →
    s.onLoad = .installing ∨ s.onLoad = .unlocking
  call : ∀ k, s.eventForwardingChannel.holder = some (.call k) →
    ∃ c, s.calls[k]? = some c ∧ c.pc.holdsChannel
  panicked : ∀ c ∈ s.calls, c.pc ≠ .panicked

section Left

variable {α : Type} {l : List α} {k : ℕ} {x : α}

lemma sum_map_set (f : α → ℕ) (y : α) (h : l[k]? = some x) :
    ((l.set k y).map f).sum + f x = (l.map f).sum + f y := by
  induction l generalizing k with
  | nil => cases h
  | cons z l ih =>
    cases k with
    | zero =>
      obtain rfl := Option.some.inj h
      simp only [List.set_cons_zero, List.map_cons, List.sum_cons]
      omega
    | succ k =>
      have := ih h
      simp only [List.set_cons_succ, List.map_cons, List.sum_cons]
      omega

variable {s u : State} {c : Call} {a : Action} {t : List Action}

lemma left_set (hk : s.calls[k]? = some c) {pc : Pc}
    (hu : u.calls = s.calls.set k { c with pc }) : u.left + c.pc.left = s.left + pc.left := by
  rw [State.left, hu]
  exact sum_map_set (fun c : Call => c.pc.left) { c with pc } hk

lemma callStep_cases (hs : Step s a u) (ha : a.isCallStep = true) :
    ∃ k c pc, s.calls[k]? = some c ∧ u.calls = s.calls.set k { c with pc } ∧
      pc.left < c.pc.left ∧ a.stepOf = some k := by
  cases hs with
  | readEnabled hk hpc | readDisabled hk hpc | countEnter hk hpc | countExit hk hpc
  | returnExit hk hpc | lock hk hpc | borrow hk hpc | send hk hpc | unlock hk hpc
  | returnEnter hk hpc =>
    refine ⟨_, _, _, hk, rfl, ?_, rfl⟩
    rw [hpc]
    decide
  | _ => cases ha

lemma calls_frame (hs : Step s a u) (ha : a.isCallStep = false) (hc : a.isCall = false)
    (hp : a.isPanic = false) : u.calls = s.calls := by
  cases hs with
  | call => cases hc
  | readEnabled | readDisabled | countEnter | countExit | returnExit | lock | borrow | send | unlock
  | returnEnter => cases ha
  | onLoadPanics | lockPanics | borrowPanics | sendPanics | recvPanics => cases hp
  | _ => rfl

lemma left_step (hs : Step s a u) (hp : a.isPanic = false) :
    (if a.isCallStep then 1 else 0) + u.left ≤ s.left + if a.isCall then 7 else 0 := by
  by_cases ha : a.isCallStep = true
  · obtain ⟨k, c, pc, hk, hu, hlt, -⟩ := callStep_cases hs ha
    have := left_set hk hu
    rw [if_pos ha]
    omega
  rw [if_neg ha, Nat.zero_add]
  by_cases hc : a.isCall = true
  · rw [if_pos hc]
    cases hs with
    | call => simp [State.left, Pc.left]
    | _ => cases hc
  · rw [State.left, calls_frame hs (by simpa using ha) (by simpa using hc) hp]
    exact Nat.le_add_right _ _

lemma left_run (h : Run Step s t u) (hp : ∀ a ∈ t, a.isPanic = false) :
    t.countP Action.isCallStep + u.left ≤ s.left + 7 * t.countP Action.isCall := by
  induction h with
  | nil => simp
  | @snoc u v t a _ hs ih =>
    have h₁ := ih fun b hb => hp b (List.mem_append_left _ hb)
    have h₂ := left_step hs (hp a (List.mem_append_right _ List.mem_cons_self))
    rw [List.countP_append, List.countP_append, List.countP_singleton, List.countP_singleton]
    split at h₂ <;> split at h₂ <;> simp_all <;> omega

lemma stepOf_eq_none (ha : a.isCallStep = false) : a.stepOf = none := by
  cases a <;> first | rfl | cases ha

lemma leftOf_step (hs : Step s a u) (hp : a.isPanic = false) (j : ℕ) :
    (if a.stepOf = some j then 1 else 0) + u.leftOf j ≤ s.leftOf j := by
  cases ha : a.isCallStep with
  | true =>
    obtain ⟨k, c, pc, hk, hu, hlt, hstep⟩ := callStep_cases hs ha
    rw [State.leftOf, State.leftOf, hu, getElem?_set_calls hk, hstep]
    by_cases hj : j = k
    · subst hj
      rw [if_pos rfl, if_pos rfl, hk, Option.elim_some, Option.elim_some, Nat.add_comm]
      exact hlt
    · rw [if_neg hj, if_neg fun he => hj (Option.some.inj he).symm, Nat.zero_add]
  | false =>
    rw [stepOf_eq_none ha, if_neg (by rintro ⟨⟩), Nat.zero_add]
    cases hc : a.isCall with
    | false => rw [State.leftOf, State.leftOf, calls_frame hs ha hc hp]
    | true =>
      cases hs with
      | call =>
        rw [State.leftOf, State.leftOf]
        rcases Nat.lt_trichotomy j s.calls.length with hj | rfl | hj
        · rw [List.getElem?_append_left hj]
        · rw [List.getElem?_concat_length, List.getElem?_eq_none le_rfl]
          exact le_rfl
        · rw [List.getElem?_eq_none (by simpa using hj), List.getElem?_eq_none hj.le]
      | _ => cases hc

lemma leftOf_run (h : Run Step s t u) (hp : ∀ a ∈ t, a.isPanic = false) (j : ℕ) :
    (t.countP fun a => a.stepOf = some j) + u.leftOf j ≤ s.leftOf j := by
  induction h with
  | nil => simp
  | @snoc u v t a _ hs ih =>
    have h₁ := ih fun b hb => hp b (List.mem_append_left _ hb)
    have h₂ := leftOf_step hs (hp a (List.mem_append_right _ List.mem_cons_self)) j
    simp only [List.countP_append, List.countP_singleton, decide_eq_true_eq]
    omega

end Left

section Holder

variable {s u : State} {a : Action} {t : List Action} {k : ℕ} {c c' : Call}

lemma State.HolderOk.move (h : s.HolderOk) (hk : s.calls[k]? = some c)
    (hu : u.calls = s.calls.set k c') (hon : u.onLoad = s.onLoad) (hp : c'.pc ≠ .panicked)
    (hold : ∀ i, u.eventForwardingChannel.holder = some i →
      (i = .call k ∧ c'.pc.holdsChannel) ∨
        (i ≠ .call k ∧ s.eventForwardingChannel.holder = some i)) : u.HolderOk := by
  refine ⟨?_, ?_, ?_⟩
  · intro hm
    rcases hold _ hm with ⟨hi, -⟩ | ⟨-, hi⟩
    · cases hi
    · exact hon ▸ h.main hi
  · intro j hj
    rw [hu, getElem?_set_calls hk]
    rcases hold _ hj with ⟨hi, hc⟩ | ⟨hi, hs⟩
    · cases hi
      exact ⟨c', if_pos rfl, hc⟩
    · rw [if_neg fun he => hi (congrArg Task.call he)]
      exact h.call j hs
  · intro c₁ hc₁
    rcases List.mem_or_eq_of_mem_set (hu ▸ hc₁) with hc₁ | rfl
    · exact h.panicked c₁ hc₁
    · exact hp

lemma State.HolderOk.quiet (h : s.HolderOk) (hk : s.calls[k]? = some c)
    (hu : u.calls = s.calls.set k c') (hon : u.onLoad = s.onLoad) (hp : c'.pc ≠ .panicked)
    (hm : u.eventForwardingChannel = s.eventForwardingChannel)
    (hc : c.pc.holdsChannel → c'.pc.holdsChannel) : u.HolderOk := by
  refine h.move hk hu hon hp fun i hi => ?_
  rw [hm] at hi
  by_cases he : i = .call k
  · subst he
    obtain ⟨c₁, hk₁, hold⟩ := h.call k hi
    obtain rfl := Option.some.inj (hk.symm.trans hk₁)
    exact .inl ⟨rfl, hc hold⟩
  · exact .inr ⟨he, hi⟩

lemma State.HolderOk.keep (h : s.HolderOk) (hu : u.calls = s.calls)
    (hm : u.eventForwardingChannel.holder = s.eventForwardingChannel.holder)
    (hon : u.onLoad = s.onLoad) : u.HolderOk :=
  ⟨fun hi => hon ▸ h.main (hm ▸ hi), fun j hj => hu ▸ h.call j (hm ▸ hj), hu ▸ h.panicked⟩

lemma State.HolderOk.step (h : s.HolderOk) (hs : Step s a u) (ha : a.isPanic = false) :
    u.HolderOk := by
  cases hs with
  | installSender hon =>
    exact ⟨fun _ => .inr rfl, h.call, h.panicked⟩
  | configure hon | createChannel hon | spawnWorker hon =>
    refine ⟨fun hi => ?_, h.call, h.panicked⟩
    rcases h.main hi with hm | hm
    · simp [hon] at hm
    · simp [hon] at hm
  | lockChannel hon hm =>
    refine ⟨fun _ => .inl rfl, fun k hk => ?_, h.panicked⟩
    simp [hm.holder] at hk
  | unlockChannel hon =>
    exact ⟨nofun, nofun, h.panicked⟩
  | loadObject | vmStart | enableInstrumentation | recv | log => exact h.keep rfl rfl rfl
  | call =>
    refine ⟨h.main, fun k hk => ?_, fun c hc => ?_⟩
    · obtain ⟨c, hc, hold⟩ := h.call k hk
      refine ⟨c, ?_, hold⟩
      rw [List.getElem?_append_left (List.getElem?_eq_some_iff.mp hc).1, hc]
    · rcases List.mem_append.mp hc with hc | hc
      · exact h.panicked c hc
      · obtain rfl := List.mem_singleton.mp hc
        nofun
  | readEnabled hk hpc | readDisabled hk hpc | countEnter hk hpc | countExit hk hpc
  | returnExit hk hpc | returnEnter hk hpc =>
    exact h.quiet hk rfl rfl nofun rfl (by rw [hpc]; nofun)
  | borrow hk hpc | send hk hpc => exact h.quiet hk rfl rfl nofun rfl fun _ => rfl
  | lock hk hpc _ hm =>
    refine h.move hk rfl rfl nofun fun i hi => .inl ⟨?_, rfl⟩
    exact (Option.some.inj (hm.holder.symm.trans hi)).symm
  | unlock hk hpc => exact h.move hk rfl rfl nofun nofun
  | onLoadPanics | lockPanics | borrowPanics | sendPanics | recvPanics => cases ha

lemma holderOk_run (h : Run Step .initial t s) : s.HolderOk := by
  induction h with
  | nil => exact ⟨nofun, nofun, nofun⟩
  | snoc hr hs ih =>
    obtain ⟨hst, hc⟩ := ok_run hr
    exact ih.step hs (no_panic hst hc hs)

end Holder

section Progress

variable {s u : State} {a : Action} {t : List Action} {k : ℕ} {c : Call}

/-- The holder of the mutex can go on, and the mutex is free for the others if nobody holds it. -/
lemma call_can_step (h : Run Step .initial t s) (hk : s.calls[k]? = some c)
    (hc : c.pc.isReturned = false) : ∃ a u, a.isCallStep = true ∧ Step s a u := by
  obtain ⟨hst, hcalls⟩ := ok_run h
  have hold := holderOk_run h
  have holder : ∀ (j : ℕ) (d : Call), s.calls[j]? = some d → d.pc.holdsChannel →
      ∃ a u, a.isCallStep = true ∧ Step s a u := by
    intro j d hj hd
    have hmem := List.mem_of_getElem? hj
    cases hpc : d.pc with
    | locked =>
      have hon := hst.installed (hcalls.reached d hmem (by simp [Call.reachedEvents, hpc]))
      obtain ⟨tx, htx⟩ := Option.isSome_iff_exists.mp (hst.sender (by rw [hon]; rfl))
      exact ⟨_, _, rfl, .borrow hj hpc htx⟩
    | borrowed => exact ⟨_, _, rfl, .send hj hpc ⟨hst.receiver, rfl⟩⟩
    | sent => exact ⟨_, _, rfl, .unlock hj hpc⟩
    | _ => rw [hpc] at hd; cases hd
  cases hpc : c.pc with
  | entered =>
    cases he : s.instrumentationIsEnabled with
    | true => exact ⟨_, _, rfl, .readEnabled hk hpc he⟩
    | false => exact ⟨_, _, rfl, .readDisabled hk hpc he⟩
  | counting =>
    cases hkind : c.kind with
    | monitorEnter => exact ⟨_, _, rfl, .countEnter hk hpc hkind⟩
    | monitorExit => exact ⟨_, _, rfl, .countExit hk hpc hkind⟩
  | native =>
    cases hkind : c.kind with
    | monitorExit => exact ⟨_, _, rfl, .returnExit hk hpc hkind⟩
    | monitorEnter =>
      have hon := hst.installed
        (hcalls.reached c (List.mem_of_getElem? hk) (by simp [Call.reachedEvents, hpc]))
      cases hh : s.eventForwardingChannel.holder with
      | none => exact ⟨_, _, rfl, .lock hk hpc hkind ⟨hh, hst.notPoisoned, rfl⟩⟩
      | some i =>
        cases i with
        | main => rcases hold.main hh with hm | hm <;> simp [hon] at hm
        | call j =>
          obtain ⟨d, hj, hd⟩ := hold.call j hh
          exact holder j d hj hd
  | locked | borrowed | sent => exact holder k c hk (by rw [hpc]; rfl)
  | unlocked => exact ⟨_, _, rfl, .returnEnter hk hpc⟩
  | returned b => rw [hpc] at hc; cases hc
  | panicked => exact absurd hpc (hold.panicked c (List.mem_of_getElem? hk))

lemma callStep_not_panic (h : a.isCallStep = true) : a.isPanic = false := by
  cases a <;> first | rfl | cases h

/-- Whatever state the calls are in, they can all return before anything else happens. -/
lemma run_until_returned (h : Run Step .initial t s) :
    ∃ t' u, Run Step s t' u ∧ (∀ a ∈ t', a.isCallStep = true) ∧
      ∀ c ∈ u.calls, c.pc.isReturned = true := by
  have hgo : ∀ v, (∃ t, Run Step .initial t v) → ¬ (∀ c ∈ v.calls, c.pc.isReturned = true) →
      ∃ a w, a.isCallStep = true ∧ Step v a w ∧ (∃ t, Run Step .initial t w) ∧
        w.left < v.left := by
    rintro v ⟨t, h⟩ hall
    push Not at hall
    obtain ⟨c, hc, hpc⟩ := hall
    obtain ⟨k, hk⟩ := List.mem_iff_getElem?.mp hc
    obtain ⟨a, w, ha, hs⟩ := call_can_step h hk (by simpa using hpc)
    have hlt := left_step hs (callStep_not_panic ha)
    have hcall : a.isCall = false := by
      cases a <;> first | rfl | cases ha
    rw [if_pos ha, hcall] at hlt
    exact ⟨a, w, ha, hs, ⟨_, h.snoc hs⟩, by simp at hlt; omega⟩
  obtain ⟨t', u, hr, ht', -, hu⟩ := Run.until_goal State.left hgo ⟨t, h⟩
  exact ⟨t', u, hr, ht', hu⟩

lemma no_panic_run (h : Run Step .initial t s) : ∀ a ∈ t, a.isPanic = false := by
  intro a ha
  obtain ⟨t₁, t₂, rfl⟩ := List.append_of_mem ha
  obtain ⟨v, w, hv, hs, -⟩ := h.mid_split
  obtain ⟨hst, hcalls⟩ := ok_run hv
  exact no_panic hst hcalls hs

lemma left_le (s : State) : s.left ≤ 7 * s.calls.countP fun c => !c.pc.isReturned := by
  unfold State.left
  induction s.calls with
  | nil => rfl
  | cons c calls ih =>
    have := c.pc.left_le
    rw [List.map_cons, List.sum_cons, List.countP_cons]
    omega

end Progress

/-- As long as a call has not returned, some call can take a step, which waits neither for the worker
nor for new calls. Each call takes at most seven steps, so all of them return. -/
theorem calls_return {t : List Action} {s : State} (h : Run Step .initial t s) :
    (∀ c ∈ s.calls, c.pc.isReturned = false → ∃ a u, a.isCallStep = true ∧ Step s a u) ∧
    (∀ k, (t.countP fun a => a.stepOf = some k) ≤ 7) ∧
    (∀ t' u, Run Step s t' u → t'.countP Action.isCallStep ≤
      7 * ((s.calls.countP fun c => !c.pc.isReturned) + t'.countP Action.isCall)) ∧
    ∃ t' u, Run Step s t' u ∧ (∀ a ∈ t', a.isCallStep = true) ∧
      ∀ c ∈ u.calls, c.pc.isReturned = true := by
  refine ⟨?_, ?_, ?_, run_until_returned h⟩
  · intro c hc hpc
    obtain ⟨k, hk⟩ := List.mem_iff_getElem?.mp hc
    exact call_can_step h hk hpc
  · intro k
    have hle := leftOf_run h (no_panic_run h) k
    have hinitial : State.initial.leftOf k = 7 := rfl
    omega
  · intro t' u hr
    have hpanic : ∀ a ∈ t', a.isPanic = false := fun a ha =>
      no_panic_run (h.trans hr) a (List.mem_append_right _ ha)
    have := left_run hr hpanic
    have := left_le s
    omega

section Example

theorem calls_return_one : ∃ t s, Run Step .initial t s ∧ s.left = 6 ∧
    ∃ t' u, Run Step s t' u ∧ ∀ c ∈ u.calls, c.pc.isReturned = true := by
  have h : Run Step .initial [.loadObject, .configure, .createChannel, .lockChannel, .installSender,
      .unlockChannel, .spawnWorker, .vmStart, .enableInstrumentation, .call 0 .monitorEnter,
      .readFlag 0] _ :=
    .cons (.loadObject rfl) (.cons (.configure rfl) (.cons (.createChannel rfl)
    (.cons (.lockChannel rfl ⟨rfl, rfl, rfl⟩) (.cons (.installSender rfl)
    (.cons (.unlockChannel rfl) (.cons (.spawnWorker rfl) (.cons (.vmStart rfl rfl rfl)
    (.cons (.enableInstrumentation rfl) (.cons (.call rfl nofun)
    (.single (.readEnabled rfl rfl rfl)))))))))))
  obtain ⟨t', u, hr, -, hu⟩ := (calls_return h).2.2.2
  exact ⟨_, _, h, rfl, t', u, hr, hu⟩

end Example

end PhasicJ.AgentRt
