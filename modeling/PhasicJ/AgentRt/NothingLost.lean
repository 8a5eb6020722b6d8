import PhasicJ.AgentRt.EventForwarding

/-! Every event reaches the worker's channel once, and nothing panics. -/

namespace PhasicJ.AgentRt

open Sync Transitions

namespace OnLoad

def hasInstalled : OnLoad → Bool
  | unlocking | spawning | returned => true
  | _ => false

end OnLoad

structure State.StartOk (t : List Action) (s : State) : Prop where
  notPoisoned : s.eventForwardingChannel.poisoned = false
  worker : s.worker ≠ .panicked
  receiver : s.channel.receiverAlive = true
  sender : s.onLoad.hasInstalled → s.eventForwardingChannel.data.isSome
  started : s.worker ≠ .notStarted → s.onLoad = .returned
  vmStart : s.vmStart ≠ .pending → s.onLoad = .returned
  enabled : s.instrumentationIsEnabled = true → s.vmStart = .returned
  flag : s.instrumentationIsEnabled = true ↔ .enableInstrumentation ∈ t

/-- Each call that passed its send has sent one message. -/
structure State.CallsOk (t : List Action) (s : State) : Prop where
  reached : ∀ c ∈ s.calls, c.reachedEvents → s.instrumentationIsEnabled = true
  kinds : ∀ c ∈ s.calls, c.isSending → c.kind = .monitorEnter
  forwarded : s.received + s.channel.queue.length = s.calls.countP Call.passedSend
  total : s.received + s.channel.queue.length = t.countP Action.isSend
  sends : ∀ k, t.count (.send k) = if (s.calls[k]?).any Call.passedSend then 1 else 0

section Calls

variable {t : List Action} {s u : State} {a : Action} {k : ℕ} {c c' : Call}

lemma countP_set (p : Call → Bool) (c' : Call) (h : s.calls[k]? = some c) :
    (s.calls.set k c').countP p + (if p c then 1 else 0) =
      s.calls.countP p + if p c' then 1 else 0 := by
  obtain ⟨hk, rfl⟩ := List.getElem?_eq_some_iff.mp h
  have hle : (if p s.calls[k] then 1 else 0) ≤ s.calls.countP p := by
    split
    · next hp => exact List.countP_pos_iff.mpr ⟨_, List.getElem_mem hk, hp⟩
    · exact Nat.zero_le _
  rw [List.countP_set hk]
  omega

lemma getElem?_set_calls (h : s.calls[k]? = some c) (k' : ℕ) :
    (s.calls.set k c')[k']? = if k' = k then some c' else s.calls[k']? := by
  obtain ⟨hk, -⟩ := List.getElem?_eq_some_iff.mp h
  rw [List.getElem?_set]
  by_cases he : k' = k
  · rw [if_pos he.symm, if_pos he, if_pos hk]
  · rw [if_neg (Ne.symm he), if_neg he]

lemma countP_isSend_snoc (ha : ∀ k', a ≠ .send k') :
    (t ++ [a]).countP Action.isSend = t.countP Action.isSend := by
  have hn : a.isSend = false := by
    cases a with
    | send k => exact absurd rfl (ha k)
    | _ => rfl
  simp [List.countP_append, hn]

lemma count_send_snoc (ha : ∀ k', a ≠ .send k') (k' : ℕ) :
    (t ++ [a]).count (.send k') = t.count (.send k') := by
  simp [List.count_append, ha k']

lemma State.CallsOk.move (h : s.CallsOk t) (hc : s.calls[k]? = some c)
    (hu : u.calls = s.calls.set k c')
    (he : u.instrumentationIsEnabled = s.instrumentationIsEnabled)
    (hr : c'.reachedEvents → c.reachedEvents ∨ s.instrumentationIsEnabled = true)
    (hk : c'.isSending → c'.kind = .monitorEnter) (hn : c'.passedSend = c.passedSend)
    (hq : u.received + u.channel.queue.length = s.received + s.channel.queue.length)
    (ha : ∀ k', a ≠ .send k') : u.CallsOk (t ++ [a]) := by
  have hmem := List.mem_of_getElem? hc
  refine ⟨?_, ?_, ?_, ?_, ?_⟩
  · intro c₁ h₁ hr₁
    rw [he]
    rcases List.mem_or_eq_of_mem_set (hu ▸ h₁) with h₁ | rfl
    · exact h.reached c₁ h₁ hr₁
    · rcases hr hr₁ with hr | hr
      · exact h.reached c hmem hr
      · exact hr
  · intro c₁ h₁ hs₁
    rcases List.mem_or_eq_of_mem_set (hu ▸ h₁) with h₁ | rfl
    · exact h.kinds c₁ h₁ hs₁
    · exact hk hs₁
  · have := countP_set Call.passedSend c' hc
    rw [hn] at this
    rw [hq, hu, h.forwarded]
    omega
  · rw [hq, countP_isSend_snoc ha, h.total]
  · intro k'
    rw [count_send_snoc ha, h.sends, hu, getElem?_set_calls hc]
    by_cases hk' : k' = k
    · rw [if_pos hk', hk', hc, Option.any_some, Option.any_some, hn]
    · rw [if_neg hk']

lemma State.CallsOk.send (h : s.CallsOk t) (hc : s.calls[k]? = some c)
    (hu : u.calls = s.calls.set k c')
    (he : u.instrumentationIsEnabled = s.instrumentationIsEnabled)
    (hr : c.reachedEvents) (hk : c'.kind = .monitorEnter) (hn : c.passedSend = false)
    (hn' : c'.passedSend = true)
    (hq : u.received + u.channel.queue.length = s.received + s.channel.queue.length + 1) :
    u.CallsOk (t ++ [.send k]) := by
  refine ⟨?_, ?_, ?_, ?_, ?_⟩
  · intro c₁ h₁ hr₁
    rw [he]
    rcases List.mem_or_eq_of_mem_set (hu ▸ h₁) with h₁ | rfl
    · exact h.reached c₁ h₁ hr₁
    · exact h.reached c (List.mem_of_getElem? hc) hr
  · intro c₁ h₁ hs₁
    rcases List.mem_or_eq_of_mem_set (hu ▸ h₁) with h₁ | rfl
    · exact h.kinds c₁ h₁ hs₁
    · exact hk
  · have := countP_set Call.passedSend c' hc
    simp only [hn, hn', Bool.false_eq_true, if_false, if_true] at this
    rw [hq, hu, h.forwarded]
    omega
  · rw [hq, h.total]
    simp [List.countP_append, Action.isSend]
  · intro k'
    rw [List.count_append, h.sends, hu, getElem?_set_calls hc]
    by_cases hk' : k' = k
    · simp [hk', hc, hn, hn']
    · simp [hk', Ne.symm hk']

lemma State.CallsOk.keep (h : s.CallsOk t) (hu : u.calls = s.calls)
    (he : s.instrumentationIsEnabled = true → u.instrumentationIsEnabled = true)
    (hq : u.received + u.channel.queue.length = s.received + s.channel.queue.length)
    (ha : ∀ k', a ≠ .send k') : u.CallsOk (t ++ [a]) := by
  refine ⟨?_, hu ▸ h.kinds, by rw [hq, hu, h.forwarded],
    by rw [hq, countP_isSend_snoc ha, h.total], ?_⟩
  · intro c hc hr
    exact he (h.reached c (hu ▸ hc) hr)
  · intro k'
    rw [count_send_snoc ha, h.sends, hu]

lemma State.CallsOk.call (h : s.CallsOk t) (thread : ℕ) (kind : Kind) :
    State.CallsOk (t ++ [.call thread kind])
      { s with calls := s.calls ++ [⟨thread, kind, .entered⟩] } := by
  refine ⟨?_, ?_, ?_, ?_, ?_⟩
  · intro c hc hr
    rcases List.mem_append.mp hc with hc | hc
    · exact h.reached c hc hr
    · obtain rfl := List.mem_singleton.mp hc
      cases hr
  · intro c hc hs
    rcases List.mem_append.mp hc with hc | hc
    · exact h.kinds c hc hs
    · obtain rfl := List.mem_singleton.mp hc
      cases hs
  · have hn : Call.passedSend ⟨thread, kind, .entered⟩ = false := by cases kind <;> rfl
    simp [List.countP_append, hn, h.forwarded]
  · rw [countP_isSend_snoc (a := .call thread kind) nofun]
    exact h.total
  · intro k'
    have hn : Call.passedSend ⟨thread, kind, .entered⟩ = false := by cases kind <;> rfl
    rw [count_send_snoc (a := .call thread kind) nofun, h.sends, List.getElem?_append]
    by_cases hk : k' < s.calls.length
    · rw [if_pos hk]
    · rw [if_neg hk, List.getElem?_eq_none (Nat.le_of_not_lt hk)]
      cases hg : ([⟨thread, kind, .entered⟩] : List Call)[k' - s.calls.length]? with
      | none => rfl
      | some c =>
        obtain rfl := List.mem_singleton.mp (List.mem_of_getElem? hg)
        simp [hn]

lemma Call.reachedEvents_of_passedSend (h : c.passedSend) : c.reachedEvents := by
  unfold Call.passedSend at h
  split at h
  · next hpc => simp [Call.reachedEvents, hpc]
  · next hpc => simp [Call.reachedEvents, hpc]
  · next hpc => simp [Call.reachedEvents, hpc]
  · cases h

end Calls

section Steps

variable {t : List Action} {s u : State} {a : Action}

lemma State.StartOk.installed (h : s.StartOk t) (he : s.instrumentationIsEnabled = true) :
    s.onLoad = .returned :=
  h.vmStart (by rw [h.enabled he]; nofun)

lemma no_panic (h : s.StartOk t) (h' : s.CallsOk t) (hs : Step s a u) : a.isPanic = false := by
  cases hs with
  | onLoadPanics _ hf | lockPanics _ _ _ hf =>
    have := hf.2
    rw [h.notPoisoned] at this
    cases this
  | borrowPanics hc hpc hd =>
    have hon := h.installed
      (h'.reached _ (List.mem_of_getElem? hc) (by simp [Call.reachedEvents, hpc]))
    have := h.sender (by rw [hon]; rfl)
    rw [hd] at this
    cases this
  | sendPanics _ _ hr =>
    rw [h.receiver] at hr
    cases hr
  | recvPanics hw hf =>
    have hon := h.started (by rw [hw]; nofun)
    have := h.sender (by rw [hon]; rfl)
    rw [hf.2] at this
    cases this
  | _ => rfl

lemma State.CallsOk.silent (h : s.CallsOk t) (he : s.instrumentationIsEnabled = false) :
    s.received + s.channel.queue.length = 0 := by
  rw [h.forwarded, List.countP_eq_zero]
  intro c hc hp
  rw [h.reached c hc (Call.reachedEvents_of_passedSend hp)] at he
  cases he

lemma State.CallsOk.step (h : s.CallsOk t) (hst : s.StartOk t) (hs : Step s a u) :
    u.CallsOk (t ++ [a]) := by
  have hpanic := no_panic hst h hs
  cases hs with
  | configure _ | lockChannel _ _ | installSender _ | unlockChannel _ | spawnWorker _
  | loadObject _ | vmStart _ _ _ | log _ => exact h.keep rfl id rfl nofun
  | enableInstrumentation _ => exact h.keep rfl (fun _ => rfl) rfl nofun
  | createChannel hon =>
    have he : s.instrumentationIsEnabled = false := by
      by_contra he
      have := hst.installed (by simpa using he)
      rw [hon] at this
      cases this
    have hz := h.silent he
    refine h.keep rfl id ?_ nofun
    rw [hz]
    exact Nat.eq_zero_of_add_eq_zero_right hz
  | recv _ hr =>
    refine h.keep rfl id ?_ nofun
    have := hr.length
    simp only
    omega
  | call _ _ => exact h.call ..
  | @readEnabled k c hc hpc he =>
    exact h.move hc rfl rfl (fun _ => .inr he) nofun (by cases hk : c.kind <;>
      simp [Call.passedSend, hpc, hk]) rfl nofun
  | @readDisabled k c hc hpc he =>
    exact h.move hc rfl rfl nofun nofun (by cases hk : c.kind <;>
      simp [Call.passedSend, hpc, hk]) rfl nofun
  | @countEnter k c hc hpc hk | @countExit k c hc hpc hk | @returnExit k c hc hpc hk =>
    exact h.move hc rfl rfl (fun _ => .inl (by simp [Call.reachedEvents, hpc])) nofun
      (by simp [Call.passedSend, hpc, hk]) rfl nofun
  | @lock k c m hc hpc hk hm =>
    exact h.move hc rfl rfl (fun _ => .inl (by simp [Call.reachedEvents, hpc])) (fun _ => hk)
      (by simp [Call.passedSend, hpc, hk]) rfl nofun
  | @borrow k c tx hc hpc hd =>
    have hk := h.kinds c (List.mem_of_getElem? hc) (by simp [Call.isSending, hpc])
    exact h.move hc rfl rfl (fun _ => .inl (by simp [Call.reachedEvents, hpc])) (fun _ => hk)
      (by simp [Call.passedSend, hpc, hk]) rfl nofun
  | @send k c channel hc hpc hm =>
    have hk := h.kinds c (List.mem_of_getElem? hc) (by simp [Call.isSending, hpc])
    exact h.send hc rfl rfl (by simp [Call.reachedEvents, hpc]) hk
      (by simp [Call.passedSend, hpc, hk]) (by simp [Call.passedSend, hk])
      (by simp only [State.moveTo, hm.length]; omega)
  | @unlock k c hc hpc =>
    have hk := h.kinds c (List.mem_of_getElem? hc) (by simp [Call.isSending, hpc])
    exact h.move hc rfl rfl (fun _ => .inl (by simp [Call.reachedEvents, hpc])) (fun _ => hk)
      (by simp [Call.passedSend, hpc, hk]) rfl nofun
  | @returnEnter k c hc hpc =>
    have hk := h.kinds c (List.mem_of_getElem? hc) (by simp [Call.isSending, hpc])
    exact h.move hc rfl rfl (fun _ => .inl (by simp [Call.reachedEvents, hpc])) nofun
      (by simp [Call.passedSend, hpc, hk]) rfl nofun
  | onLoadPanics _ _ | lockPanics _ _ _ _ | borrowPanics _ _ _ | sendPanics _ _ _
  | recvPanics _ _ => cases hpanic

lemma State.StartOk.keep (h : s.StartOk t) (hon : u.onLoad = s.onLoad)
    (hvm : u.vmStart = s.vmStart) (he : u.instrumentationIsEnabled = s.instrumentationIsEnabled)
    (hp : u.eventForwardingChannel.poisoned = false)
    (hd : u.eventForwardingChannel.data = s.eventForwardingChannel.data)
    (hr : u.channel.receiverAlive = s.channel.receiverAlive)
    (hw : u.worker ≠ .panicked) (hw' : u.worker ≠ .notStarted → s.worker ≠ .notStarted)
    (ha : a ≠ .enableInstrumentation) : u.StartOk (t ++ [a]) := by
  refine ⟨hp, hw, hr ▸ h.receiver, hon ▸ hd ▸ h.sender, fun hn => hon ▸ h.started (hw' hn),
    hon ▸ hvm ▸ h.vmStart, he ▸ hvm ▸ h.enabled, ?_⟩
  rw [he, h.flag]
  simp [Ne.symm ha]

lemma State.StartOk.advance (h : s.StartOk t) (hon : s.onLoad ≠ .returned)
    (hvm : u.vmStart = s.vmStart) (he : u.instrumentationIsEnabled = s.instrumentationIsEnabled)
    (hw : u.worker = s.worker) (hp : u.eventForwardingChannel.poisoned = false)
    (hr : u.channel.receiverAlive = true)
    (hd : u.onLoad.hasInstalled → u.eventForwardingChannel.data.isSome)
    (ha : a ≠ .enableInstrumentation) : u.StartOk (t ++ [a]) := by
  refine ⟨hp, hw ▸ h.worker, hr, hd, ?_, ?_, he ▸ hvm ▸ h.enabled, ?_⟩
  · intro hn
    exact absurd (h.started (hw ▸ hn)) hon
  · intro hn
    exact absurd (h.vmStart (hvm ▸ hn)) hon
  · rw [he, h.flag]
    simp [Ne.symm ha]

lemma State.StartOk.step (h : s.StartOk t) (h' : s.CallsOk t) (hs : Step s a u) :
    u.StartOk (t ++ [a]) := by
  have hpanic := no_panic h h' hs
  cases hs with
  | configure hon =>
    exact h.advance (by rw [hon]; nofun) rfl rfl rfl h.notPoisoned h.receiver nofun nofun
  | createChannel hon =>
    exact h.advance (by rw [hon]; nofun) rfl rfl rfl h.notPoisoned rfl nofun nofun
  | lockChannel hon hm =>
    exact h.advance (by rw [hon]; nofun) rfl rfl rfl hm.poisoned h.receiver nofun nofun
  | installSender hon =>
    exact h.advance (by rw [hon]; nofun) rfl rfl rfl h.notPoisoned h.receiver (fun _ => rfl) nofun
  | unlockChannel hon =>
    exact h.advance (by rw [hon]; nofun) rfl rfl rfl h.notPoisoned h.receiver
      (fun _ => h.sender (by rw [hon]; rfl)) nofun
  | spawnWorker hon =>
    refine ⟨h.notPoisoned, nofun, h.receiver, fun _ => h.sender (by rw [hon]; rfl), fun _ => rfl,
      fun _ => rfl, h.enabled, ?_⟩
    simpa using h.flag
  | vmStart hon _ hvm =>
    refine ⟨h.notPoisoned, h.worker, h.receiver, h.sender, h.started, fun _ => hon, ?_, ?_⟩
    · intro he
      have := h.enabled he
      rw [hvm] at this
      cases this
    · simpa using h.flag
  | enableInstrumentation hvm =>
    have hon := h.vmStart (by rw [hvm]; nofun)
    exact ⟨h.notPoisoned, h.worker, h.receiver, h.sender, h.started, fun _ => hon, fun _ => rfl,
      by simp⟩
  | loadObject _ | call _ _ | readEnabled _ _ _ | readDisabled _ _ _ | countEnter _ _ _
  | countExit _ _ _ | returnExit _ _ _ | borrow _ _ _ | unlock _ _ | returnEnter _ _ =>
    exact h.keep rfl rfl rfl h.notPoisoned rfl rfl h.worker id nofun
  | lock _ _ _ hm => exact h.keep rfl rfl rfl hm.poisoned hm.data rfl h.worker id nofun
  | send _ _ hm =>
    exact h.keep rfl rfl rfl h.notPoisoned rfl (hm.receiverAlive.trans h.receiver.symm) h.worker id
      nofun
  | recv hw hm =>
    exact h.keep rfl rfl rfl h.notPoisoned rfl hm.receiverAlive nofun
      (fun _ => by rw [hw]; nofun) nofun
  | log hw =>
    exact h.keep rfl rfl rfl h.notPoisoned rfl rfl nofun (fun _ => by rw [hw]; nofun) nofun
  | onLoadPanics _ _ | lockPanics _ _ _ _ | borrowPanics _ _ _ | sendPanics _ _ _
  | recvPanics _ _ => cases hpanic

lemma ok_run (h : Run Step .initial t s) : s.StartOk t ∧ s.CallsOk t := by
  refine h.trace_invariant (fun t s => s.StartOk t ∧ s.CallsOk t) ?_ ⟨?_, ?_⟩
  · rintro t u a v ⟨hst, hc⟩ hs
    exact ⟨hst.step hc hs, hc.step hst hs⟩
  · constructor <;> simp [State.initial, Mutex.new, Channel.new, OnLoad.hasInstalled]
  · constructor <;> simp [State.initial, Channel.new]

end Steps

/-- The events that instrumented code sees reach the worker's channel: none before `VMStart` has
enabled them, each one exactly once, and none of the `unwrap`s on the way fails. -/
theorem events_forwarded {t : List Action} {s : State} (h : Run Step .initial t s) :
    (∀ c ∈ s.calls, c.reachedEvents → .enableInstrumentation ∈ t) ∧
    (s.instrumentationIsEnabled = true → ∀ t' u, Run Step s t' u →
      u.instrumentationIsEnabled = true) ∧
    s.received + s.channel.queue.length = s.calls.countP Call.passedSend ∧
    s.received + s.channel.queue.length = t.countP Action.isSend ∧
    (∀ k c, s.calls[k]? = some c → c.kind = .monitorEnter → c.pc = .returned true →
      t.count (.send k) = 1) ∧
    (∀ k c, s.calls[k]? = some c → c.kind = .monitorExit ∨ c.pc = .returned false →
      t.count (.send k) = 0) ∧
    ∀ a u, Step s a u → a.isPanic = false := by
  obtain ⟨hst, hc⟩ := ok_run h
  refine ⟨?_, ?_, hc.forwarded, hc.total, ?_, ?_, fun a u hs => no_panic hst hc hs⟩
  · intro c hin hr
    exact hst.flag.mp (hc.reached c hin hr)
  · intro he t' u hu
    exact (ok_run (h.trans hu)).1.flag.mpr (List.mem_append_left _ (hst.flag.mp he))
  · intro k c hk hkind hpc
    rw [hc.sends, hk]
    simp [Call.passedSend, hkind, hpc]
  · intro k c hk hsilent
    rw [hc.sends, hk]
    rcases hsilent with hkind | hpc
    · simp [Call.passedSend, hkind]
    · cases hkind : c.kind <;> simp [Call.passedSend, hpc, hkind]

section Example

lemma event_run : ∃ t s, Run Step .initial t s ∧ s.calls = [⟨0, .monitorEnter, .returned true⟩] :=
  ⟨[.configure, .createChannel, .lockChannel, .installSender, .unlockChannel, .spawnWorker,
    .loadObject, .vmStart, .enableInstrumentation, .call 0 .monitorEnter, .readFlag 0, .count 0,
    .lock 0, .borrow 0, .send 0, .recv, .unlock 0, .ret 0], _,
    .cons (.configure rfl) (.cons (.createChannel rfl) (.cons (.lockChannel rfl ⟨rfl, rfl, rfl⟩)
    (.cons (.installSender rfl) (.cons (.unlockChannel rfl) (.cons (.spawnWorker rfl)
    (.cons (.loadObject rfl) (.cons (.vmStart rfl rfl rfl) (.cons (.enableInstrumentation rfl)
    (.cons (.call rfl nofun) (.cons (.readEnabled rfl rfl rfl) (.cons (.countEnter rfl rfl rfl)
    (.cons (.lock rfl rfl rfl ⟨rfl, rfl, rfl⟩) (.cons (.borrow rfl rfl rfl)
    (.cons (.send rfl rfl ⟨rfl, rfl⟩) (.cons (.recv rfl ⟨_, rfl, rfl⟩) (.cons (.unlock rfl rfl)
    (.single (.returnEnter rfl rfl)))))))))))))))))), rfl⟩

theorem events_forwarded_one : ∃ t s, Run Step .initial t s ∧
    s.received + s.channel.queue.length = 1 ∧ t.count (.send 0) = 1 := by
  obtain ⟨t, s, hrun, hcalls⟩ := event_run
  have h := events_forwarded hrun
  refine ⟨t, s, hrun, h.2.2.1.trans (by rw [hcalls]; rfl), ?_⟩
  exact h.2.2.2.2.1 0 ⟨0, .monitorEnter, .returned true⟩ (by rw [hcalls]; rfl) rfl rfl

end Example

end PhasicJ.AgentRt
