import PhasicJ.Code.ThreadedSplicing

/-! Splicing calls of an agent into the methods of a program, run by threads: the program takes the
same steps, and the calls are the ones before the events that the threads execute. -/

namespace PhasicJ.Code

open Transitions

section Hosting

variable {E L T M X R F G A α : Type} (ins : M → E → List E) (code : M → List E)

def owed (i : ℕ) (t : List (HostedAction E M F G α)) : List E :=
  (t.filterMap (HostedAction.executedBy i)).flatMap fun x => ins x.method x.event

/-- A thread has begun the calls that stand before the events that it has executed, and the first
ones of those before the event that it executes next. -/
inductive Tracks : Option (Thread M X R F) → Option (Thread M X R F) → Bool → List E → List E →
    Prop
  | absent : Tracks none none false [] []
  | present {th th' : Thread M X R F} {j : ℕ} {calling : Bool} {begun owed : List E} :
      Follows ins code j th th' → (calling = true → j < (inserted ins code th).length) →
      begun = owed ++ (inserted ins code th).take (j + calling.toNat) →
      Tracks (some th) (some th') calling begun owed

structure HostTracks (p : Pool M X R F G) (h : Hosted M X R F G A)
    (t : List (HostedAction E M F G α)) : Prop where
  memory : h.pool.memory = p.memory
  thread : ∀ i, Tracks ins code p.threads[i]? h.pool.threads[i]? (h.calling i)
    (t.filterMap (HostedAction.begun i)) (owed ins i t)

variable {ins code} {p p' : Pool M X R F G} {h h' : Hosted M X R F G A}
  {t : List (HostedAction E M F G α)} {a : HostedAction E M F G α} {i : ℕ}

lemma begun_snoc (i : ℕ) (t : List (HostedAction E M F G α)) (a : HostedAction E M F G α) :
    (t ++ [a]).filterMap (HostedAction.begun i) =
      t.filterMap (HostedAction.begun i) ++ (a.begun i).toList := by
  cases ha : a.begun i <;> simp [List.filterMap_append, ha]

lemma owed_snoc (ins : M → E → List E) (i : ℕ) (t : List (HostedAction E M F G α))
    (a : HostedAction E M F G α) :
    owed ins i (t ++ [a]) =
      owed ins i t ++ (a.executedBy i).elim [] fun x => ins x.method x.event := by
  cases ha : a.executedBy i <;> simp [owed, List.filterMap_append, ha]

lemma Tracks.none_iff {x y : Option (Thread M X R F)} {calling : Bool} {begun owed : List E}
    (hx : Tracks ins code x y calling begun owed) : x = none ↔ y = none := by
  cases hx <;> simp

lemma HostTracks.length (hp : HostTracks ins code p h t) :
    h.pool.threads.length = p.threads.length := by
  have h₁ := (hp.thread p.threads.length).none_iff.mp (List.getElem?_eq_none le_rfl)
  have h₂ := (hp.thread h.pool.threads.length).none_iff.mpr (List.getElem?_eq_none le_rfl)
  rw [List.getElem?_eq_none_iff] at h₁ h₂
  omega

lemma HostTracks.update (hp : HostTracks ins code p h t) (hm : h'.pool.memory = p'.memory)
    (hthreads : ∀ k, k ≠ i → p'.threads[k]? = p.threads[k]? ∧
      h'.pool.threads[k]? = h.pool.threads[k]? ∧ h'.calling k = h.calling k ∧ a.begun k = none ∧
        a.executedBy k = none)
    (hi : Tracks ins code p'.threads[i]? h'.pool.threads[i]? (h'.calling i)
      (t.filterMap (HostedAction.begun i) ++ (a.begun i).toList)
      (owed ins i t ++ (a.executedBy i).elim [] fun x => ins x.method x.event)) :
    HostTracks ins code p' h' (t ++ [a]) := by
  refine ⟨hm, fun k => ?_⟩
  rw [begun_snoc, owed_snoc]
  by_cases hk : k = i
  · subst hk
    exact hi
  · obtain ⟨h₁, h₂, h₃, h₄, h₅⟩ := hthreads k hk
    rw [h₁, h₂, h₃, h₄, h₅, Option.toList_none, Option.elim_none, List.append_nil, List.append_nil]
    exact hp.thread k

lemma HostTracks.erased (hp : HostTracks ins code p h t) :
    h.pool.threads.map Thread.erased = p.threads.map Thread.erased := by
  refine List.ext_getElem? fun i => ?_
  rw [List.getElem?_map, List.getElem?_map]
  have hthread := hp.thread i
  generalize p.threads[i]? = x, h.pool.threads[i]? = y, h.calling i = calling at hthread ⊢
  generalize t.filterMap (HostedAction.begun i) = begun at hthread
  generalize owed ins i t = owed at hthread
  cases hthread with
  | absent => rfl
  | present hf => rw [Option.map_some, Option.map_some, hf.erased]

end Hosting

section Served

variable {E L T M X R F G A α : Type} [DecidableEq L] {K : Machine E L T M X R F G}
  {N : Agent E A α} {ins : M → E → List E} {code : M → List E}

/-- The inserted events are the calls of the agent. -/
structure Serves (N : Agent E A α) (ins : M → E → List E) (code : M → List E) : Prop where
  inserted : ∀ m e, ∀ i ∈ ins m e, N.isCall i = true
  code : ∀ m, ∀ e ∈ code m, N.isCall e = false

variable {th th' u : Thread M X R F} {ex : Option (Executed E M F G)} {g g' : G} {j : ℕ}
  {top : Activation M F} {cs : List (Activation M F)} {e : E}

lemma Follows.next (h : Follows ins code j th (.running top cs)) :
    (spliceAll ins code top.method)[top.pc]? = some e →
      (inserted ins code th)[j]? = some e ∨
        j = (inserted ins code th).length ∧ ∃ m, e ∈ code m := by
  intro he
  cases h with
  | @running _ a _ hj =>
    rw [show (place ins code a j).method = a.method from rfl, spliceAll_place hj] at he
    rcases hj.lt_or_eq with hlt | rfl
    · rw [List.getElem?_eq_getElem hlt] at he
      exact .inl (by rwa [inserted, List.getElem?_eq_getElem hlt])
    · rw [List.getElem?_eq_none le_rfl] at he
      exact .inr ⟨rfl, a.method, List.mem_of_getElem? he⟩

lemma ThreadStep.inserted (hs : K.ThreadStep code (th, g) ex (u, g')) :
    Code.inserted ins code th = ex.elim [] fun x => ins x.method x.event := by
  cases hs with
  | caught | leave => rfl
  | next he | goto he | invoke he | raise he | ret he | finish he => exact insertedAt_eq he

lemma ThreadStep.source (hs : K.ThreadStep code (.running top cs, g) ex (u, g')) :
    ∃ x, ex = some x ∧ (code top.method)[top.pc]? = some x.event := by
  cases hs with
  | next he | goto he | invoke he | raise he | ret he | finish he => exact ⟨_, rfl, he⟩

lemma ThreadStep.mem {x : Executed E M F G} (hs : K.ThreadStep code (th, g) (some x) (u, g')) :
    ∃ m, x.event ∈ code m := by
  cases hs with
  | next he | goto he | invoke he | raise he | ret he | finish he =>
    exact ⟨_, List.mem_of_getElem? he⟩

lemma Follows.level (hN : Serves N ins code) (h : Follows ins code j th th')
    (hs : K.ThreadStep (spliceAll ins code) (th', g) ex (u, g'))
    (hex : ∀ x, ex = some x → N.isCall x.event = false) :
    j = (Code.inserted ins code th).length := by
  cases h with
  | unwinding | finished => rfl
  | @running _ a callers hj hc =>
    obtain ⟨x, hx, he⟩ := ThreadStep.source hs
    rcases (Follows.running (X := X) (R := R) hj hc).next he with hi | ⟨hlen, -⟩
    · obtain ⟨e, hmem⟩ := mem_insertedAt (List.mem_of_getElem? hi)
      have := hN.inserted a.method e x.event hmem
      rw [hex x hx] at this
      cases this
    · exact hlen

variable {p p' : Pool M X R F G} {h h' : Hosted M X R F G A}
  {t : List (HostedAction E M F G α)} {a : HostedAction E M F G α} {i : ℕ} {x : α}

lemma HostTracks.find (hp : HostTracks ins code p h t) (hi : h.pool.threads[i]? = some th') :
    ∃ th j, p.threads[i]? = some th ∧ Follows ins code j th th' ∧
      (h.calling i = true → j < (inserted ins code th).length) ∧
      t.filterMap (HostedAction.begun i) =
        owed ins i t ++ (inserted ins code th).take (j + (h.calling i).toNat) := by
  have hthread := hp.thread i
  rw [hi] at hthread
  generalize hth : p.threads[i]? = th₀ at hthread
  cases hthread with
  | present hf hc hb => exact ⟨_, _, rfl, hf, hc, hb⟩

lemma HostTracks.started (hp : HostTracks ins code p h t) (m : M) (f : F) :
    HostTracks ins code ⟨p.threads ++ [.running ⟨m, 0, f⟩ []], p.memory⟩
      { h with pool := ⟨h.pool.threads ++ [.running ⟨m, 0, f⟩ []], h.pool.memory⟩ }
      (t ++ [.start]) := by
  have hlen := hp.length
  refine hp.update (i := p.threads.length) hp.memory (fun k hk => ?_) ?_
  · refine ⟨?_, ?_, rfl, rfl, rfl⟩
    · rw [List.getElem?_append]
      split
      · rfl
      · rw [List.getElem?_eq_none (by simp; omega), List.getElem?_eq_none (by omega)]
    · rw [List.getElem?_append]
      split
      · rfl
      · rw [List.getElem?_eq_none (by simp; omega), List.getElem?_eq_none (by omega)]
  · have hthread := hp.thread p.threads.length
    rw [List.getElem?_eq_none le_rfl, List.getElem?_eq_none hlen.le] at hthread
    generalize h.calling p.threads.length = calling at hthread ⊢
    generalize t.filterMap (HostedAction.begun p.threads.length) = begun at hthread ⊢
    generalize owed ins p.threads.length t = owed at hthread ⊢
    rw [List.getElem?_concat_length, ← hlen, List.getElem?_concat_length]
    cases hthread with
    | absent =>
      exact .present follows_start nofun rfl

lemma HostTracks.executed (hp : HostTracks ins code p h t) (hth : p.threads[i]? = some th)
    (hi : h.pool.threads[i]? = some th') (hc : h.calling i = false)
    (hb : t.filterMap (HostedAction.begun i) = owed ins i t ++ inserted ins code th)
    {v : Thread M X R F} (hv : K.ThreadStep code (th, g) ex (v, g'))
    (hf : Follows ins code 0 v u) :
    HostTracks ins code ⟨p.threads.set i v, g'⟩
      { h with pool := ⟨h.pool.threads.set i u, g'⟩ } (t ++ [.thread i ex]) := by
  have hins : Code.inserted ins code th = ex.elim [] fun x => ins x.method x.event :=
    ThreadStep.inserted hv
  obtain ⟨hlt, -⟩ := List.getElem?_eq_some_iff.mp hth
  obtain ⟨hlt', -⟩ := List.getElem?_eq_some_iff.mp hi
  refine hp.update (i := i) rfl (fun k hk => ?_) ?_
  · refine ⟨List.getElem?_set_ne hk.symm, List.getElem?_set_ne hk.symm, rfl, rfl, ?_⟩
    exact if_neg hk.symm
  · rw [List.getElem?_set_self hlt, List.getElem?_set_self hlt']
    refine .present hf ?_ ?_
    · intro hcall
      rw [hc] at hcall
      cases hcall
    · rw [hb, hc, hins]
      simp [HostedAction.begun, HostedAction.executedBy]

lemma HostTracks.step (hsep : ∀ m, Separate K.semantics (ins m)) (hN : Serves N ins code)
    (hp : HostTracks ins code p h t) (hs : K.HostedStep N (spliceAll ins code) h a h') :
    ∃ p', Run (K.Step code) p a.visible.toList p' ∧ HostTracks ins code p' h' (t ++ [a]) := by
  cases hs with
  | @start m f => exact ⟨_, .single .start, hp.started m f⟩
  | thread hi hc hs hex =>
    obtain ⟨th, j, hth, hf, -, hb⟩ := hp.find hi
    have hj := hf.level hN hs hex
    rw [hp.memory] at hs
    obtain ⟨v, hv, hfv⟩ := hf.step_back hsep hj hs
    rw [hc, hj, Bool.toNat_false, Nat.add_zero, List.take_length] at hb
    exact ⟨_, .single (.thread hth hv), hp.executed hth hi hc hb hv hfv⟩
  | @agent x a' hx =>
    refine ⟨p, .nil p, hp.memory, fun k => ?_⟩
    rw [begun_snoc, owed_snoc]
    simpa [HostedAction.begun, HostedAction.executedBy] using hp.thread k
  | @begins i top cs e a' hi hc he hcall hb' =>
    obtain ⟨th, j, hth, hf, -, hb⟩ := hp.find hi
    refine ⟨p, .nil p, hp.update (i := i) hp.memory (fun k hk => ?_) ?_⟩
    · exact ⟨rfl, rfl, Function.update_of_ne hk .., if_neg hk.symm, rfl⟩
    · have hj : (inserted ins code th)[j]? = some e := by
        rcases hf.next he with hj | ⟨-, m, hm⟩
        · exact hj
        · rw [hN.code m e hm] at hcall
          cases hcall
      simp only [hth, hi, Function.update_self]
      refine .present hf (fun _ => (List.getElem?_eq_some_iff.mp hj).1) ?_
      rw [hb, hc]
      simp [HostedAction.begun, HostedAction.executedBy, List.take_add_one, hj]
  | @ends i top cs hi hc hret =>
    obtain ⟨th, j, hth, hf, hlt, hb⟩ := hp.find hi
    obtain ⟨hlt', -⟩ := List.getElem?_eq_some_iff.mp hi
    refine ⟨p, .nil p, hp.update (i := i) hp.memory (fun k hk => ?_) ?_⟩
    · exact ⟨rfl, List.getElem?_set_ne hk.symm, Function.update_of_ne hk .., rfl, rfl⟩
    · simp only [hth, List.getElem?_set_self hlt', Function.update_self]
      refine .present (j := j + 1) ?_ nofun ?_
      · cases hf with
        | running _ hcs => exact .running (hlt hc) hcs
      · rw [hb, hc]
        simp [HostedAction.begun, HostedAction.executedBy]

lemma host_run {t' : List (HostedAction E M F G α)} (hsep : ∀ m, Separate K.semantics (ins m))
    (hN : Serves N ins code) (hp : HostTracks ins code p h t)
    (hr : Run (K.HostedStep N (spliceAll ins code)) h t' h') :
    ∃ p', Run (K.Step code) p (t'.filterMap HostedAction.visible) p' ∧
      HostTracks ins code p' h' (t ++ t') := by
  induction hr with
  | nil => exact ⟨p, .nil p, by rwa [List.append_nil]⟩
  | @snoc h₁ h₂ t' a _ hs ih =>
    obtain ⟨p₁, hr₁, hp₁⟩ := ih
    obtain ⟨p₂, hr₂, hp₂⟩ := hp₁.step hsep hN hs
    refine ⟨p₂, ?_, by rwa [← List.append_assoc]⟩
    have hv : [a].filterMap HostedAction.visible = a.visible.toList := by
      cases hv : a.visible <;> simp [hv]
    rw [List.filterMap_append, hv]
    exact hr₁.trans hr₂

end Served

/-- The agent lets every call begin and return, whatever the threads do, as long as `I` holds. -/
structure Agent.Responsive {E A α : Type} (N : Agent E A α) (I : A → Prop) : Prop where
  begins : ∀ i e a, I a → N.isCall e = true → N.returned i a → ∃ a', N.begins i e a a'
  begun : ∀ i e a a', I a → N.begins i e a a' →
    I a' ∧ ∀ k, k ≠ i → N.returned k a → N.returned k a'
  internal : ∀ x a a', I a → N.internal a x a' → I a' ∧ ∀ k, N.returned k a → N.returned k a'
  returns : ∀ a, I a → ∃ t a', Run N.internal a t a' ∧ ∀ k, N.returned k a'

structure Hosted.Idle {E M X R F G A α : Type} (N : Agent E A α) (I : A → Prop)
    (h : Hosted M X R F G A) : Prop where
  agent : I h.agent
  returned : ∀ i, h.calling i = false → N.returned i h.agent

section Responsive

variable {E L T M X R F G A α : Type} [DecidableEq L] {K : Machine E L T M X R F G}
  {N : Agent E A α} {I : A → Prop} {ins : M → E → List E} {code : M → List E}
  {p p' : Pool M X R F G} {h h' : Hosted M X R F G A} {t : List (HostedAction E M F G α)}
  {a : HostedAction E M F G α} {i : ℕ} {th th' : Thread M X R F}

lemma Hosted.Idle.step (hr : N.Responsive I) (hi : h.Idle N I)
    (hs : K.HostedStep N code h a h') : h'.Idle N I := by
  cases hs with
  | start | thread => exact ⟨hi.agent, hi.returned⟩
  | begins _ _ _ _ hb =>
    obtain ⟨ha, hret⟩ := hr.begun _ _ _ _ hi.agent hb
    refine ⟨ha, fun k hk => ?_⟩
    simp only [Function.update_apply] at hk
    split at hk
    · cases hk
    · next hne => exact hret k hne (hi.returned k hk)
  | ends _ _ hret =>
    refine ⟨hi.agent, fun k hk => ?_⟩
    simp only [Function.update_apply] at hk
    split at hk
    · next he => exact he ▸ hret
    · exact hi.returned k hk
  | agent hx =>
    obtain ⟨ha, hret⟩ := hr.internal _ _ _ hi.agent hx
    exact ⟨ha, fun k hk => hret k (hi.returned k hk)⟩

lemma Hosted.Idle.run {t' : List (HostedAction E M F G α)} (hr : N.Responsive I)
    (hi : h.Idle N I) (hrun : Run (K.HostedStep N code) h t' h') : h'.Idle N I :=
  hrun.invariant (Hosted.Idle N I) (fun _ _ _ hu hs => hu.step hr hs) hi

lemma agent_run (code : M → List E) {s : List α} {a' : A} (hs : Run N.internal h.agent s a') :
    Run (K.HostedStep N code) h (s.map .agent) { h with agent := a' } := by
  induction hs with
  | nil => exact .nil h
  | snoc _ hx ih =>
    rw [List.map_append]
    exact ih.snoc (.agent hx)

lemma call_ends (code : M → List E) (hr : N.Responsive I) (hi : h.Idle N I) {top : Activation M F}
    {cs : List (Activation M F)} (hth : h.pool.threads[i]? = some (.running top cs))
    (hc : h.calling i = true) :
    ∃ t' a', Run (K.HostedStep N code) h t'
      ⟨⟨h.pool.threads.set i (.running { top with pc := top.pc + 1 } cs), h.pool.memory⟩, a',
        Function.update h.calling i false⟩ ∧ t'.filterMap HostedAction.visible = [] := by
  obtain ⟨s, a', hs, hret⟩ := hr.returns _ hi.agent
  have hrun := (agent_run (K := K) code hs).snoc (.ends hth hc (hret i))
  refine ⟨_, a', hrun, ?_⟩
  simp [List.filterMap_append, HostedAction.visible, List.filterMap_map, Function.comp_def]

lemma pass_call (hr : N.Responsive I) (hi : h.Idle N I) {j : ℕ}
    (hth : h.pool.threads[i]? = some th') (hf : Follows ins code j th th')
    (hlt : j < (inserted ins code th).length) (hc : h.calling i = true) :
    ∃ t' h' u, Run (K.HostedStep N (spliceAll ins code)) h t' h' ∧
      t'.filterMap HostedAction.visible = [] ∧ h'.pool.threads[i]? = some u ∧
      h'.calling i = false ∧ Follows ins code (j + 1) th u := by
  cases hf with
  | unwinding | finished => cases hlt
  | running _ hcs =>
    obtain ⟨t', a', hrun, hv⟩ := call_ends (K := K) (spliceAll ins code) hr hi hth hc
    obtain ⟨hlen, -⟩ := List.getElem?_eq_some_iff.mp hth
    exact ⟨t', _, _, hrun, hv, List.getElem?_set_self hlen, Function.update_self ..,
      .running hlt hcs⟩

lemma begin_call (hN : Serves N ins code) (hr : N.Responsive I) (hi : h.Idle N I) {j : ℕ}
    (hth : h.pool.threads[i]? = some th') (hf : Follows ins code j th th')
    (hlt : j < (inserted ins code th).length) (hc : h.calling i = false) :
    ∃ e a', K.HostedStep N (spliceAll ins code) h (.begins i e)
      { h with agent := a', calling := Function.update h.calling i true } := by
  cases hf with
  | unwinding | finished => cases hlt
  | @running _ top cs hj =>
    have hlt : j < (insertedAt ins code top).length := hlt
    have he := spliceAll_place hj
    rw [List.getElem?_eq_getElem hlt, Option.some_or] at he
    have hcall : N.isCall (insertedAt ins code top)[j] = true := by
      obtain ⟨e, hmem⟩ := mem_insertedAt (List.getElem_mem hlt)
      exact hN.inserted top.method e _ hmem
    obtain ⟨a', ha⟩ := hr.begins i _ h.agent hi.agent hcall (hi.returned i hc)
    exact ⟨_, a', .begins hth hc he hcall ha⟩

/-- A thread can execute the inserted events that it has left, and the program stays where it is. -/
lemma catch_up (hN : Serves N ins code) (hr : N.Responsive I) (n : ℕ) {j : ℕ} (hi : h.Idle N I)
    (hth : h.pool.threads[i]? = some th') (hf : Follows ins code j th th')
    (hc : h.calling i = true → j < (inserted ins code th).length)
    (hn : (inserted ins code th).length - j = n) :
    ∃ t' h' u, Run (K.HostedStep N (spliceAll ins code)) h t' h' ∧
      t'.filterMap HostedAction.visible = [] ∧ h'.pool.threads[i]? = some u ∧
      h'.calling i = false ∧ Follows ins code (inserted ins code th).length th u := by
  induction n generalizing h th' j with
  | zero =>
    have hj : j = (inserted ins code th).length := by
      have := hf.le
      omega
    have hcalling : h.calling i = false := by
      cases hcall : h.calling i with
      | false => rfl
      | true =>
        have := hc hcall
        omega
    exact ⟨[], h, th', .nil h, rfl, hth, hcalling, hj ▸ hf⟩
  | succ n ih =>
    have hlt : j < (inserted ins code th).length := by omega
    -- the call that comes next is begun, if it has not been, and passed
    have hbegun : ∃ t₁ h₁, Run (K.HostedStep N (spliceAll ins code)) h t₁ h₁ ∧
        t₁.filterMap HostedAction.visible = [] ∧ h₁.pool.threads[i]? = some th' ∧
        h₁.calling i = true := by
      cases hcall : h.calling i with
      | true => exact ⟨[], h, .nil h, rfl, hth, hcall⟩
      | false =>
        obtain ⟨e, a', hs⟩ := begin_call (K := K) hN hr hi hth hf hlt hcall
        exact ⟨_, _, .single hs, rfl, hth, Function.update_self ..⟩
    obtain ⟨t₁, h₁, hr₁, hv₁, hth₁, hc₁⟩ := hbegun
    obtain ⟨t₂, h₂, u₂, hr₂, hv₂, hth₂, hc₂, hf₂⟩ :=
      pass_call (K := K) hr (hi.run hr hr₁) hth₁ hf hlt hc₁
    have hrun := hr₁.trans hr₂
    obtain ⟨t₃, h₃, u₃, hr₃, hv₃, hu₃⟩ := ih (hi.run hr hrun) hth₂ hf₂ (by simp [hc₂]) (by omega)
    refine ⟨_, h₃, u₃, hrun.trans hr₃, ?_, hu₃⟩
    rw [List.filterMap_append, List.filterMap_append, hv₁, hv₂, hv₃]
    rfl

lemma host_step (hsep : ∀ m, Separate K.semantics (ins m)) (hN : Serves N ins code)
    (hr : N.Responsive I) (hp : HostTracks ins code p h t) (hi : h.Idle N I)
    {b : PoolAction E M F G} (hs : K.Step code p b p') :
    ∃ t' h', Run (K.HostedStep N (spliceAll ins code)) h t' h' ∧
      t'.filterMap HostedAction.visible = [b] ∧ HostTracks ins code p' h' (t ++ t') := by
  cases hs with
  | @start m f => exact ⟨[.start], _, .single .start, rfl, hp.started m f⟩
  | @thread i th v g' ex hth hv =>
    obtain ⟨th', hth'⟩ : ∃ th', h.pool.threads[i]? = some th' := by
      rw [← Option.ne_none_iff_exists', ne_eq, ← (hp.thread i).none_iff, hth]
      nofun
    obtain ⟨th₀, j, hth₀, hf, hc, -⟩ := hp.find hth'
    obtain rfl := Option.some.inj (hth.symm.trans hth₀)
    obtain ⟨t₁, h₁, u, hr₁, hv₁, hu, hc₁, hf₁⟩ := catch_up (K := K) hN hr _ hi hth' hf hc rfl
    obtain ⟨p₁, hrp, hp₁⟩ := host_run hsep hN hp hr₁
    rw [hv₁] at hrp
    obtain rfl := hrp.nil_eq
    obtain ⟨u', hu', hf'⟩ := hf₁.step hsep rfl hv
    have hcalls : ∀ x, ex = some x → N.isCall x.event = false := by
      intro x hx
      rw [hx] at hv
      obtain ⟨m, hm⟩ := ThreadStep.mem hv
      exact hN.code m x.event hm
    rw [← hp₁.memory] at hu'
    have hb : (t ++ t₁).filterMap (HostedAction.begun i) =
        owed ins i (t ++ t₁) ++ inserted ins code th := by
      obtain ⟨th₁, j₁, hth₁, hf₂, -, hb⟩ := hp₁.find hu
      obtain rfl := Option.some.inj (hth.symm.trans hth₁)
      obtain rfl := hf₁.unique hf₂
      rw [hb, hc₁, Bool.toNat_false, Nat.add_zero, List.take_length]
    refine ⟨t₁ ++ [.thread i ex], _, hr₁.snoc (.thread hu hc₁ hu' hcalls), ?_, ?_⟩
    · rw [List.filterMap_append, hv₁]
      rfl
    · rw [← List.append_assoc]
      exact hp₁.executed hth hu hc₁ hb hv hf'

lemma host_forward {s : List (PoolAction E M F G)} (hsep : ∀ m, Separate K.semantics (ins m))
    (hN : Serves N ins code) (hr : N.Responsive I) (hp : HostTracks ins code p h t)
    (hi : h.Idle N I) (hs : Run (K.Step code) p s p') :
    ∃ t' h', Run (K.HostedStep N (spliceAll ins code)) h t' h' ∧
      t'.filterMap HostedAction.visible = s ∧ HostTracks ins code p' h' (t ++ t') := by
  induction hs with
  | nil => exact ⟨[], h, .nil h, rfl, by rwa [List.append_nil]⟩
  | snoc _ hstep ih =>
    obtain ⟨t₁, h₁, hr₁, hv₁, hp₁⟩ := ih
    obtain ⟨t₂, h₂, hr₂, hv₂, hp₂⟩ := host_step hsep hN hr hp₁ (hi.run hr hr₁) hstep
    refine ⟨t₁ ++ t₂, h₂, hr₁.trans hr₂, ?_, by rwa [← List.append_assoc]⟩
    rw [List.filterMap_append, hv₁, hv₂]

end Responsive

end PhasicJ.Code
