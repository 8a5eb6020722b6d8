import PhasicJ.Instr.Execution

/-! An instrumented body simulates the body, with the event calls as its only additional steps. -/

namespace PhasicJ.Instr

open Code Transitions

section Splitting

variable {α β : Type} {f : α → List β}

lemma flatMap_split {t : List α} {s xs ys : List β} {b : β}
    (h : t.flatMap f ++ s = xs ++ b :: ys) :
    (∃ t₁ a t₂ u v, t = t₁ ++ a :: t₂ ∧ f a = u ++ b :: v ∧ xs = t₁.flatMap f ++ u ∧
      ys = v ++ (t₂.flatMap f ++ s)) ∨
    ∃ u, s = u ++ b :: ys ∧ xs = t.flatMap f ++ u := by
  induction t generalizing xs with
  | nil => exact .inr ⟨xs, h, rfl⟩
  | cons a t ih =>
    have later : ∀ as : List β, xs = f a ++ as → t.flatMap f ++ s = as ++ b :: ys →
        (∃ t₁ a' t₂ u v, a :: t = t₁ ++ a' :: t₂ ∧ f a' = u ++ b :: v ∧
          xs = t₁.flatMap f ++ u ∧ ys = v ++ (t₂.flatMap f ++ s)) ∨
        ∃ u, s = u ++ b :: ys ∧ xs = (a :: t).flatMap f ++ u := by
      rintro as rfl hr
      rcases ih hr with ⟨t₁, a', t₂, u, v, rfl, hf, rfl, hy⟩ | ⟨u, hs, rfl⟩
      · exact .inl ⟨a :: t₁, a', t₂, u, v, rfl, hf, by simp, hy⟩
      · exact .inr ⟨u, hs, by simp⟩
    rw [List.flatMap_cons, List.append_assoc] at h
    rcases List.append_eq_append_iff.mp h with ⟨as, hx, hr⟩ | ⟨bs, hf, hr⟩
    · exact later as hx hr
    · cases bs with
      | nil => exact later [] (by simpa using hf.symm) (by simpa using hr.symm)
      | cons c v =>
        obtain ⟨rfl, hy⟩ := List.cons.inj hr
        exact .inl ⟨[], a, t, xs, v, rfl, hf, rfl, hy⟩

end Splitting

namespace MethodInstrumenter

variable {V H R : Type} {J : Jvm V H R} {eventHandlerClass : String} {body : List MethodEvent}

def monitorOps (t : List (Item MethodEvent (Frame V H))) : List (MethodEvent × Frame V H) :=
  (t.filter fun it => it.event.isMonitor).map fun it => (it.event, it.frame)

def frame? : Config V R (Frame V H) → Option (Frame V H)
  | .running _ f | .uncaught _ f => some f
  | .finished _ => none

lemma monitorCall_not_monitor {e call : MethodEvent}
    (h : monitorCall eventHandlerClass e = some call) : call.isMonitor = false := by
  rcases monitorCall_eq h with ⟨-, rfl⟩ | ⟨-, rfl⟩ <;> rfl

lemma run_expand {c d : Config V R (Frame V H)} {t : List (Item MethodEvent (Frame V H))}
    (hcalls : J.EventCallsReturn eventHandlerClass) (h : Run (J.semantics.Step body) c t d) :
    Run (J.semantics.Step (accept eventHandlerClass body)) (embed eventHandlerClass body c)
      (t.flatMap (expandItem eventHandlerClass body)) (embed eventHandlerClass body d) := by
  have hr := run_forward (Jvm.silent hcalls) h
  rwa [← accept_eq, ← embed_eq, ← embed_eq, ← funext expandItem_eq] at hr

lemma run_origin {c d' : Config V R (Frame V H)} {t' : List (Item MethodEvent (Frame V H))}
    (hcalls : J.EventCallsReturn eventHandlerClass)
    (h : Run (J.semantics.Step (accept eventHandlerClass body)) (embed eventHandlerClass body c)
      t' d') :
    ∃ t d s, Run (J.semantics.Step body) c t d ∧
      t' = t.flatMap (expandItem eventHandlerClass body) ++ s ∧
      Ahead eventHandlerClass body d s d' := by
  rw [accept_eq, embed_eq] at h
  obtain ⟨t, d, s, hr, ht, hp⟩ := run_backward (Jvm.silent hcalls) h
  exact ⟨t, d, s, hr, by rw [ht, funext expandItem_eq], ahead_of_partway hp⟩

lemma expandItem_cases {it it' : Item MethodEvent (Frame V H)}
    {u v : List (Item MethodEvent (Frame V H))} (hi : body[it.pc]? = some it.event)
    (h : expandItem eventHandlerClass body it = u ++ it' :: v) :
    (∃ call, monitorCall eventHandlerClass it.event = some call ∧ u = [] ∧
      it' = ⟨place eventHandlerClass body it.pc, call, it.frame⟩ ∧
      v = [⟨place eventHandlerClass body it.pc + 1, it.event, it.frame⟩]) ∨
    (∃ call, monitorCall eventHandlerClass it.event = some call ∧
      u = [⟨place eventHandlerClass body it.pc, call, it.frame⟩] ∧
      it' = ⟨place eventHandlerClass body it.pc + 1, it.event, it.frame⟩ ∧ v = [] ∧
      ¬ InsertedAt eventHandlerClass body it'.pc) ∨
    (monitorCall eventHandlerClass it.event = none ∧ u = [] ∧
      it' = ⟨place eventHandlerClass body it.pc, it.event, it.frame⟩ ∧ v = [] ∧
      ¬ InsertedAt eventHandlerClass body it'.pc) := by
  have hn := not_inserted eventHandlerClass hi
  cases hc : monitorCall eventHandlerClass it.event with
  | none =>
    simp only [inserted, hc, Option.toList_none, List.length_nil, Nat.add_zero] at hn
    simp only [expandItem, hc] at h
    obtain ⟨rfl, rfl, rfl⟩ : u = [] ∧ it' = _ ∧ v = [] := by
      cases u with
      | nil => simpa [eq_comm] using h
      | cons => simp at h
    exact .inr (.inr ⟨rfl, rfl, rfl, rfl, hn⟩)
  | some call =>
    simp only [inserted, hc, Option.toList_some, List.length_singleton] at hn
    simp only [expandItem, hc] at h
    rcases u with _ | ⟨x, _ | ⟨y, u⟩⟩
    · obtain ⟨rfl, rfl⟩ := List.cons.inj h
      exact .inl ⟨call, rfl, rfl, rfl, rfl⟩
    · simp only [List.cons_append, List.nil_append, List.cons.injEq] at h
      obtain ⟨rfl, rfl, rfl⟩ := h
      exact .inr (.inl ⟨call, rfl, rfl, rfl, rfl, hn⟩)
    · have := congrArg List.length h
      simp at this

variable (eventHandlerClass body) in
lemma monitorOps_expand (t : List (Item MethodEvent (Frame V H))) :
    monitorOps (t.flatMap (expandItem eventHandlerClass body)) = monitorOps t := by
  induction t with
  | nil => rfl
  | cons it t ih =>
    have hi : monitorOps (expandItem eventHandlerClass body it) = monitorOps [it] := by
      unfold expandItem
      cases hc : monitorCall eventHandlerClass it.event with
      | none => cases hm : it.event.isMonitor <;> simp [monitorOps, hm]
      | some call =>
        cases hm : it.event.isMonitor <;> simp [monitorOps, hm, monitorCall_not_monitor hc]
    have ha : ∀ xs ys : List (Item MethodEvent (Frame V H)),
        monitorOps (xs ++ ys) = monitorOps xs ++ monitorOps ys := by
      intro xs ys
      simp [monitorOps]
    rw [List.flatMap_cons, ha, ih, hi, ← ha]
    rfl

lemma Ahead.monitorOps {d d' : Config V R (Frame V H)} {s : List (Item MethodEvent (Frame V H))}
    (h : Ahead eventHandlerClass body d s d') : monitorOps s = [] := by
  cases h with
  | level => rfl
  | called f he hc => simp [MethodInstrumenter.monitorOps, monitorCall_not_monitor hc]

lemma Ahead.frame? {d d' : Config V R (Frame V H)} {s : List (Item MethodEvent (Frame V H))}
    (h : Ahead eventHandlerClass body d s d') : frame? d' = frame? d := by
  cases h with
  | level => cases d <;> rfl
  | called => rfl

lemma items_at {c d : Config V R (Frame V H)} {t : List (Item MethodEvent (Frame V H))}
    (h : Run (J.semantics.Step body) c t d) : ∀ it ∈ t, body[it.pc]? = some it.event := by
  refine h.trace_invariant (fun t _ => ∀ it ∈ t, body[it.pc]? = some it.event) ?_ (by simp)
  intro t u a v ht hs it hit
  rcases List.mem_append.mp hit with hit | hit
  · exact ht it hit
  · obtain rfl := List.mem_singleton.mp hit
    exact hs.source.2

lemma expand_last {t : List (Item MethodEvent (Frame V H))}
    (ht : ∀ it ∈ t, body[it.pc]? = some it.event) {last : Item MethodEvent (Frame V H)}
    (h : (t.flatMap (expandItem eventHandlerClass body)).getLast? = some last) :
    ¬ InsertedAt eventHandlerClass body last.pc := by
  obtain ⟨xs, hxs⟩ := List.getLast?_eq_some_iff.mp h
  rcases flatMap_split (show _ ++ [] = xs ++ last :: [] by simpa using hxs) with
    ⟨t₁, a, t₂, u, v, rfl, ha, -, hv⟩ | ⟨u, hu, -⟩
  · rcases expandItem_cases (ht a (by simp)) ha with
      ⟨call, -, -, -, rfl⟩ | ⟨_, -, -, -, -, hn⟩ | ⟨-, -, -, -, hn⟩
    · simp at hv
    · exact hn
    · exact hn
  · simp at hu

lemma calls_before {t s : List (Item MethodEvent (Frame V H))} {d d' : Config V R (Frame V H)}
    (ht : ∀ it ∈ t, body[it.pc]? = some it.event) (hs : Ahead eventHandlerClass body d s d') :
    CallsBefore eventHandlerClass body
      (t.flatMap (expandItem eventHandlerClass body) ++ s) := by
  intro xs it ys he hm
  rcases flatMap_split he with ⟨t₁, a, t₂, u, v, rfl, ha, hx, -⟩ | ⟨u, hu, -⟩
  · have hi := ht a (by simp)
    rcases expandItem_cases hi ha with
      ⟨call, hc, -, rfl, -⟩ | ⟨call, hc, rfl, rfl, -, -⟩ | ⟨hc, -, rfl, -, -⟩
    · rw [monitorCall_not_monitor hc] at hm
      cases hm
    · exact ⟨_, _, call, rfl, ⟨_, _, hi, hm, rfl⟩, hc, hx, fun last hl =>
        expand_last (fun it hit => ht it (by simp [hit])) hl⟩
    · rw [← monitorCall_isSome eventHandlerClass, hc] at hm
      cases hm
  · cases hs with
    | level => simp at hu
    | called f hb hc =>
      obtain rfl : it = _ := by
        cases u with
        | nil => exact (List.cons.inj hu).1.symm
        | cons => simp at hu
      rw [monitorCall_not_monitor hc] at hm
      cases hm

lemma monitors_after {t s : List (Item MethodEvent (Frame V H))} {d d' : Config V R (Frame V H)}
    (ht : ∀ it ∈ t, body[it.pc]? = some it.event) (hs : Ahead eventHandlerClass body d s d') :
    MonitorsAfter eventHandlerClass body
      (t.flatMap (expandItem eventHandlerClass body) ++ s) d' := by
  have hcode : ∀ {pc : ℕ} {e call : MethodEvent}, body[pc]? = some e →
      monitorCall eventHandlerClass e = some call →
      (accept eventHandlerClass body)[place eventHandlerClass body pc + 1]? = some e := by
    intro pc e call he hc
    have ho := splice_original (inserted eventHandlerClass) he
    rwa [← accept_eq, inserted, hc] at ho
  intro xs it ys he hq
  rcases flatMap_split he with ⟨t₁, a, t₂, u, v, rfl, ha, -, hy⟩ | ⟨u, hu, -⟩
  · have hi := ht a (by simp)
    rcases expandItem_cases hi ha with
      ⟨call, hc, -, rfl, rfl⟩ | ⟨_, -, -, -, -, hn⟩ | ⟨-, -, -, -, hn⟩
    · exact ⟨a.event, hc, hcode hi hc, .inr ⟨_, hy⟩⟩
    · exact absurd hq hn
    · exact absurd hq hn
  · cases hs with
    | level => simp at hu
    | @called pc e call f hb hc =>
      obtain ⟨rfl, rfl⟩ : it = _ ∧ ys = [] := by
        cases u with
        | nil => exact ⟨(List.cons.inj hu).1.symm, (List.cons.inj hu).2.symm⟩
        | cons => simp at hu
      exact ⟨e, hc, hcode hb hc, .inl ⟨rfl, rfl⟩⟩

structure Simulates (J : Jvm V H R) (eventHandlerClass : String) (body : List MethodEvent)
    (c : Config V R (Frame V H)) : Prop where
  forward : ∀ t d, Run (J.semantics.Step body) c t d →
    Run (J.semantics.Step (accept eventHandlerClass body)) (embed eventHandlerClass body c)
      (t.flatMap (expandItem eventHandlerClass body)) (embed eventHandlerClass body d)
  backward : ∀ t' d', Run (J.semantics.Step (accept eventHandlerClass body))
    (embed eventHandlerClass body c) t' d' →
    ∃ t d s, Run (J.semantics.Step body) c t d ∧
      t' = t.flatMap (expandItem eventHandlerClass body) ++ s ∧
      Ahead eventHandlerClass body d s d' ∧ frame? d' = frame? d ∧ monitorOps t' = monitorOps t
  calls : ∀ t' d', Run (J.semantics.Step (accept eventHandlerClass body))
    (embed eventHandlerClass body c) t' d' → CallsBefore eventHandlerClass body t'
  monitors : ∀ t' d', Run (J.semantics.Step (accept eventHandlerClass body))
    (embed eventHandlerClass body c) t' d' → MonitorsAfter eventHandlerClass body t' d'
  maxs : (accept eventHandlerClass body).filter MethodEvent.isMaxs =
    body.filter MethodEvent.isMaxs
  depth : ∀ (size : V → ℕ) (m : ℕ),
    (∀ t d f, Run (J.semantics.Step body) c t d → frame? d = some f → f.depth size ≤ m) →
    ∀ t' d' f, Run (J.semantics.Step (accept eventHandlerClass body))
      (embed eventHandlerClass body c) t' d' → frame? d' = some f → f.depth size ≤ m

/-- Instrumentation preserves the meaning of every body, from every configuration. -/
theorem accept_simulates (J : Jvm V H R) (eventHandlerClass : String)
    (hcalls : J.EventCallsReturn eventHandlerClass) (body : List MethodEvent)
    (c : Config V R (Frame V H)) : Simulates J eventHandlerClass body c where
  forward _ _ h := run_expand hcalls h
  backward t' d' h := by
    obtain ⟨t, d, s, hr, rfl, ha⟩ := run_origin hcalls h
    refine ⟨t, d, s, hr, rfl, ha, ha.frame?, ?_⟩
    rw [← monitorOps_expand eventHandlerClass body t,
      ← List.append_nil (monitorOps (t.flatMap _)), ← ha.monitorOps]
    simp [monitorOps]
  calls t' d' h := by
    obtain ⟨t, d, s, hr, rfl, ha⟩ := run_origin hcalls h
    exact calls_before (items_at hr) ha
  monitors t' d' h := by
    obtain ⟨t, d, s, hr, rfl, ha⟩ := run_origin hcalls h
    exact monitors_after (items_at hr) ha
  maxs := accept_filter (fun _ => rfl) body
  depth size m hm t' d' f h hf := by
    obtain ⟨t, d, s, hr, -, ha⟩ := run_origin hcalls h
    exact hm t d f hr (ha.frame?.symm.trans hf)

def smallEffect : MethodEvent → Frame ℕ (List ℕ) → Effect Label ℕ Unit (Frame ℕ (List ℕ))
  | .varInsn 25 i, f => .next { f with stack := f.locals.getD i 0 :: f.stack }
  | .insn 194, ⟨o :: stack, locals, held⟩ => .next ⟨stack, locals, o :: held⟩
  | .insn 195, ⟨o :: stack, locals, held⟩ => .next ⟨stack, locals, held.erase o⟩
  | .jumpInsn 167 l, f => .goto l f
  | .insn 177, _ => .finish ()
  | _, f => .next f

def smallJvm : Jvm ℕ (List ℕ) Unit where
  effect e f x := x = smallEffect e f
  instanceOf _ _ := false
  metadata e f x h := by cases e <;> first | rfl | cases h

def smallBody : List MethodEvent :=
  [.code, .varInsn 25 0, .jumpInsn 167 0, .label 0, .insn Opcodes.MONITORENTER, .varInsn 25 0,
    .insn Opcodes.MONITOREXIT, .insn 177, .maxs 1 1, .methodEnd]

theorem accept_simulates_small :
    Simulates smallJvm "java/lang/Object" smallBody (.running 0 ⟨[], [7], []⟩) :=
  accept_simulates smallJvm "java/lang/Object" (by
    intro e call h f x
    rcases monitorCall_eq h with ⟨-, rfl⟩ | ⟨-, rfl⟩ <;> rfl) smallBody _

end MethodInstrumenter

end PhasicJ.Instr
