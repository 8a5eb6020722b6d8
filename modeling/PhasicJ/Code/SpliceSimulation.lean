import PhasicJ.Code.Splicing

/-! Runs of spliced code: each is a run of the code with the inserted events between its steps. -/

namespace PhasicJ.Code

open Transitions

variable {E L T X R F : Type}

def insertedItems (ins : E → List E) (code : List E) (it : Item E F) : List (Item E F) :=
  (ins it.event).mapIdx fun j i => ⟨offset ins code it.pc + j, i, it.frame⟩

def movedItem (ins : E → List E) (code : List E) (it : Item E F) : Item E F :=
  ⟨offset ins code it.pc + (ins it.event).length, it.event, it.frame⟩

def expand (ins : E → List E) (code : List E) (it : Item E F) : List (Item E F) :=
  insertedItems ins code it ++ [movedItem ins code it]

variable [DecidableEq L] {S : Semantics E L T X R F} {ins : E → List E} {code : List E}

lemma step_moved (hs : Silent S ins) {pc : ℕ} {e : E} (he : code[pc]? = some e) (f : F)
    (it : Item E F) (d' : Config X R F) :
    S.Step (splice ins code) (.running (offset ins code pc + (ins e).length) f) it d' ↔
      ∃ d, S.Step code (.running pc f) ⟨pc, e, f⟩ d ∧ it = movedItem ins code ⟨pc, e, f⟩ ∧
        d' = d.embed ins code := by
  have ho := splice_original ins he
  have hn := offset_succ ins he
  constructor
  · intro h
    cases h with
    | next h₁ h₂ =>
      obtain rfl := Option.some.inj (ho.symm.trans h₁)
      exact ⟨_, .next he h₂, rfl, by rw [Config.embed, hn]⟩
    | goto h₁ h₂ h₃ =>
      obtain rfl := Option.some.inj (ho.symm.trans h₁)
      rw [position_splice hs] at h₃
      obtain ⟨q, hq, rfl⟩ := Option.map_eq_some_iff.mp h₃
      exact ⟨_, .goto he h₂ hq, rfl, rfl⟩
    | caught h₁ h₂ h₃ h₄ =>
      obtain rfl := Option.some.inj (ho.symm.trans h₁)
      rw [dispatch_splice hs he] at h₃
      rw [position_splice hs] at h₄
      obtain ⟨q, hq, rfl⟩ := Option.map_eq_some_iff.mp h₄
      exact ⟨_, .caught he h₂ h₃ hq, rfl, rfl⟩
    | uncaught h₁ h₂ h₃ =>
      obtain rfl := Option.some.inj (ho.symm.trans h₁)
      rw [dispatch_splice hs he] at h₃
      exact ⟨_, .uncaught he h₂ h₃, rfl, rfl⟩
    | finish h₁ h₂ =>
      obtain rfl := Option.some.inj (ho.symm.trans h₁)
      exact ⟨_, .finish he h₂, rfl, rfl⟩
  · rintro ⟨d, h, rfl, rfl⟩
    cases h with
    | next _ h₂ =>
      rw [Config.embed, hn]
      exact .next ho h₂
    | goto _ h₂ h₃ => exact .goto ho h₂ (by rw [position_splice hs, h₃]; rfl)
    | caught _ h₂ h₃ h₄ =>
      exact .caught ho h₂ (by rwa [dispatch_splice hs he]) (by rw [position_splice hs, h₄]; rfl)
    | uncaught _ h₂ h₃ => exact .uncaught ho h₂ (by rwa [dispatch_splice hs he])
    | finish _ h₂ => exact .finish ho h₂

lemma step_inserted (hs : Silent S ins) {pc : ℕ} {e : E} (he : code[pc]? = some e) {j : ℕ}
    (hj : j < (ins e).length) (f : F) (it : Item E F) (d' : Config X R F) :
    S.Step (splice ins code) (.running (offset ins code pc + j) f) it d' ↔
      it = ⟨offset ins code pc + j, (ins e)[j], f⟩ ∧
        d' = .running (offset ins code pc + (j + 1)) f := by
  have hi := splice_inserted ins he hj
  have heff := hs.effect e _ (List.getElem_mem hj) f
  constructor
  · intro h
    cases h with
    | next h₁ h₂ =>
      obtain rfl := Option.some.inj (hi.symm.trans h₁)
      cases (heff _).mp h₂
      exact ⟨rfl, rfl⟩
    | goto h₁ h₂ | caught h₁ h₂ | uncaught h₁ h₂ | finish h₁ h₂ =>
      obtain rfl := Option.some.inj (hi.symm.trans h₁)
      cases (heff _).mp h₂
  · rintro ⟨rfl, rfl⟩
    exact .next hi ((heff _).mpr rfl)

lemma inserted_take (it : Item E F) {j : ℕ} (hj : j < (ins it.event).length) :
    (insertedItems ins code it).take (j + 1) =
      (insertedItems ins code it).take j ++
        [⟨offset ins code it.pc + j, (ins it.event)[j], it.frame⟩] := by
  rw [List.take_add_one, insertedItems, List.getElem?_mapIdx, List.getElem?_eq_getElem hj]
  rfl

lemma inserted_run (hs : Silent S ins) {pc : ℕ} {e : E} (he : code[pc]? = some e) (f : F) (j : ℕ)
    (hj : j ≤ (ins e).length) :
    Run (S.Step (splice ins code)) (.running (offset ins code pc) f)
      ((insertedItems ins code ⟨pc, e, f⟩).take j) (.running (offset ins code pc + j) f) := by
  induction j with
  | zero => exact .nil _
  | succ j ih =>
    rw [inserted_take ⟨pc, e, f⟩ hj]
    exact (ih (by omega)).snoc ((step_inserted hs he hj f _ _).mpr ⟨rfl, rfl⟩)

lemma inserted_take_all (pc : ℕ) (e : E) (f : F) :
    (insertedItems ins code ⟨pc, e, f⟩).take (ins e).length =
      insertedItems ins code ⟨pc, e, f⟩ := by
  simp [insertedItems]

lemma step_forward (hs : Silent S ins) {c d : Config X R F} {it : Item E F}
    (h : S.Step code c it d) :
    Run (S.Step (splice ins code)) (c.embed ins code) (expand ins code it) (d.embed ins code) := by
  obtain ⟨pc, e, f⟩ := it
  obtain ⟨rfl, he⟩ := h.source
  have hr := inserted_run hs he f (ins e).length le_rfl
  rw [inserted_take_all] at hr
  exact hr.snoc ((step_moved hs he f _ _).mpr ⟨d, h, rfl, rfl⟩)

lemma run_forward (hs : Silent S ins) {c d : Config X R F} {t : List (Item E F)}
    (h : Run (S.Step code) c t d) :
    Run (S.Step (splice ins code)) (c.embed ins code) (t.flatMap (expand ins code))
      (d.embed ins code) := by
  induction h with
  | nil => exact .nil _
  | snoc _ hs' ih =>
    rw [List.flatMap_append]
    simpa using ih.trans (step_forward hs hs')

/-- The spliced code has caught up with a configuration, or it is inside the group of the event
that the configuration executes next. -/
inductive Partway (ins : E → List E) (code : List E) :
    Config X R F → List (Item E F) → Config X R F → Prop
  | whole (d : Config X R F) : Partway ins code d [] (d.embed ins code)
  | inserted {pc : ℕ} {e : E} (f : F) {j : ℕ} :
      code[pc]? = some e → j < (ins e).length →
      Partway ins code (.running pc f) ((insertedItems ins code ⟨pc, e, f⟩).take (j + 1))
        (.running (offset ins code pc + (j + 1)) f)

lemma Partway.step (hs : Silent S ins) {d d' v : Config X R F} {t : List (Item E F)}
    {it : Item E F} (h : Partway ins code d t d') (hv : S.Step (splice ins code) d' it v) :
    Partway ins code d (t ++ [it]) v ∨
      ∃ a w, S.Step code d a w ∧ t ++ [it] = expand ins code a ∧ v = w.embed ins code := by
  -- at offset `j` of a group the next item is an inserted one or, at its end, the event itself
  have group : ∀ {pc : ℕ} {e : E} {f : F} {j : ℕ}, code[pc]? = some e → j ≤ (ins e).length →
      S.Step (splice ins code) (.running (offset ins code pc + j) f) it v →
      Partway ins code (.running pc f)
          ((insertedItems ins code ⟨pc, e, f⟩).take j ++ [it]) v ∨
        ∃ a w, S.Step code (.running pc f) a w ∧
          (insertedItems ins code ⟨pc, e, f⟩).take j ++ [it] = expand ins code a ∧
          v = w.embed ins code := by
    intro pc e f j he hj hstep
    rcases hj.lt_or_eq with hlt | rfl
    · obtain ⟨rfl, rfl⟩ := (step_inserted hs he hlt f it v).mp hstep
      rw [← inserted_take ⟨pc, e, f⟩ hlt]
      exact .inl (.inserted f he hlt)
    · obtain ⟨w, hw, rfl, rfl⟩ := (step_moved hs he f it v).mp hstep
      rw [inserted_take_all]
      exact .inr ⟨_, w, hw, rfl, rfl⟩
  cases h with
  | inserted f he hj => exact group he hj hv
  | whole =>
    cases d with
    | finished r => exact absurd hv.source.1 (by simp [Config.embed])
    | uncaught x f => exact absurd hv.source.1 (by simp [Config.embed])
    | running pc f =>
      cases he : code[pc]? with
      | none =>
        obtain ⟨hc, hi⟩ := hv.source
        simp only [Config.embed, Config.running.injEq] at hc
        rw [← hc.1, splice_end ins he] at hi
        cases hi
      | some e => exact group (j := 0) he (Nat.zero_le _) hv

lemma run_backward (hs : Silent S ins) {c d' : Config X R F} {t' : List (Item E F)}
    (h : Run (S.Step (splice ins code)) (c.embed ins code) t' d') :
    ∃ t d s, Run (S.Step code) c t d ∧ t' = t.flatMap (expand ins code) ++ s ∧
      Partway ins code d s d' := by
  refine h.trace_invariant (fun t' d' => ∃ t d s, Run (S.Step code) c t d ∧
    t' = t.flatMap (expand ins code) ++ s ∧ Partway ins code d s d') ?_
    ⟨[], c, [], .nil c, rfl, .whole c⟩
  rintro _ u a v ⟨t, d, s, hr, rfl, hp⟩ hv
  rcases hp.step hs hv with hp' | ⟨b, w, hw, he, rfl⟩
  · exact ⟨t, d, s ++ [a], hr, by rw [List.append_assoc], hp'⟩
  · refine ⟨t ++ [b], w, [], hr.snoc hw, ?_, .whole w⟩
    rw [List.append_assoc, he, List.flatMap_append]
    simp

end PhasicJ.Code
