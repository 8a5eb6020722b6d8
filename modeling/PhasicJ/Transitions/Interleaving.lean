import PhasicJ.Transitions.LabelledRuns

/-! Components that are started one after another and take their steps in any order. -/

namespace PhasicJ.Transitions

variable {σ α : Type*}

inductive Interleaved (start : σ → Prop) (step : σ → α → σ → Prop) :
    List σ → Option (ℕ × α) → List σ → Prop
  | start {cs : List σ} {c : σ} : start c → Interleaved start step cs none (cs ++ [c])
  | step {cs : List σ} {i : ℕ} {c d : σ} {a : α} :
      cs[i]? = some c → step c a d → Interleaved start step cs (some (i, a)) (cs.set i d)

namespace Interleaved

variable {start : σ → Prop} {step step' : σ → α → σ → Prop} {cs ds : List σ} {c d : σ} {i : ℕ}
  {a : α} {t : List α} {l : List (Option (ℕ × α))}

lemma mono {b : Option (ℕ × α)} (h : Interleaved start step cs b ds)
    (hs : ∀ c a d, step c a d → step' c a d) : Interleaved start step' cs b ds := by
  cases h with
  | start hc => exact .start hc
  | step hi hc => exact .step hi (hs _ _ _ hc)

lemma forall_run (I : σ → Prop) (h : Run (Interleaved start step) cs l ds)
    (hstart : ∀ c, start c → I c) (hstep : ∀ c a d, I c → step c a d → I d)
    (hi : ∀ c ∈ cs, I c) : ∀ c ∈ ds, I c := by
  refine h.invariant (fun cs => ∀ c ∈ cs, I c) ?_ hi
  intro us b vs hu hb c hc
  cases hb with
  | @start c' hs =>
    rcases List.mem_append.mp hc with hc | hc
    · exact hu c hc
    · obtain rfl := List.mem_singleton.mp hc
      exact hstart c hs
  | step hj hs =>
    rcases List.mem_or_eq_of_mem_set hc with hc | rfl
    · exact hu c hc
    · exact hstep _ _ _ (hu _ (List.mem_of_getElem? hj)) hs

lemma component_run (I : σ → Prop) (h : Run (Interleaved start step) cs l ds)
    (hstep : ∀ c a d, I c → step c a d → I d) (hi : ∀ c, cs[i]? = some c → I c)
    (hlt : i < cs.length) : ∀ c, ds[i]? = some c → I c := by
  have hr := h.invariant (fun us => i < us.length ∧ ∀ c, us[i]? = some c → I c) ?_ ⟨hlt, hi⟩
  · exact hr.2
  · rintro us b vs ⟨hl, hu⟩ hb
    cases hb with
    | start hs =>
      refine ⟨by rw [List.length_append]; omega, fun c hc => hu c ?_⟩
      rwa [List.getElem?_append_left hl] at hc
    | @step j c' d' a hj hs =>
      refine ⟨by rwa [List.length_set], fun c hc => ?_⟩
      rcases eq_or_ne j i with rfl | hij
      · rw [List.getElem?_set_self hl] at hc
        obtain rfl := Option.some.inj hc
        exact hstep _ _ _ (hu _ hj) hs
      · rw [List.getElem?_set_ne hij] at hc
        exact hu c hc

lemma run_of_component (h : Run step c t d) (hi : cs[i]? = some c) :
    Run (Interleaved start step) cs (t.map fun a => some (i, a)) (cs.set i d) := by
  obtain ⟨hl, hc⟩ := List.getElem?_eq_some_iff.mp hi
  induction h with
  | nil =>
    rw [← hc, List.set_getElem_self]
    exact .nil _
  | @snoc d e t a hr hs ih =>
    have hd : (cs.set i d)[i]? = some d := List.getElem?_set_self hl
    have := ih.snoc (.step hd hs)
    rwa [List.set_set, ← List.map_singleton (f := fun a => some (i, a)), ← List.map_append] at this

end Interleaved

end PhasicJ.Transitions
