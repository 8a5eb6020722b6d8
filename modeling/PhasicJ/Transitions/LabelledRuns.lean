import Mathlib.Tactic

/-! Runs of labelled transition relations, with the trace of their labels. -/

namespace PhasicJ.Transitions

variable {σ α : Type*}

inductive Run (step : σ → α → σ → Prop) : σ → List α → σ → Prop
  | nil (s : σ) : Run step s [] s
  | snoc {s u v : σ} {t : List α} {a : α} :
      Run step s t u → step u a v → Run step s (t ++ [a]) v

def Reachable (step : σ → α → σ → Prop) (init : σ → Prop) (u : σ) : Prop :=
  ∃ s t, init s ∧ Run step s t u

lemma trace_snoc_cases {t t₁ t₂ : List α} {a b : α} (h : t ++ [a] = t₁ ++ b :: t₂) :
    t = t₁ ∧ a = b ∨ ∃ t₃, t = t₁ ++ b :: t₃ := by
  rcases List.eq_nil_or_concat' t₂ with rfl | ⟨t₃, c, rfl⟩
  · exact .inl (List.append_singleton_inj.mp h)
  · rw [← List.cons_append, ← List.append_assoc] at h
    exact .inr ⟨t₃, (List.append_singleton_inj.mp h).1⟩

namespace Run

variable {step : σ → α → σ → Prop} {s u v : σ} {t t' : List α} {a : α}

lemma single (h : step s a u) : Run step s [a] u := by
  simpa using Run.snoc (.nil s) h

lemma trans (h : Run step s t u) (h' : Run step u t' v) : Run step s (t ++ t') v := by
  induction h' with
  | nil => simpa using h
  | snoc _ hs ih => simpa only [List.append_assoc] using Run.snoc ih hs

lemma cons (h : step s a u) (h' : Run step u t v) : Run step s (a :: t) v :=
  (single h).trans h'

lemma nil_eq (h : Run step s [] u) : s = u := by
  generalize he : ([] : List α) = t at h
  cases h with
  | nil => rfl
  | snoc _ _ => simp at he

lemma snoc_split (h : Run step s (t ++ [a]) v) : ∃ u, Run step s t u ∧ step u a v := by
  generalize he : t ++ [a] = r at h
  cases h with
  | nil => simp at he
  | snoc hr hs =>
    obtain ⟨rfl, rfl⟩ := List.append_singleton_inj.mp he
    exact ⟨_, hr, hs⟩

lemma split (h : Run step s (t ++ t') v) : ∃ u, Run step s t u ∧ Run step u t' v := by
  induction t' using List.reverseRecOn generalizing v with
  | nil => exact ⟨v, by simpa using h, .nil v⟩
  | append_singleton t' a ih =>
    rw [← List.append_assoc] at h
    obtain ⟨w, hr, hs⟩ := h.snoc_split
    obtain ⟨u, hu, hw⟩ := ih hr
    exact ⟨u, hu, hw.snoc hs⟩

lemma cons_split (h : Run step s (a :: t) v) : ∃ u, step s a u ∧ Run step u t v := by
  obtain ⟨u, hu, hv⟩ := split (t := [a]) (by simpa using h)
  obtain ⟨w, hw, hs⟩ := snoc_split (t := []) (by simpa using hu)
  exact ⟨u, hw.nil_eq ▸ hs, hv⟩

lemma mid_split (h : Run step s (t ++ a :: t') v) :
    ∃ u w, Run step s t u ∧ step u a w ∧ Run step w t' v := by
  obtain ⟨u, hu, hrest⟩ := h.split
  obtain ⟨w, hs, hw⟩ := hrest.cons_split
  exact ⟨u, w, hu, hs, hw⟩

lemma invariant (I : σ → Prop) (hs : ∀ u a v, I u → step u a v → I v)
    (h : Run step s t u) (hi : I s) : I u := by
  induction h with
  | nil => exact hi
  | snoc _ he ih => exact hs _ _ _ ih he

lemma trace_invariant (I : List α → σ → Prop)
    (hs : ∀ t u a v, I t u → step u a v → I (t ++ [a]) v)
    (h : Run step s t u) (hi : I [] s) : I t u := by
  induction h with
  | nil => exact hi
  | snoc _ he ih => exact hs _ _ _ _ ih he

lemma mono {step' : σ → α → σ → Prop} (h : Run step s t u)
    (hs : ∀ u a v, step u a v → step' u a v) : Run step' s t u := by
  induction h with
  | nil => exact .nil _
  | snoc _ he ih => exact ih.snoc (hs _ _ _ he)

/-- Steps that each bring the measure down lead to the goal. -/
lemma until_goal {I goal : σ → Prop} {allowed : α → Prop} (m : σ → ℕ)
    (hs : ∀ u, I u → ¬ goal u → ∃ a v, allowed a ∧ step u a v ∧ I v ∧ m v < m u) (hi : I s) :
    ∃ t u, Run step s t u ∧ (∀ a ∈ t, allowed a) ∧ I u ∧ goal u := by
  induction hn : m s using Nat.strong_induction_on generalizing s with
  | _ n ih =>
    by_cases hg : goal s
    · exact ⟨[], s, .nil s, by simp, hi, hg⟩
    obtain ⟨a, v, ha, hstep, hv, hlt⟩ := hs s hi hg
    obtain ⟨t, u, hr, ht, hu⟩ := ih (m v) (hn ▸ hlt) hv rfl
    exact ⟨a :: t, u, .cons hstep hr, List.forall_mem_cons.mpr ⟨ha, ht⟩, hu⟩

end Run

lemma Reachable.invariant {step : σ → α → σ → Prop} {init : σ → Prop} {u : σ}
    (h : Reachable step init u) (I : σ → Prop) (hi : ∀ s, init s → I s)
    (hs : ∀ u a v, I u → step u a v → I v) : I u := by
  obtain ⟨s, t, hs₀, hr⟩ := h
  exact hr.invariant I hs (hi s hs₀)

lemma Reachable.step {step : σ → α → σ → Prop} {init : σ → Prop} {u v : σ} {a : α}
    (h : Reachable step init u) (hs : step u a v) : Reachable step init v := by
  obtain ⟨s, t, hs₀, hr⟩ := h
  exact ⟨s, t ++ [a], hs₀, hr.snoc hs⟩

end PhasicJ.Transitions
