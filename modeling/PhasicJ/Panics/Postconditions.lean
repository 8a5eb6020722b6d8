import PhasicJ.Panics.Action

/-! Postconditions of actions that return or panic. -/

namespace PhasicJ.Panics.Action

variable {σ α β : Type}

/-- The action has a defined behaviour, and `P` holds of what it returns. -/
def Post (x : Action σ α) (s : σ) (P : α → σ → Prop) : Prop :=
  match x.run s with
  | .returned a u => P a u
  | .panicked _ _ => True
  | .undefined => False

variable {x : Action σ α} {f : α → Action σ β} {s u : σ} {a : α} {P Q : α → σ → Prop}
  {R : β → σ → Prop} {message : String}

lemma Post.of_returned (h : x.Post s P) (hr : x.run s = .returned a u) : P a u := by
  simpa only [Post, hr] using h

lemma Post.returns_or_panics (h : x.Post s P) :
    (∃ a u, x.run s = .returned a u ∧ P a u) ∨ ∃ message u, x.run s = .panicked message u := by
  unfold Post at h
  cases hr : x.run s with
  | returned a u => exact .inl ⟨a, u, rfl, by simpa only [hr] using h⟩
  | panicked message u => exact .inr ⟨message, u, rfl⟩
  | undefined => simp only [hr] at h

lemma post_of_returned (hr : x.run s = .returned a u) (h : P a u) : x.Post s P := by
  simpa only [Post, hr] using h

lemma post_of_panicked (hr : x.run s = .panicked message u) : x.Post s P := by
  simp only [Post, hr]

lemma Post.mono (h : x.Post s P) (hPQ : ∀ a u, P a u → Q a u) : x.Post s Q := by
  rcases h.returns_or_panics with ⟨a, u, hr, ha⟩ | ⟨message, u, hr⟩
  · exact post_of_returned hr (hPQ a u ha)
  · exact post_of_panicked hr

lemma Post.bind (h : x.Post s P) (hf : ∀ a u, P a u → (f a).Post u R) : (x >>= f).Post s R := by
  rcases h.returns_or_panics with ⟨a, u, hr, ha⟩ | ⟨message, u, hr⟩
  · rcases (hf a u ha).returns_or_panics with ⟨b, v, hr', hb⟩ | ⟨message, v, hr'⟩
    · exact post_of_returned ((bind_returned hr f).trans hr') hb
    · exact post_of_panicked ((bind_returned hr f).trans hr')
  · exact post_of_panicked (bind_panicked hr f)

lemma Post.bind_same (h : x.Post s fun _ u => u = s) (hf : ∀ a, (f a).Post s R) :
    (x >>= f).Post s R :=
  h.bind fun a _ hu => hu ▸ hf a

lemma post_pure (h : P a s) : (pure a : Action σ α).Post s P := h

lemma post_panic : (panic message : Action σ α).Post s P := trivial

lemma post_require {b : Bool} {P : Unit → σ → Prop} (h : b = true → P () s) :
    (require b message).Post s P := by
  cases b with
  | false => exact post_panic
  | true => exact post_pure (h rfl)

/-- From states with `I`, the action returns or panics in states with `J`. -/
def Leads (I J : σ → Prop) (x : Action σ α) : Prop :=
  ∀ s u, I s → (x.run s).state? = some u → J u

variable {I J K : σ → Prop}

lemma leads_pure (a : α) : Leads I I (pure a : Action σ α) := by
  intro s u hs hu
  cases hu
  exact hs

lemma leads_panic (message : String) : Leads I I (panic message : Action σ α) := by
  intro s u hs hu
  cases hu
  exact hs

lemma leads_require (b : Bool) (message : String) : Leads I I (require b message) := by
  cases b with
  | false => exact leads_panic message
  | true => exact leads_pure ()

lemma leads_returned {g : σ → α} {h : σ → σ} (hI : ∀ s, I s → J (h s)) :
    Leads I J (⟨fun s => .returned (g s) (h s)⟩ : Action σ α) := by
  intro s u hs hu
  cases hu
  exact hI s hs

lemma Leads.bind (hx : Leads I J x) (hf : ∀ a, Leads J K (f a)) (hK : ∀ s, J s → K s) :
    Leads I K (x >>= f) := by
  intro s u hs hu
  rw [run_bind] at hu
  cases hr : x.run s with
  | returned a v =>
    rw [hr] at hu
    exact hf a v u (hx s v hs (by rw [hr]; rfl)) hu
  | panicked message v =>
    rw [hr] at hu
    cases hu
    exact hK _ (hx s _ hs (by rw [hr]; rfl))
  | undefined =>
    rw [hr] at hu
    cases hu

lemma Leads.mono (hx : Leads I J x) (hJ : ∀ s, J s → K s) : Leads I K x :=
  fun s u hs hu => hJ u (hx s u hs hu)

lemma Leads.bind_same (hx : Leads I I x) (hf : ∀ a, Leads I I (f a)) : Leads I I (x >>= f) :=
  hx.bind hf fun _ hs => hs

lemma leads_forM {l : List β} {g : β → Action σ PUnit} (h : ∀ b ∈ l, Leads I I (g b)) :
    Leads I I (l.forM g) := by
  induction l with
  | nil => exact leads_pure ()
  | cons b l ih =>
    rw [List.forM_eq_forM, List.forM_cons]
    refine (h b List.mem_cons_self).bind_same fun _ => ih fun c hc => ?_
    exact h c (List.mem_cons_of_mem _ hc)

end PhasicJ.Panics.Action
