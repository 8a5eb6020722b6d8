import Mathlib.Tactic

/-! Parsing expression grammars whose non-atomic rules skip whitespace between their parts. -/

namespace PhasicJ.Peg

variable {R α β : Type}

inductive Expr (R : Type) where
  | str (s : List Char)
  | range (first last : Char)
  | startOfInput
  | endOfInput
  | ident (r : R)
  | seq (a b : Expr R)
  | choice (a b : Expr R)
  | opt (a : Expr R)
  | rep (a : Expr R)

def Expr.repOnce (a : Expr R) : Expr R := .seq a (.rep a)

inductive Atomicity where
  | atomic
  | nonAtomic

inductive RuleType where
  | normal
  | silent
  | atomic

structure Grammar (R : Type) where
  type : R → RuleType
  expr : R → Expr R
  whitespace : R

inductive Pair (R : Type) where
  | mk (rule : R) (text : List Char) (inner : List (Pair R))

def Pair.rule : Pair R → R
  | .mk r _ _ => r

def Pair.text : Pair R → List Char
  | .mk _ t _ => t

def Pair.inner : Pair R → List (Pair R)
  | .mk _ _ ps => ps

/-- `size` is the length of the whole input and `rest` what is left of it. -/
structure State (R : Type) where
  size : ℕ
  rest : List Char
  queue : List (Pair R)

def State.pos (s : State R) : ℕ := s.size - s.rest.length

def State.advance (s : State R) (n : ℕ) : State R := { s with rest := s.rest.drop n }

/-- `outOfFuel` stands for an evaluation that was cut off; it is never a match or a mismatch. -/
inductive Outcome (α : Type) where
  | ok (a : α)
  | fail
  | outOfFuel

namespace Outcome

def bind : Outcome α → (α → Outcome β) → Outcome β
  | .ok a, f => f a
  | .fail, _ => .fail
  | .outOfFuel, _ => .outOfFuel

def orElse : Outcome α → Outcome α → Outcome α
  | .fail, y => y
  | x, _ => x

@[simp] lemma bind_ok (a : α) (f : α → Outcome β) : (Outcome.ok a).bind f = f a := rfl

@[simp] lemma bind_fail (f : α → Outcome β) : (Outcome.fail : Outcome α).bind f = .fail := rfl

@[simp] lemma orElse_ok (a : α) (y : Outcome α) : (Outcome.ok a).orElse y = .ok a := rfl

@[simp] lemma orElse_fail (y : Outcome α) : (Outcome.fail : Outcome α).orElse y = y := rfl

end Outcome

abbrev Parser (R : Type) := State R → Outcome (State R)

def iterate (f : Parser R) : ℕ → Parser R
  | 0, _ => .outOfFuel
  | n + 1, s =>
    match f s with
    | .ok t => iterate f n t
    | .fail => .ok s
    | .outOfFuel => .outOfFuel

def repeatAll (f : Parser R) : Parser R := fun s => iterate f (s.rest.length + 1) s

def matchString (cs : List Char) : Parser R := fun s =>
  if cs <+: s.rest then .ok (s.advance cs.length) else .fail

def charMatcher (p : Char → Bool) : Parser R := fun s =>
  match s.rest with
  | c :: _ => if p c then .ok (s.advance 1) else .fail
  | [] => .fail

section Evaluation

variable (call : R → Atomicity → Parser R) (whitespace : R)

def skip : Atomicity → Parser R
  | .atomic => .ok
  | .nonAtomic => repeatAll (call whitespace .atomic)

def eval (m : Atomicity) : Expr R → Parser R
  | .str cs => matchString cs
  | .range a b => charMatcher fun c => a ≤ c && c ≤ b
  | .startOfInput => fun s => if s.pos = 0 then .ok s else .fail
  | .endOfInput => fun s => if s.rest = [] then .ok s else .fail
  | .ident r => call r m
  | .seq a b => fun s => (eval m a s).bind fun t => (skip call whitespace m t).bind (eval m b)
  | .choice a b => fun s => (eval m a s).orElse (eval m b s)
  | .opt a => fun s => (eval m a s).orElse (.ok s)
  | .rep a => fun s =>
    ((eval m a s).bind
      (repeatAll fun t => (skip call whitespace m t).bind (eval m a))).orElse (.ok s)

end Evaluation

/-- A rule below an atomic one leaves no node of its own. -/
def State.close (m : Atomicity) (r : R) (s t : State R) : State R :=
  match m with
  | .atomic => { t with queue := s.queue ++ t.queue }
  | .nonAtomic =>
    { t with queue := s.queue ++ [.mk r (s.rest.take (s.rest.length - t.rest.length)) t.queue] }

def Grammar.call (g : Grammar R) : ℕ → R → Atomicity → Parser R
  | 0, _, _ => fun _ => .outOfFuel
  | n + 1, r, m =>
    match g.type r with
    | .silent => eval (g.call n) g.whitespace m (g.expr r)
    | .normal => fun s =>
      (eval (g.call n) g.whitespace m (g.expr r) { s with queue := [] }).bind
        fun t => .ok (s.close m r t)
    | .atomic => fun s =>
      (eval (g.call n) g.whitespace .atomic (g.expr r) { s with queue := [] }).bind
        fun t => .ok (s.close m r t)

section Suffixes

def Advances (f : Parser R) : Prop := ∀ s t, f s = .ok t → t.rest <:+ s.rest

lemma Outcome.bind_eq_ok {x : Outcome α} {f : α → Outcome β} {b : β} (h : x.bind f = .ok b) :
    ∃ a, x = .ok a ∧ f a = .ok b := by
  cases x with
  | ok a => exact ⟨a, rfl, h⟩
  | fail => simp at h
  | outOfFuel => exact absurd h (by simp [Outcome.bind])

lemma Outcome.orElse_eq_ok {x y : Outcome α} {a : α} (h : x.orElse y = .ok a) :
    x = .ok a ∨ y = .ok a := by
  cases x with
  | ok b => exact .inl h
  | fail => exact .inr h
  | outOfFuel => exact .inl h

lemma Advances.bind {f g : Parser R} (hf : Advances f) (hg : Advances g) :
    Advances fun s => (f s).bind g := by
  intro s t h
  obtain ⟨u, hu, ht⟩ := Outcome.bind_eq_ok h
  exact (hg u t ht).trans (hf s u hu)

lemma Advances.orElse {f g : Parser R} (hf : Advances f) (hg : Advances g) :
    Advances fun s => (f s).orElse (g s) := by
  intro s t h
  exact (Outcome.orElse_eq_ok h).elim (hf s t) (hg s t)

lemma Advances.ok : Advances (.ok : Parser R) := by
  rintro s t ⟨⟩
  exact List.suffix_refl _

lemma Advances.iterate {f : Parser R} (hf : Advances f) (n : ℕ) : Advances (iterate f n) := by
  induction n with
  | zero => intro s t h; simp [Peg.iterate] at h
  | succ n ih =>
    intro s t h
    cases hs : f s with
    | ok u => exact (ih u t (by simpa [Peg.iterate, hs] using h)).trans (hf s u hs)
    | fail =>
      obtain rfl : s = t := by simpa [Peg.iterate, hs] using h
      exact List.suffix_refl _
    | outOfFuel => simp [Peg.iterate, hs] at h

lemma Advances.repeatAll {f : Parser R} (hf : Advances f) : Advances (repeatAll f) :=
  fun s t h => hf.iterate _ s t h

lemma advances_drop (n : ℕ) : Advances (fun s => .ok (s.advance n) : Parser R) := by
  rintro s t ⟨⟩
  exact List.drop_suffix n s.rest

lemma eval_advances {call : R → Atomicity → Parser R} (whitespace : R)
    (hc : ∀ r m, Advances (call r m)) (m : Atomicity) (e : Expr R) :
    Advances (eval call whitespace m e) := by
  have hs : Advances (skip call whitespace m) := by
    cases m with
    | atomic => exact .ok
    | nonAtomic => exact (hc whitespace .atomic).repeatAll
  induction e with
  | str cs =>
    intro s t h
    simp only [eval, matchString] at h
    split at h
    · exact advances_drop _ s t h
    · simp at h
  | range a b =>
    intro s t h
    simp only [eval, charMatcher] at h
    split at h
    · split at h
      · exact advances_drop 1 s t h
      · simp at h
    · simp at h
  | startOfInput | endOfInput =>
    intro s t h
    simp only [eval] at h
    split at h
    · exact Advances.ok s t h
    · simp at h
  | ident r => exact hc r m
  | seq a b iha ihb => exact iha.bind (hs.bind ihb)
  | choice a b iha ihb => exact iha.orElse ihb
  | opt a ih => exact ih.orElse .ok
  | rep a ih => exact (ih.bind (hs.bind ih).repeatAll).orElse .ok

lemma Grammar.call_advances (g : Grammar R) (n : ℕ) (r : R) (m : Atomicity) :
    Advances (g.call n r m) := by
  induction n generalizing r m with
  | zero => intro s t h; simp [Grammar.call] at h
  | succ n ih =>
    have he := eval_advances g.whitespace ih
    have hclose : ∀ (m' : Atomicity), Advances fun s =>
        (eval (g.call n) g.whitespace m' (g.expr r) { s with queue := [] }).bind
          fun t => .ok (s.close m r t) := by
      intro m' s t h
      obtain ⟨u, hu, ht⟩ := Outcome.bind_eq_ok h
      obtain rfl : s.close m r u = t := by simpa using ht
      have hh := he m' (g.expr r) _ u hu
      cases m <;> exact hh
    simp only [Grammar.call]
    cases g.type r with
    | silent => exact he m (g.expr r)
    | normal => exact hclose m
    | atomic => exact hclose .atomic

end Suffixes

def Grammar.parse (g : Grammar R) (fuel : ℕ) (r : R) (input : List Char) :
    Outcome (List (Pair R)) :=
  (g.call fuel r .nonAtomic ⟨input.length, input, []⟩).bind fun s => .ok s.queue

end PhasicJ.Peg
