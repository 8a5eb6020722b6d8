import PhasicJ.Code.Splicing
import PhasicJ.Code.Threads

/-! Threads in spliced methods take the steps that they take in the methods. -/

namespace PhasicJ.Code

open Transitions

section Places

variable {E M X R F : Type} (ins : M → E → List E) (code : M → List E)

def spliceAll (m : M) : List E := splice (ins m) (code m)

def insertedAt (a : Activation M F) : List E :=
  ((code a.method)[a.pc]?).elim [] (ins a.method)

def place (a : Activation M F) (j : ℕ) : Activation M F :=
  { a with pc := offset (ins a.method) (code a.method) a.pc + j }

def moved (a : Activation M F) : Activation M F := place ins code a (insertedAt ins code a).length

def HasEvent (a : Activation M F) : Prop := ((code a.method)[a.pc]?).isSome

def inserted : Thread M X R F → List E
  | .running top _ => insertedAt ins code top
  | .unwinding _ _ | .finished _ => []

/-- The second thread has executed `j` of the events that were inserted before the event that the
first one executes next. -/
inductive Follows : ℕ → Thread M X R F → Thread M X R F → Prop
  | running {j : ℕ} {top : Activation M F} {callers : List (Activation M F)} :
      j ≤ (insertedAt ins code top).length → (∀ c ∈ callers, HasEvent code c) →
      Follows j (.running top callers) (.running (place ins code top j)
        (callers.map (moved ins code)))
  | unwinding {x : X} {stack : List (Activation M F)} :
      (∀ c ∈ stack, HasEvent code c) →
      Follows 0 (.unwinding x stack) (.unwinding x (stack.map (moved ins code)))
  | finished {r : R} : Follows 0 (.finished r) (.finished r)

variable {ins code} {m : M} {pc q j : ℕ} {e : E} {f : F}

lemma insertedAt_eq (he : (code m)[pc]? = some e) :
    insertedAt ins code (⟨m, pc, f⟩ : Activation M F) = ins m e := by
  rw [insertedAt, he, Option.elim_some]

lemma moved_eq (he : (code m)[pc]? = some e) :
    moved ins code (⟨m, pc, f⟩ : Activation M F) =
      ⟨m, offset (ins m) (code m) pc + (ins m e).length, f⟩ := by
  rw [moved, insertedAt_eq he, place]

lemma place_next (he : (code m)[pc]? = some e) :
    place ins code (⟨m, pc + 1, f⟩ : Activation M F) 0 =
      ⟨m, offset (ins m) (code m) pc + (ins m e).length + 1, f⟩ := by
  rw [place, offset_succ (ins m) he, Nat.add_zero]

lemma mem_insertedAt {a : Activation M F} (h : e ∈ insertedAt ins code a) :
    ∃ e', e ∈ ins a.method e' := by
  rw [insertedAt] at h
  cases hcode : (code a.method)[a.pc]? with
  | none => simp [hcode] at h
  | some e' => exact ⟨e', by simpa [hcode] using h⟩

lemma spliceAll_place {a : Activation M F} (hj : j ≤ (insertedAt ins code a).length) :
    (spliceAll ins code a.method)[(place ins code a j).pc]? =
      (insertedAt ins code a)[j]?.or (code a.method)[a.pc]? := by
  obtain ⟨m, pc, f⟩ := a
  cases he : (code m)[pc]? with
  | none =>
    simp only [insertedAt, he, Option.elim_none, List.length_nil, Nat.le_zero] at hj ⊢
    subst hj
    exact splice_end (ins m) he
  | some e =>
    rw [insertedAt_eq he] at hj ⊢
    rcases hj.lt_or_eq with hlt | rfl
    · rw [List.getElem?_eq_getElem hlt]
      exact splice_inserted (ins m) he hlt
    · rw [List.getElem?_eq_none le_rfl]
      exact splice_original (ins m) he

lemma Follows.le {th th' : Thread M X R F} (h : Follows ins code j th th') :
    j ≤ (inserted ins code th).length := by
  cases h with
  | running hj => exact hj
  | unwinding | finished => exact Nat.zero_le _

lemma Follows.pc_eq {top top' : Activation M F} {cs cs' : List (Activation M F)}
    (h : Follows (X := X) (R := R) ins code j (.running top cs) (.running top' cs')) :
    top'.pc = offset (ins top.method) (code top.method) top.pc + j := by
  cases h
  rfl

lemma Follows.unique {k : ℕ} {th th' : Thread M X R F} (h : Follows ins code j th th')
    (h' : Follows ins code k th th') : j = k := by
  cases h with
  | unwinding | finished => cases h'; rfl
  | running hj hc =>
    have hpc := (Follows.running (X := X) (R := R) hj hc).pc_eq
    rw [h'.pc_eq] at hpc
    omega

lemma Follows.erased {th th' : Thread M X R F} (h : Follows ins code j th th') :
    th'.erased = th.erased := by
  have hm : ∀ c : Activation M F, (Activation.erased ∘ moved ins code) c = c.erased := fun _ => rfl
  cases h with
  | running =>
    simp only [Thread.erased, List.map_cons, List.map_map, funext hm]
    rfl
  | unwinding => simp only [Thread.erased, List.map_map, funext hm]
  | finished => rfl

lemma follows_next {cs : List (Activation M F)} (he : (code m)[pc]? = some e)
    (hc : ∀ c ∈ cs, HasEvent code c) :
    Follows (X := X) (R := R) ins code 0 (.running ⟨m, pc + 1, f⟩ cs)
      (.running ⟨m, offset (ins m) (code m) pc + (ins m e).length + 1, f⟩
        (cs.map (moved ins code))) := by
  rw [← place_next he]
  exact .running (Nat.zero_le _) hc

lemma follows_at {cs : List (Activation M F)} (hc : ∀ c ∈ cs, HasEvent code c) :
    Follows (X := X) (R := R) ins code 0 (.running ⟨m, q, f⟩ cs)
      (.running ⟨m, offset (ins m) (code m) q, f⟩ (cs.map (moved ins code))) :=
  .running (j := 0) (Nat.zero_le _) hc

lemma follows_start : Follows (X := X) (R := R) ins code 0 (.running ⟨m, 0, f⟩ [])
    (.running ⟨m, 0, f⟩ []) :=
  follows_at nofun

lemma hasEvent_cons {cs : List (Activation M F)} (he : (code m)[pc]? = some e)
    (hc : ∀ c ∈ cs, HasEvent code c) : ∀ c ∈ (⟨m, pc, f⟩ : Activation M F) :: cs,
      HasEvent code c := by
  intro c hmem
  rcases List.mem_cons.mp hmem with rfl | hmem
  · rw [HasEvent, he]
    rfl
  · exact hc c hmem

lemma follows_invoke {m' : M} {callee : F} {cs : List (Activation M F)}
    (he : (code m)[pc]? = some e) (hc : ∀ c ∈ cs, HasEvent code c) :
    Follows (X := X) (R := R) ins code 0 (.running ⟨m', 0, callee⟩ (⟨m, pc, f⟩ :: cs))
      (.running ⟨m', 0, callee⟩ (⟨m, offset (ins m) (code m) pc + (ins m e).length, f⟩ ::
        cs.map (moved ins code))) := by
  rw [← moved_eq he, ← List.map_cons]
  exact follows_at (q := 0) (hasEvent_cons he hc)

lemma follows_raise {x : X} {cs : List (Activation M F)} (he : (code m)[pc]? = some e)
    (hc : ∀ c ∈ cs, HasEvent code c) :
    Follows (R := R) ins code 0 (.unwinding x (⟨m, pc, f⟩ :: cs))
      (.unwinding x (⟨m, offset (ins m) (code m) pc + (ins m e).length, f⟩ ::
        cs.map (moved ins code))) := by
  rw [← moved_eq he, ← List.map_cons]
  exact .unwinding (hasEvent_cons he hc)

end Places

section Threads

variable {E L T M X R F G : Type} [DecidableEq L] {K : Machine E L T M X R F G}
  {ins : M → E → List E} {code : M → List E} {th th' u u' : Thread M X R F}
  {ex : Option (Executed E M F G)} {g g' : G} {j : ℕ}

/-- A thread that has executed the inserted events takes the step of the thread that it follows. -/
lemma Follows.step (hsep : ∀ m, Separate K.semantics (ins m))
    (h : Follows ins code j th th') (hj : j = (inserted ins code th).length)
    (hs : K.ThreadStep code (th, g) ex (u, g')) :
    ∃ u', K.ThreadStep (spliceAll ins code) (th', g) ex (u', g') ∧ Follows ins code 0 u u' := by
  cases h with
  | finished => cases hs
  | @unwinding x stack hc =>
    cases stack with
    | nil => cases hs
    | cons a cs =>
      obtain ⟨m, pc, f⟩ := a
      obtain ⟨e, he⟩ := Option.isSome_iff_exists.mp (hc _ List.mem_cons_self)
      have hcs : ∀ c ∈ cs, HasEvent code c := fun c hmem => hc c (List.mem_cons_of_mem _ hmem)
      have hdisp := (hsep m).dispatch he
      rw [List.map_cons, moved_eq he]
      cases hs with
      | caught hd hp =>
        refine ⟨_, .caught (by rwa [spliceAll, hdisp]) ?_, follows_at hcs⟩
        rw [spliceAll, (hsep m).position, hp, Option.map_some]
      | leave hd => exact ⟨_, .leave (by rwa [spliceAll, hdisp]), .unwinding hcs⟩
  | @running _ top cs _ hcs =>
    subst hj
    obtain ⟨m, pc, f⟩ := top
    have hmoved : ∀ {e}, (code m)[pc]? = some e →
        place ins code ⟨m, pc, f⟩ (inserted (X := X) (R := R) ins code
          (.running ⟨m, pc, f⟩ cs)).length =
        ⟨m, offset (ins m) (code m) pc + (ins m e).length, f⟩ := fun he => moved_eq he
    have ho : ∀ {e}, (code m)[pc]? = some e →
        (spliceAll ins code m)[offset (ins m) (code m) pc + (ins m e).length]? = some e :=
      fun he => splice_original (ins m) he
    cases hs with
    | next he heff =>
      rw [hmoved he]
      exact ⟨_, .next (ho he) heff, follows_next he hcs⟩
    | goto he heff hp =>
      rw [hmoved he]
      refine ⟨_, .goto (ho he) heff ?_, follows_at hcs⟩
      rw [spliceAll, (hsep m).position, hp, Option.map_some]
    | invoke he hinv =>
      rw [hmoved he]
      exact ⟨_, .invoke (ho he) hinv, follows_invoke he hcs⟩
    | raise he heff =>
      rw [hmoved he]
      exact ⟨_, .raise (ho he) heff, follows_raise he hcs⟩
    | finish he heff =>
      rw [hmoved he]
      exact ⟨_, .finish (ho he) heff, .finished⟩
    | @ret _ _ _ _ _ _ _ c cs he heff =>
      obtain ⟨m', pc', f'⟩ := c
      obtain ⟨e', he'⟩ := Option.isSome_iff_exists.mp (hcs _ List.mem_cons_self)
      rw [hmoved he, List.map_cons, moved_eq he']
      exact ⟨_, .ret (ho he) heff,
        follows_next he' fun c hmem => hcs c (List.mem_cons_of_mem _ hmem)⟩

lemma Follows.step_back (hsep : ∀ m, Separate K.semantics (ins m))
    (h : Follows ins code j th th') (hj : j = (inserted ins code th).length)
    (hs : K.ThreadStep (spliceAll ins code) (th', g) ex (u', g')) :
    ∃ u, K.ThreadStep code (th, g) ex (u, g') ∧ Follows ins code 0 u u' := by
  cases h with
  | finished => cases hs
  | @unwinding x stack hc =>
    cases stack with
    | nil => cases hs
    | cons a cs =>
      obtain ⟨m, pc, f⟩ := a
      obtain ⟨e, he⟩ := Option.isSome_iff_exists.mp (hc _ List.mem_cons_self)
      have hcs : ∀ c ∈ cs, HasEvent code c := fun c hmem => hc c (List.mem_cons_of_mem _ hmem)
      have hdisp := (hsep m).dispatch he
      rw [List.map_cons, moved_eq he] at hs
      cases hs with
      | caught hd hp =>
        rw [spliceAll, hdisp] at hd
        rw [spliceAll, (hsep m).position] at hp
        obtain ⟨q, hq, rfl⟩ := Option.map_eq_some_iff.mp hp
        exact ⟨_, .caught hd hq, follows_at hcs⟩
      | leave hd =>
        rw [spliceAll, hdisp] at hd
        exact ⟨_, .leave hd, .unwinding hcs⟩
  | @running _ top cs _ hcs =>
    subst hj
    obtain ⟨m, pc, f⟩ := top
    have hnone : (code m)[pc]? = none →
        (spliceAll ins code m)[offset (ins m) (code m) pc + (inserted (X := X) (R := R) ins code
          (.running ⟨m, pc, f⟩ cs)).length]? = none := by
      intro hn
      have hlen : inserted (X := X) (R := R) ins code (.running ⟨m, pc, f⟩ cs) = [] := by
        rw [inserted, insertedAt, hn, Option.elim_none]
      rw [hlen]
      exact splice_end (ins m) hn
    have hev : ∀ {e}, (spliceAll ins code m)[offset (ins m) (code m) pc +
        (inserted (X := X) (R := R) ins code (.running ⟨m, pc, f⟩ cs)).length]? = some e →
        (code m)[pc]? = some e := by
      intro e h'
      cases he : (code m)[pc]? with
      | none => simp [hnone he] at h'
      | some e' =>
        rw [inserted, insertedAt_eq he, spliceAll, splice_original (ins m) he] at h'
        exact h'
    generalize hcs' : cs.map (moved ins code) = cs' at hs
    cases hs with
    | next h' heff =>
      have he := hev h'
      refine ⟨_, .next he heff, ?_⟩
      rw [inserted, insertedAt_eq he, ← hcs']
      exact follows_next he hcs
    | goto h' heff hp =>
      rw [spliceAll, (hsep m).position] at hp
      obtain ⟨q, hq, rfl⟩ := Option.map_eq_some_iff.mp hp
      rw [← hcs']
      exact ⟨_, .goto (hev h') heff hq, follows_at hcs⟩
    | invoke h' hinv =>
      have he := hev h'
      refine ⟨_, .invoke he hinv, ?_⟩
      rw [inserted, insertedAt_eq he, ← hcs']
      exact follows_invoke he hcs
    | raise h' heff =>
      have he := hev h'
      refine ⟨_, .raise he heff, ?_⟩
      rw [inserted, insertedAt_eq he, ← hcs']
      exact follows_raise he hcs
    | finish h' heff =>
      obtain rfl := List.map_eq_nil_iff.mp hcs'
      exact ⟨_, .finish (hev h') heff, .finished⟩
    | ret h' heff =>
      obtain ⟨⟨m', pc', f'⟩, cs'', rfl, hc, rfl⟩ := List.map_eq_cons_iff.mp hcs'
      obtain ⟨e', he'⟩ := Option.isSome_iff_exists.mp (hcs _ List.mem_cons_self)
      rw [← hc, moved_eq he']
      exact ⟨_, .ret (hev h') heff,
        follows_next he' fun c hmem => hcs c (List.mem_cons_of_mem _ hmem)⟩

end Threads

end PhasicJ.Code
