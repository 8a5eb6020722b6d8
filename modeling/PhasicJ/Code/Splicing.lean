import PhasicJ.Code.LabelledCode

/-! Splicing silent events into labelled code preserves its runs. -/

namespace PhasicJ.Code

open Transitions

variable {E L T X R F : Type}

/-- The code with the events `ins e` directly before each event `e`. -/
def splice (ins : E → List E) (code : List E) : List E := code.flatMap fun e => ins e ++ [e]

def offset (ins : E → List E) (code : List E) (pc : ℕ) : ℕ := (splice ins (code.take pc)).length

section Places

variable (ins : E → List E) {code : List E} {pc q : ℕ} {e : E}

lemma splice_append (xs ys : List E) : splice ins (xs ++ ys) = splice ins xs ++ splice ins ys :=
  List.flatMap_append

lemma splice_cons (e : E) (code : List E) :
    splice ins (e :: code) = ins e ++ e :: splice ins code := by
  simp [splice]

@[simp] lemma offset_zero : offset ins code 0 = 0 := rfl

lemma offset_succ (h : code[pc]? = some e) :
    offset ins code (pc + 1) = offset ins code pc + (ins e).length + 1 := by
  rw [offset, List.take_add_one, h, Option.toList_some, splice_append, splice_cons,
    List.length_append, List.length_append, List.length_cons]
  rfl

lemma offset_mono {c : List E} (h : pc ≤ q) : offset ins c pc ≤ offset ins c q := by
  obtain ⟨k, rfl⟩ := Nat.exists_eq_add_of_le h
  rw [offset, offset, List.take_add, splice_append, List.length_append]
  omega

lemma offset_lt (h : code[pc]? = some e) (hq : pc < q) :
    offset ins code pc + (ins e).length < offset ins code q := by
  have h₁ := offset_succ ins h
  have h₂ := offset_mono ins (c := code) (show pc + 1 ≤ q from hq)
  omega

lemma splice_split (h : code[pc]? = some e) :
    splice ins code =
      splice ins (code.take pc) ++ (ins e ++ e :: splice ins (code.drop (pc + 1))) := by
  obtain ⟨hlt, rfl⟩ := List.getElem?_eq_some_iff.mp h
  have hd : code = code.take pc ++ code[pc] :: code.drop (pc + 1) := by
    rw [← List.drop_eq_getElem_cons hlt, List.take_append_drop]
  calc splice ins code = splice ins (code.take pc ++ code[pc] :: code.drop (pc + 1)) :=
        congrArg _ hd
    _ = _ := by rw [splice_append, splice_cons]

lemma splice_inserted (h : code[pc]? = some e) {j : ℕ} (hj : j < (ins e).length) :
    (splice ins code)[offset ins code pc + j]? = some (ins e)[j] := by
  rw [splice_split ins h, offset, List.getElem?_append_right (by omega), Nat.add_sub_cancel_left,
    List.getElem?_append_left hj, List.getElem?_eq_getElem hj]

lemma splice_original (h : code[pc]? = some e) :
    (splice ins code)[offset ins code pc + (ins e).length]? = some e := by
  rw [splice_split ins h, offset, List.getElem?_append_right (by omega), Nat.add_sub_cancel_left,
    List.getElem?_append_right (by omega), Nat.sub_self]
  rfl

lemma splice_end (h : code[pc]? = none) : (splice ins code)[offset ins code pc]? = none := by
  rw [offset, List.take_of_length_le (List.getElem?_eq_none_iff.mp h)]
  simp

end Places

/-- The inserted events are no labels and no table entries, never stand before a label, and leave
every frame as it is. -/
structure Silent (S : Semantics E L T X R F) (ins : E → List E) : Prop where
  label : ∀ e, ∀ i ∈ ins e, S.label? i = none
  handler : ∀ e, ∀ i ∈ ins e, S.handler? i = none
  before_label : ∀ e, (S.label? e).isSome → ins e = []
  effect : ∀ e, ∀ i ∈ ins e, ∀ f x, S.effect i f x ↔ x = .next f

def Config.embed (ins : E → List E) (code : List E) : Config X R F → Config X R F
  | .running pc f => .running (offset ins code pc) f
  | .finished r => .finished r
  | .uncaught x f => .uncaught x f

section Lookup

variable [DecidableEq L] {S : Semantics E L T X R F} {ins : E → List E} {code : List E}

lemma findIdx?_splice {p : E → Bool} (hi : ∀ e, ∀ i ∈ ins e, p i = false)
    (hp : ∀ e, p e → ins e = []) (code : List E) :
    (splice ins code).findIdx? p = (code.findIdx? p).map (offset ins code) := by
  induction code with
  | nil => rfl
  | cons e code ih =>
    have ho : ∀ q, offset ins (e :: code) (q + 1) = offset ins code q + ((ins e).length + 1) := by
      intro q
      simp only [offset, List.take_succ_cons, splice_cons, List.length_append, List.length_cons]
      omega
    have hn : (ins e).findIdx? p = none := List.findIdx?_eq_none_iff.mpr (hi e)
    rw [splice_cons, List.findIdx?_append, hn, List.findIdx?_cons, List.findIdx?_cons]
    cases hpe : p e with
    | true => simp [hp e hpe]
    | false =>
      rw [ih]
      cases code.findIdx? p with
      | none => simp
      | some q => simp [ho]; omega

lemma position_splice (hs : Silent S ins) (code : List E) (l : L) :
    S.position (splice ins code) l = (S.position code l).map (offset ins code) := by
  apply findIdx?_splice
  · intro e i hi
    simp [hs.label e i hi]
  · intro e he
    apply hs.before_label
    simp_all

omit [DecidableEq L] in
lemma handlers_splice (hs : Silent S ins) (code : List E) :
    (splice ins code).filterMap S.handler? = code.filterMap S.handler? := by
  induction code with
  | nil => rfl
  | cons e code ih =>
    have hn : (ins e).filterMap S.handler? = [] := List.filterMap_eq_nil_iff.mpr (hs.handler e)
    rw [splice_cons, List.filterMap_append, hn, List.nil_append, List.filterMap_cons,
      List.filterMap_cons, ih]

lemma covers_splice (hs : Silent S ins) {pc : ℕ} {e : E} (he : code[pc]? = some e)
    (h : Handler L T) :
    S.covers (splice ins code) h (offset ins code pc + (ins e).length) = S.covers code h pc := by
  have hlt : ∀ {l : L} {s : ℕ}, S.position code l = some s →
      (offset ins code s < offset ins code pc + (ins e).length ↔ s < pc) := by
    intro l s hl
    obtain ⟨hlen, hp, -⟩ := List.findIdx?_eq_some_iff_getElem.mp hl
    have hls : S.label? code[s] = some l := by simpa using hp
    have hcs : code[s]? = some code[s] := List.getElem?_eq_getElem hlen
    rcases lt_trichotomy s pc with hlt | rfl | hgt
    · have := offset_lt ins hcs hlt
      omega
    · obtain rfl : code[s] = e := Option.some.inj (hcs.symm.trans he)
      have hn : ins code[s] = [] := hs.before_label _ (by rw [hls]; rfl)
      simp [hn]
    · have := offset_lt ins he hgt
      omega
  have hgt : ∀ s, offset ins code pc + (ins e).length < offset ins code s ↔ pc < s := by
    intro s
    constructor
    · intro h'
      by_contra hn
      have := offset_mono ins (c := code) (show s ≤ pc by omega)
      omega
    · exact offset_lt ins he
  rw [Semantics.covers, Semantics.covers, position_splice hs, position_splice hs]
  cases ha : S.position code h.start with
  | none => rfl
  | some s =>
    cases hb : S.position code h.stop with
    | none => rfl
    | some t => simp [hlt ha, hgt t]

lemma dispatch_splice (hs : Silent S ins) {pc : ℕ} {e : E} (he : code[pc]? = some e) (x : X) :
    S.dispatch (splice ins code) x (offset ins code pc + (ins e).length) =
      S.dispatch code x pc := by
  simp only [Semantics.dispatch, handlers_splice hs, covers_splice hs he]

end Lookup

/-- The inserted events are no labels and no table entries, and never stand before a label. -/
structure Separate {E L T X R F : Type} (S : Semantics E L T X R F) (ins : E → List E) : Prop where
  label : ∀ e, ∀ i ∈ ins e, S.label? i = none
  handler : ∀ e, ∀ i ∈ ins e, S.handler? i = none
  before_label : ∀ e, (S.label? e).isSome → ins e = []

namespace Separate

variable {E L T X R F : Type} [DecidableEq L] {S : Semantics E L T X R F} {ins : E → List E}
  {code : List E} {pc : ℕ} {e : E}

-- labels, ranges and handlers do not depend on the effects
def withoutEffects (S : Semantics E L T X R F) : Semantics E L T X R F :=
  { S with effect := fun _ f x => x = .next f }

omit [DecidableEq L] in
lemma silent (h : Separate S ins) : Silent (withoutEffects S) ins :=
  ⟨h.label, h.handler, h.before_label, fun _ _ _ _ _ => Iff.rfl⟩

lemma position (h : Separate S ins) (code : List E) (l : L) :
    S.position (splice ins code) l = (S.position code l).map (offset ins code) :=
  position_splice h.silent code l

omit [DecidableEq L] in
lemma handlers (h : Separate S ins) (code : List E) :
    (splice ins code).filterMap S.handler? = code.filterMap S.handler? :=
  handlers_splice h.silent code

lemma dispatch (h : Separate S ins) (he : code[pc]? = some e) (x : X) :
    S.dispatch (splice ins code) x (offset ins code pc + (ins e).length) =
      S.dispatch code x pc :=
  dispatch_splice h.silent he x

end Separate

end PhasicJ.Code
