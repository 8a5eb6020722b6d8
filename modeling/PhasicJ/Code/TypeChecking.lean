import PhasicJ.Code.Splicing

/-! Type checking of labelled code with stack maps, and of spliced code. -/

namespace PhasicJ.Code

variable {E L T X R F K : Type}

/-- What a type checker knows of the events: how an instruction, with the labels at it, changes a
frame of types and with which frames it jumps, and what the entries of the stack map declare after
the ones before them. -/
structure Typing (E L T K : Type) where
  isInstruction : E → Bool
  declares : K → E → Option K
  types : List L → E → K → Option K → List (L × K) → Prop
  assignable : K → K → Prop
  enter : T → K → K

namespace Typing

variable [DecidableEq L] (S : Semantics E L T X R F) (V : Typing E L T K) (code : List E)

/-- What is declared for the instruction that comes next. -/
def mapAt : List E → K → Option K
  | [], _ => none
  | e :: rest, k =>
    if V.isInstruction e then none
    else (V.declares k e).or (mapAt rest k)

def declared (k : K) (before : List E) : K := before.foldl (fun k e => (V.declares k e).getD k) k

/-- The frame that the stack map declares at a label. -/
def targetFrame (first : K) (l : L) : Option K :=
  (S.position code l).bind fun q => V.mapAt (code.drop q) (V.declared first (code.take q))

def Accepts (first k : K) (l : L) : Prop := ∃ k', V.targetFrame S code first l = some k' ∧
  V.assignable k k'

def SatisfiesHandlers (first : K) (pc : ℕ) (k : K) : Prop :=
  ∀ h ∈ code.filterMap S.handler?, S.covers code h pc = true →
    V.Accepts S code first (V.enter h.catches k) h.target

/-- The labels are those since the last instruction. After a jump there is no frame until the stack
map declares one. -/
def Checked (first : K) : List E → ℕ → List L → K → Option K → Prop
  | [], _, _, _, frame => frame = none
  | e :: rest, pc, labels, k, frame =>
    if V.isInstruction e then
      ∃ f next jumps, frame = some f ∧ V.types labels e f next jumps ∧
        V.SatisfiesHandlers S code first pc f ∧ (∀ j ∈ jumps, V.Accepts S code first j.2 j.1) ∧
        Checked first rest (pc + 1) [] k next
    else
      match V.declares k e with
      | some k' =>
        (∀ f ∈ frame, V.assignable f k') ∧
          Checked first rest (pc + 1) (labels ++ (S.label? e).toList) k' (some k')
      | none => Checked first rest (pc + 1) (labels ++ (S.label? e).toList) k frame

def HandlersAreLegal : Prop :=
  ∀ h ∈ code.filterMap S.handler?, ∃ start stop, S.position code h.start = some start ∧
    S.position code h.stop = some stop ∧ start < stop ∧ (S.position code h.target).isSome

def TypeSafe (first : K) : Prop :=
  HandlersAreLegal S code ∧ V.Checked S code first code 0 [] first (some first)

/-- The inserted events are instructions that change no frame. They stand before instructions, and
take over the labels of these, which are typed without them. -/
structure Neutral (V : Typing E L T K) (ins : E → List E) : Prop where
  before : ∀ e, V.isInstruction e = false → ins e = []
  instruction : ∀ e, ∀ i ∈ ins e, V.isInstruction i = true
  declares : ∀ e, ∀ i ∈ ins e, ∀ k, V.declares k i = none
  types : ∀ e, ∀ i ∈ ins e, ∀ labels f next jumps,
    V.types labels i f next jumps ↔ next = some f ∧ jumps = []
  labels : ∀ e, ins e ≠ [] → ∀ labels f next jumps,
    V.types labels e f next jumps ↔ V.types [] e f next jumps

end Typing

section Splice

open Typing

variable [DecidableEq L] {S : Semantics E L T X R F} {V : Typing E L T K} {ins : E → List E}
  {code rest : List E} {pc q j : ℕ} {labels : List L} {e : E} {first k f : K} {frame : Option K}

lemma take_offset (ins : E → List E) (code : List E) (pc : ℕ) :
    (splice ins code).take (offset ins code pc) = splice ins (code.take pc) ∧
      (splice ins code).drop (offset ins code pc) = splice ins (code.drop pc) := by
  have hs : splice ins code = splice ins (code.take pc) ++ splice ins (code.drop pc) := by
    rw [← splice_append, List.take_append_drop]
  rw [hs]
  exact ⟨List.take_left, List.drop_left⟩

omit [DecidableEq L] in
lemma declared_splice (hn : V.Neutral ins) (k : K) (code : List E) :
    V.declared k (splice ins code) = V.declared k code := by
  have hins : ∀ (l : List E), (∀ i ∈ l, ∀ k, V.declares k i = none) → ∀ k,
      V.declared k l = k := by
    intro l hl k
    induction l with
    | nil => rfl
    | cons i l ih =>
      rw [declared, List.foldl_cons, hl i List.mem_cons_self k, Option.getD_none]
      exact ih fun i' hi' => hl i' (List.mem_cons_of_mem i hi')
  induction code generalizing k with
  | nil => rfl
  | cons e code ih =>
    rw [splice_cons, declared, List.foldl_append]
    change V.declared (V.declared k (ins e)) (e :: splice ins code) = _
    rw [hins _ (hn.declares e)]
    exact ih _

omit [DecidableEq L] in
lemma mapAt_splice (hn : V.Neutral ins) (code : List E) (k : K) :
    V.mapAt (splice ins code) k = V.mapAt code k := by
  induction code with
  | nil => rfl
  | cons e code ih =>
    rw [splice_cons, mapAt]
    cases he : V.isInstruction e with
    | false =>
      rw [hn.before e he, List.nil_append, mapAt, he, ih]
    | true =>
      cases hins : ins e with
      | nil => rw [List.nil_append, mapAt, he]; rfl
      | cons i l =>
        rw [List.cons_append, mapAt, hn.instruction e i (by rw [hins]; exact List.mem_cons_self),
          if_pos rfl, if_pos rfl]

lemma targetFrame_splice (hs : Separate S ins) (hn : V.Neutral ins) (first : K) (l : L) :
    V.targetFrame S (splice ins code) first l = V.targetFrame S code first l := by
  rw [targetFrame, targetFrame, hs.position]
  cases S.position code l with
  | none => rfl
  | some q =>
    obtain ⟨htake, hdrop⟩ := take_offset ins code q
    rw [Option.map_some, Option.bind_some, Option.bind_some, htake, hdrop, mapAt_splice hn,
      declared_splice hn]

lemma accepts_splice (hs : Separate S ins) (hn : V.Neutral ins) (l : L) :
    V.Accepts S (splice ins code) first k l ↔ V.Accepts S code first k l := by
  rw [Accepts, Accepts, targetFrame_splice hs hn]

lemma covers_inserted (hs : Separate S ins) (he : code[pc]? = some e) (hj : j ≤ (ins e).length)
    (h : Handler L T) : S.covers (splice ins code) h (offset ins code pc + j) =
      S.covers code h pc := by
  have hnil : ∀ {s : ℕ} {l : L}, S.position code l = some s → s = pc → j = 0 := by
    rintro s l hl rfl
    obtain ⟨hlen, hp, -⟩ := List.findIdx?_eq_some_iff_getElem.mp hl
    obtain rfl : code[s] = e := by rwa [List.getElem?_eq_getElem hlen, Option.some.injEq] at he
    have : ins code[s] = [] := hs.before_label _ (by rw [of_decide_eq_true hp]; rfl)
    rw [this] at hj
    exact Nat.le_zero.mp hj
  have hlt : ∀ {l : L} {s : ℕ}, S.position code l = some s →
      (offset ins code s < offset ins code pc + j ↔ s < pc) := by
    intro l s hl
    obtain ⟨hlen, -⟩ := List.findIdx?_eq_some_iff_getElem.mp hl
    rcases lt_trichotomy s pc with hlt | heq | hgt
    · have := offset_lt ins (List.getElem?_eq_getElem hlen) hlt
      omega
    · have := hnil hl heq
      subst heq
      omega
    · have := offset_lt ins he hgt
      omega
  have hgt : ∀ {l : L} {s : ℕ}, S.position code l = some s →
      (offset ins code pc + j < offset ins code s ↔ pc < s) := by
    intro l s hl
    constructor
    · intro h'
      by_contra hle
      have := offset_mono ins (c := code) (show s ≤ pc by omega)
      omega
    · intro h'
      have := offset_lt ins he h'
      omega
  rw [Semantics.covers, Semantics.covers, hs.position, hs.position]
  cases ha : S.position code h.start with
  | none => rfl
  | some s =>
    cases hb : S.position code h.stop with
    | none => rfl
    | some t => simp [hlt ha, hgt hb]

lemma satisfiesHandlers_splice (hs : Separate S ins) (hn : V.Neutral ins)
    (he : code[pc]? = some e) (hj : j ≤ (ins e).length) :
    V.SatisfiesHandlers S (splice ins code) first (offset ins code pc + j) k ↔
      V.SatisfiesHandlers S code first pc k := by
  rw [SatisfiesHandlers, SatisfiesHandlers, hs.handlers]
  simp only [covers_inserted hs he hj, accepts_splice hs hn]

lemma checked_inserted {l : List E} {c : List E}
    (hl : ∀ i ∈ l, V.isInstruction i = true ∧ ∀ labels f next jumps,
      V.types labels i f next jumps ↔ next = some f ∧ jumps = []) :
    V.Checked S c first (l ++ rest) q labels k (some f) ↔
      (∀ j < l.length, V.SatisfiesHandlers S c first (q + j) f) ∧
        V.Checked S c first rest (q + l.length) (if l = [] then labels else []) k (some f) := by
  induction l generalizing q labels with
  | nil => simp
  | cons i l ih =>
    obtain ⟨hi, ht⟩ := hl i List.mem_cons_self
    have hlabels : (if l = [] then ([] : List L) else []) = [] := ite_self []
    rw [List.cons_append, Checked, if_pos hi, if_neg (List.cons_ne_nil i l)]
    simp only [ht, Option.some.injEq]
    constructor
    · rintro ⟨f', next, jumps, rfl, ⟨rfl, rfl⟩, hh, -, hc⟩
      obtain ⟨hall, hrest⟩ := (ih fun i' hi' => hl i' (List.mem_cons_of_mem i hi')).mp hc
      refine ⟨fun j hj => ?_, ?_⟩
      · cases j with
        | zero => exact hh
        | succ j =>
          rw [Nat.add_comm j 1, ← Nat.add_assoc]
          exact hall j (by simpa using hj)
      · rwa [List.length_cons, Nat.add_comm l.length 1, ← Nat.add_assoc, ← hlabels]
    · rintro ⟨hall, hrest⟩
      refine ⟨f, some f, [], rfl, ⟨rfl, rfl⟩, hall 0 (by simp), by simp, ?_⟩
      refine (ih fun i' hi' => hl i' (List.mem_cons_of_mem i hi')).mpr ⟨fun j hj => ?_, ?_⟩
      · have := hall (j + 1) (by simpa using hj)
        rwa [Nat.add_comm j 1, ← Nat.add_assoc] at this
      · rw [hlabels]
        rwa [List.length_cons, Nat.add_comm l.length 1, ← Nat.add_assoc] at hrest

lemma not_checked_none {c : List E} (hi : V.isInstruction e = true) :
    ¬ V.Checked S c first (e :: rest) q labels k none := by
  rw [Checked, if_pos hi]
  rintro ⟨f, next, jumps, hf, -⟩
  cases hf

lemma handlersAreLegal_splice (hs : Separate S ins) :
    HandlersAreLegal S (splice ins code) ↔ HandlersAreLegal S code := by
  have hlt : ∀ {l : L} {s t : ℕ}, S.position code l = some s →
      (offset ins code s < offset ins code t ↔ s < t) := by
    intro l s t hl
    obtain ⟨hlen, -⟩ := List.findIdx?_eq_some_iff_getElem.mp hl
    constructor
    · intro h
      by_contra hle
      have := offset_mono ins (c := code) (show t ≤ s by omega)
      omega
    · intro h
      have := offset_lt ins (List.getElem?_eq_getElem hlen) h
      omega
  rw [HandlersAreLegal, HandlersAreLegal, hs.handlers]
  refine forall₂_congr fun h _ => ?_
  simp only [hs.position, Option.isSome_map]
  constructor
  · rintro ⟨_, _, hstart, hstop, hle, htarget⟩
    obtain ⟨s, ha, rfl⟩ := Option.map_eq_some_iff.mp hstart
    obtain ⟨t, hb, rfl⟩ := Option.map_eq_some_iff.mp hstop
    exact ⟨s, t, ha, hb, (hlt ha).mp hle, htarget⟩
  · rintro ⟨s, t, ha, hb, hle, htarget⟩
    exact ⟨_, _, by rw [ha, Option.map_some], by rw [hb, Option.map_some], (hlt ha).mpr hle,
      htarget⟩

lemma checked_splice (hs : Separate S ins) (hn : V.Neutral ins) (hd : code.drop pc = rest) :
    V.Checked S (splice ins code) first (splice ins rest) (offset ins code pc) labels k frame ↔
      V.Checked S code first rest pc labels k frame := by
  induction rest generalizing pc labels k frame with
  | nil => rfl
  | cons e rest ih =>
    obtain ⟨hlt, rfl, htail⟩ : ∃ hlt : pc < code.length, code[pc] = e ∧
        code.drop (pc + 1) = rest := by
      have hlt : pc < code.length := by
        by_contra hge
        rw [List.drop_of_length_le (by omega)] at hd
        cases hd
      rw [List.drop_eq_getElem_cons hlt] at hd
      exact ⟨hlt, List.cons.inj hd⟩
    have he : code[pc]? = some code[pc] := List.getElem?_eq_getElem hlt
    have hnext := offset_succ ins he
    generalize code[pc] = e at he hnext ⊢
    rw [splice_cons]
    cases hi : V.isInstruction e with
    | false =>
      rw [hn.before e hi] at hnext ⊢
      rw [List.nil_append, Checked, Checked, hi, ← Nat.add_zero (offset ins code pc)]
      simp only [Bool.false_eq_true, if_false]
      simp only [List.length_nil, Nat.add_zero] at hnext ⊢
      rw [← hnext]
      split
      · rw [ih htail]
      · rw [ih htail]
    | true =>
      have hl : ∀ i ∈ ins e, V.isInstruction i = true ∧ ∀ labels f next jumps,
          V.types labels i f next jumps ↔ next = some f ∧ jumps = [] := fun i hmem =>
        ⟨hn.instruction e i hmem, hn.types e i hmem⟩
      -- the labels before the inserted events are no longer those at the instruction
      have htypes : ∀ f next jumps, V.types (if ins e = [] then labels else []) e f next jumps ↔
          V.types labels e f next jumps := by
        intro f next jumps
        split
        · rfl
        · next hne => exact (hn.labels e hne labels f next jumps).symm
      have hself : ∀ frame, V.Checked S (splice ins code) first (e :: splice ins rest)
          (offset ins code pc + (ins e).length) (if ins e = [] then labels else []) k frame ↔
            V.Checked S code first (e :: rest) pc labels k frame := by
        intro frame
        rw [Checked, Checked, if_pos hi, if_pos hi, ← hnext]
        simp only [htypes, satisfiesHandlers_splice hs hn he le_rfl, accepts_splice hs hn,
          ih htail]
      cases frame with
      | none =>
        cases hins : ins e with
        | nil =>
          rw [hins] at hself
          exact hself none
        | cons i l =>
          exact iff_of_false (not_checked_none (hn.instruction e i (by simp [hins])))
            (not_checked_none hi)
      | some f =>
        rw [checked_inserted hl, hself]
        refine and_iff_right_of_imp fun hc j hj => ?_
        rw [Checked, if_pos hi] at hc
        obtain ⟨f', next, jumps, hf, -, hh, -⟩ := hc
        obtain rfl := Option.some.inj hf
        exact (satisfiesHandlers_splice hs hn he hj.le).mpr hh

/-- Spliced code is type safe with the stack map of the code if and only if the code is. -/
lemma typeSafe_splice (hs : Separate S ins) (hn : V.Neutral ins) :
    V.TypeSafe S (splice ins code) first ↔ V.TypeSafe S code first := by
  rw [TypeSafe, TypeSafe, handlersAreLegal_splice hs]
  have hall : code.drop 0 = code := List.drop_zero
  exact and_congr_right fun _ => checked_splice hs hn hall

end Splice

end PhasicJ.Code
