import PhasicJ.Peg.Expressions

/-! Readers: parsers that look only at the rest of the input. Each construct of the grammar, in
turn, has a reader as its meaning when its parts have. -/

namespace PhasicJ.Peg

variable {R : Type}

abbrev Reader (R : Type) := List Char → Option (List (Pair R) × List Char)

namespace Reader

def run (r : Reader R) : Parser R := fun s =>
  match r s.rest with
  | some (ps, left) => .ok ⟨s.size, left, s.queue ++ ps⟩
  | none => .fail

def char (p : Char → Bool) : Reader R
  | c :: cs => if p c then some ([], cs) else none
  | [] => none

def span (p : Char → Bool) : Reader R := fun cs => some ([], cs.dropWhile p)

def nothing : Reader R := fun cs => some ([], cs)

def endOfInput : Reader R := fun cs => if cs = [] then some ([], []) else none

def seq (r q : Reader R) : Reader R := fun cs =>
  (r cs).bind fun x => (q x.2).map fun y => (x.1 ++ y.1, y.2)

def choice (r q : Reader R) : Reader R := fun cs => (r cs).or (q cs)

def opt (r : Reader R) : Reader R := fun cs => some ((r cs).getD ([], cs))

def node (rule : R) (r : Reader R) : Reader R := fun cs =>
  (r cs).map fun x => ([.mk rule (cs.take (cs.length - x.2.length)) x.1], x.2)

def Consumes (r : Reader R) : Prop :=
  ∀ cs ps left, r cs = some (ps, left) → left.length < cs.length

def manyWithin (r : Reader R) : ℕ → List Char → List (Pair R) × List Char
  | 0, cs => ([], cs)
  | n + 1, cs =>
    match r cs with
    | some (ps, left) => (ps ++ (manyWithin r n left).1, (manyWithin r n left).2)
    | none => ([], cs)

def many (r : Reader R) : Reader R := fun cs => some (manyWithin r cs.length cs)

lemma run_seq (r q : Reader R) (s : State R) : (r.run s).bind q.run = (r.seq q).run s := by
  cases hr : r s.rest with
  | none => simp [run, seq, hr]
  | some x => cases hq : q x.2 <;> simp [run, seq, hr, hq]

lemma seq_some {r q : Reader R} {cs left : List Char} {ps : List (Pair R)}
    (h : r cs = some (ps, left)) : r.seq q cs = (q left).map fun y => (ps ++ y.1, y.2) := by
  simp [seq, h]

lemma seq_none {r q : Reader R} {cs : List Char} (h : r cs = none) : r.seq q cs = none := by
  simp [seq, h]

lemma seq_nil {r q : Reader R} {cs left : List Char} (h : r cs = some ([], left)) :
    r.seq q cs = q left := by
  rw [seq_some h]
  cases q left <;> rfl

lemma run_orElse (r q : Reader R) (s : State R) :
    (r.run s).orElse (q.run s) = (r.choice q).run s := by
  cases hr : r s.rest <;> simp [run, choice, hr]

lemma run_opt (r : Reader R) (s : State R) : (r.run s).orElse (.ok s) = r.opt.run s := by
  cases hr : r s.rest <;> simp [run, opt, hr]

lemma char_consumes (p : Char → Bool) : (char p : Reader R).Consumes := by
  intro cs ps left h
  cases cs with
  | nil => simp [char] at h
  | cons c cs =>
    cases hc : p c with
    | false => simp [char, hc] at h
    | true => simp_all [char]

lemma manyWithin_of_le {r : Reader R} (hr : r.Consumes) {m n : ℕ} {cs : List Char}
    (hm : cs.length ≤ m) (hn : m ≤ n) : manyWithin r n cs = manyWithin r m cs := by
  induction m generalizing n cs with
  | zero =>
    obtain rfl : cs = [] := List.length_eq_zero_iff.mp (by omega)
    cases n with
    | zero => rfl
    | succ n =>
      cases h : r [] with
      | none => simp [manyWithin, h]
      | some x => exact absurd (hr _ _ _ h) (by simp)
  | succ m ih =>
    obtain ⟨n, rfl⟩ : ∃ k, n = k + 1 := ⟨n - 1, by omega⟩
    cases h : r cs with
    | none => simp [manyWithin, h]
    | some x =>
      have hx := hr _ _ _ h
      simp only [manyWithin, h]
      rw [ih (by omega) (by omega)]

lemma many_none {r : Reader R} {cs : List Char} (h : r cs = none) :
    r.many cs = some ([], cs) := by
  cases cs <;> simp [many, manyWithin, h]

lemma many_some {r : Reader R} (hr : r.Consumes) {cs left : List Char} {ps : List (Pair R)}
    (h : r cs = some (ps, left)) :
    r.many cs = (r.many left).map fun x => (ps ++ x.1, x.2) := by
  have hl := hr _ _ _ h
  obtain ⟨n, hn⟩ : ∃ k, cs.length = k + 1 := ⟨cs.length - 1, by omega⟩
  simp only [many, hn, manyWithin, h, Option.map_some]
  rw [manyWithin_of_le hr le_rfl (by omega : left.length ≤ n)]

lemma iterate_run {r : Reader R} (hr : r.Consumes) (n : ℕ) (s : State R)
    (h : s.rest.length < n) : iterate r.run n s = r.many.run s := by
  induction n generalizing s with
  | zero => omega
  | succ n ih =>
    cases hc : r s.rest with
    | none => simp [iterate, run, hc, many_none hc]
    | some x =>
      have hx := hr _ _ _ hc
      have hh := ih ⟨s.size, x.2, s.queue ++ x.1⟩ (by simp only; omega)
      simp only [iterate, run, hc, many_some hr hc] at hh ⊢
      rw [hh]
      simp [many, List.append_assoc]

lemma repeatAll_run {r : Reader R} (hr : r.Consumes) (s : State R) :
    repeatAll r.run s = r.many.run s :=
  iterate_run hr _ s (Nat.lt_succ_self _)

lemma many_char (p : Char → Bool) : (char p : Reader R).many = span p := by
  funext cs
  induction cs with
  | nil => rfl
  | cons c cs ih =>
    cases hc : p c with
    | false => simp [many_none, char, hc, span]
    | true =>
      have h : (char p : Reader R) (c :: cs) = some ([], cs) := by simp [char, hc]
      rw [many_some (char_consumes p) h, ih]
      simp [span, hc]

end Reader

section Evaluation

variable {call : R → Atomicity → Parser R} {whitespace : R} {m : Atomicity}

def Denotes (call : R → Atomicity → Parser R) (whitespace : R) (m : Atomicity) (e : Expr R)
    (r : Reader R) : Prop :=
  eval call whitespace m e = r.run

namespace Denotes

lemma char (c : Char) : Denotes call whitespace m (.str [c]) (.char fun d => d == c) := by
  funext ⟨n, cs, q⟩
  cases cs with
  | nil => simp [eval, matchString, Reader.run, Reader.char]
  | cons d cs =>
    by_cases hd : d = c
    · simp [eval, matchString, Reader.run, Reader.char, State.advance, hd]
    · simp [eval, matchString, Reader.run, Reader.char, hd, Ne.symm hd]

lemma range (a b : Char) :
    Denotes call whitespace m (.range a b) (.char fun c => a ≤ c && c ≤ b) := by
  funext ⟨n, cs, q⟩
  cases cs with
  | nil => rfl
  | cons c cs =>
    cases hc : (decide (a ≤ c) && decide (c ≤ b)) <;>
      simp [eval, charMatcher, Reader.run, Reader.char, State.advance, hc]

lemma endOfInput : Denotes call whitespace m .endOfInput .endOfInput := by
  funext ⟨n, cs, q⟩
  cases cs <;> simp [eval, Reader.run, Reader.endOfInput]

lemma choice {a b : Expr R} {ra rb : Reader R} (ha : Denotes call whitespace m a ra)
    (hb : Denotes call whitespace m b rb) :
    Denotes call whitespace m (.choice a b) (ra.choice rb) := by
  funext s
  rw [← Reader.run_orElse, ← ha, ← hb]
  rfl

lemma choice_char {a b : Expr R} {p q : Char → Bool}
    (ha : Denotes call whitespace m a (.char p)) (hb : Denotes call whitespace m b (.char q)) :
    Denotes call whitespace m (.choice a b) (.char fun c => p c || q c) := by
  have he : (Reader.char fun c => p c || q c : Reader R) = (Reader.char p).choice (.char q) := by
    funext cs
    cases cs with
    | nil => rfl
    | cons c cs => cases hp : p c <;> simp [Reader.char, Reader.choice, hp]
  exact he ▸ ha.choice hb

lemma opt {a : Expr R} {ra : Reader R} (ha : Denotes call whitespace m a ra) :
    Denotes call whitespace m (.opt a) ra.opt := by
  funext s
  rw [← Reader.run_opt, ← ha]
  rfl

lemma seq {a b : Expr R} {ra rb w : Reader R} (hw : skip call whitespace m = w.run)
    (ha : Denotes call whitespace m a ra) (hb : Denotes call whitespace m b rb) :
    Denotes call whitespace m (.seq a b) (ra.seq (w.seq rb)) := by
  have hf : (fun t => (skip call whitespace m t).bind (eval call whitespace m b)) =
      (w.seq rb).run := by
    funext t
    rw [hw, hb, Reader.run_seq]
  funext s
  change (eval call whitespace m a s).bind _ = _
  rw [hf, ha, Reader.run_seq]

lemma rep {a : Expr R} {ra w : Reader R} (hw : skip call whitespace m = w.run)
    (ha : Denotes call whitespace m a ra) (hc : (w.seq ra).Consumes) :
    Denotes call whitespace m (.rep a) (ra.seq (w.seq ra).many).opt := by
  have hf : (fun t => (skip call whitespace m t).bind (eval call whitespace m a)) =
      (w.seq ra).run := by
    funext t
    rw [hw, ha, Reader.run_seq]
  funext s
  change ((eval call whitespace m a s).bind (repeatAll _)).orElse (.ok s) = _
  rw [hf, ha, ← Reader.run_opt, ← Reader.run_seq]
  congr 2
  funext t
  exact Reader.repeatAll_run hc t

end Denotes

lemma skip_atomic : skip call whitespace .atomic = Reader.nothing.run := by
  funext s
  simp [skip, Reader.run, Reader.nothing]

lemma skip_nonAtomic {p : Char → Bool} (h : call whitespace .atomic = (Reader.char p).run) :
    skip call whitespace .nonAtomic = (Reader.span p).run := by
  funext s
  simp only [skip, h]
  rw [Reader.repeatAll_run (Reader.char_consumes p), Reader.many_char]

lemma Reader.nothing_seq (r : Reader R) : Reader.nothing.seq r = r := by
  funext cs
  cases h : r cs <;> simp [Reader.seq, Reader.nothing, h]

lemma Denotes.rep_char {a : Expr R} {p : Char → Bool}
    (ha : Denotes call whitespace .atomic a (.char p)) :
    Denotes call whitespace .atomic (.rep a) (.span p) := by
  have hh := Denotes.rep skip_atomic ha (by
    rw [Reader.nothing_seq]
    exact Reader.char_consumes p)
  rw [Reader.nothing_seq, Reader.many_char] at hh
  have he : ((Reader.char p).seq (.span p)).opt = (Reader.span p : Reader R) := by
    funext cs
    cases cs with
    | nil => rfl
    | cons c cs => cases hc : p c <;> simp [Reader.opt, Reader.seq, Reader.char, Reader.span, hc]
  exact he ▸ hh

lemma Denotes.repOnce_char {a : Expr R} {p : Char → Bool}
    (ha : Denotes call whitespace .atomic a (.char p)) :
    Denotes call whitespace .atomic a.repOnce ((Reader.char p).seq (.span p)) := by
  have hh := Denotes.seq skip_atomic ha ha.rep_char
  rwa [Reader.nothing_seq] at hh

end Evaluation

namespace Grammar

variable {g : Grammar R} {n : ℕ} {rule : R} {m : Atomicity} {r : Reader R}

lemma call_silent (ht : g.type rule = .silent)
    (h : Denotes (g.call n) g.whitespace m (g.expr rule) r) : g.call (n + 1) rule m = r.run := by
  simp only [call, ht]
  exact h

lemma close_node (s : State R) :
    ((r.run { s with queue := [] }).bind fun t => .ok (s.close .nonAtomic rule t)) =
      (r.node rule).run s := by
  cases h : r s.rest <;> simp [Reader.run, Reader.node, State.close, h]

lemma call_normal_at (ht : g.type rule = .normal) (s : State R)
    (h : eval (g.call n) g.whitespace .nonAtomic (g.expr rule) { s with queue := [] } =
      r.run { s with queue := [] }) :
    g.call (n + 1) rule .nonAtomic s = (r.node rule).run s := by
  simp only [call, ht]
  rw [h, close_node]

lemma call_normal (ht : g.type rule = .normal)
    (h : Denotes (g.call n) g.whitespace .nonAtomic (g.expr rule) r) :
    g.call (n + 1) rule .nonAtomic = (r.node rule).run :=
  funext fun s => call_normal_at ht s (congrFun h _)

lemma call_atomic (ht : g.type rule = .atomic)
    (h : Denotes (g.call n) g.whitespace .atomic (g.expr rule) r) :
    g.call (n + 1) rule .nonAtomic = (r.node rule).run := by
  funext s
  simp only [call, ht]
  rw [h, close_node]

end Grammar

end PhasicJ.Peg
