import PhasicJ.AgentConf.Language

/-! The options parser accepts the lists whose segments are options, and reads each of them. -/

namespace PhasicJ.AgentConf

open Peg

def eoiNode : Pair Rule := .mk .eoi [] []

def eoiReader : Reader Rule := Reader.endOfInput.node .eoi

def nextReader : Reader Rule :=
  (Reader.char fun c => c == ',').seq (spaces.seq optionReader)

def restReader : Reader Rule := (nextReader.seq (spaces.seq nextReader).many).opt

def listReader : Reader Rule :=
  spaces.seq ((optionReader.seq (spaces.seq restReader)).opt.seq (spaces.seq eoiReader))

def tailReader : Reader Rule := (spaces.seq nextReader).many.seq (spaces.seq eoiReader)

lemma eoiReader_nil : eoiReader [] = some ([eoiNode], []) := rfl

lemma eoiReader_cons (c : Char) (cs : List Char) : eoiReader (c :: cs) = none := rfl

lemma spaces_seq (r : Reader Rule) (cs : List Char) :
    spaces.seq r cs = r (cs.dropWhile isSpace) := by
  cases h : r (cs.dropWhile isSpace) <;> simp [Reader.seq, spaces, Reader.span, h]

lemma dropWhile_idem (p : Char → Bool) (cs : List Char) :
    (cs.dropWhile p).dropWhile p = cs.dropWhile p :=
  dropWhile_head fun _ hc => head_dropWhile hc

lemma optionReader_suffix {cs left : List Char} {ps : List (Pair Rule)}
    (h : optionReader cs = some (ps, left)) : left <:+ cs := by
  have hr : optionReader.run ⟨0, cs, []⟩ = .ok ⟨0, left, ps⟩ := by simp [Reader.run, h]
  rw [← call_agentOption 0] at hr
  exact grammar.call_advances 4 .agentOption .nonAtomic _ _ hr

lemma optionReader_some {cs left : List Char} {ps : List (Pair Rule)}
    (h : optionReader cs = some (ps, left)) :
    ∃ o text, readOption cs = some (o, left) ∧ cs = text ++ left ∧
      ps = [.mk .agentOption text o.nodes] := by
  have hs := optionReader_suffix h
  obtain ⟨⟨o, l⟩, ho, he⟩ := Option.map_eq_some_iff.mp h
  simp only [Prod.mk.injEq] at he
  obtain ⟨rfl, rfl⟩ := he
  obtain ⟨text, rfl⟩ := hs
  exact ⟨o, text, ho, rfl, by simp⟩

lemma nextReader_none {cs : List Char} (h : cs.head? ≠ some ',') : nextReader cs = none := by
  cases cs with
  | nil => rfl
  | cons c cs =>
    have hc : c ≠ ',' := by simpa using h
    simp [nextReader, Reader.seq, Reader.char, hc]

lemma nextReader_comma (cs : List Char) :
    nextReader (',' :: cs) = optionReader (cs.dropWhile isSpace) := by
  rw [← spaces_seq optionReader]
  exact Reader.seq_nil rfl

lemma next_consumes : (spaces.seq nextReader).Consumes := by
  intro cs ps left h
  rw [spaces_seq] at h
  have hl := List.length_dropWhile_le isSpace cs
  by_cases hc : (cs.dropWhile isSpace).head? = some ','
  · obtain ⟨ds, hd⟩ := List.head?_eq_some_iff.mp hc
    rw [hd, nextReader_comma] at h
    have h₁ := (optionReader_suffix h).length_le
    have h₂ := List.length_dropWhile_le isSpace ds
    rw [hd, List.length_cons] at hl
    omega
  · rw [nextReader_none hc] at h
    simp at h

lemma rest_tail : (spaces.seq restReader).seq (spaces.seq eoiReader) = tailReader := by
  funext cs
  have hn := spaces_seq nextReader cs
  have hrest := spaces_seq restReader cs
  cases hc : nextReader (cs.dropWhile isSpace) with
  | none =>
    have hr : restReader (cs.dropWhile isSpace) = some ([], cs.dropWhile isSpace) := by
      simp [restReader, Reader.opt, Reader.seq_none hc]
    rw [Reader.seq_nil (hrest.trans hr), tailReader, Reader.seq_nil (Reader.many_none (hn.trans hc)),
      spaces_seq, spaces_seq, dropWhile_idem]
  | some x =>
    have hr : restReader (cs.dropWhile isSpace) = (spaces.seq nextReader).many cs := by
      rw [Reader.many_some next_consumes (hn.trans hc), restReader, Reader.opt, Reader.seq_some hc]
      rfl
    rw [hr] at hrest
    simp only [Reader.seq, tailReader] at hrest ⊢
    rw [hrest]

lemma listReader_eq (cs : List Char) :
    listReader cs =
      if optionReader (cs.dropWhile isSpace) = none then eoiReader (cs.dropWhile isSpace)
      else optionReader.seq tailReader (cs.dropWhile isSpace) := by
  rw [listReader, spaces_seq]
  cases ho : optionReader (cs.dropWhile isSpace) with
  | none =>
    have hh : (optionReader.seq (spaces.seq restReader)).opt (cs.dropWhile isSpace) =
        some ([], cs.dropWhile isSpace) := by
      simp [Reader.opt, Reader.seq_none ho]
    rw [if_pos rfl, Reader.seq_nil hh, spaces_seq, dropWhile_idem]
  | some x =>
    obtain ⟨y, hy⟩ : ∃ y, spaces.seq restReader x.2 = some y := by
      rw [spaces_seq]
      exact ⟨_, rfl⟩
    have hh : (optionReader.seq (spaces.seq restReader)).opt (cs.dropWhile isSpace) =
        some (x.1 ++ y.1, y.2) := by
      simp [Reader.opt, Reader.seq_some ho, hy]
    rw [if_neg (by simp), Reader.seq_some hh, Reader.seq_some ho, ← rest_tail, Reader.seq_some hy]
    simp [Option.map_map, Function.comp_def]

lemma tailReader_end {cs : List Char} (h : cs.dropWhile isSpace = []) :
    tailReader cs = some ([eoiNode], []) := by
  have hn : spaces.seq nextReader cs = none := by rw [spaces_seq, h]; rfl
  rw [tailReader, Reader.seq_nil (Reader.many_none hn), spaces_seq, h, eoiReader_nil]

lemma tailReader_comma {cs ds : List Char} (h : cs.dropWhile isSpace = ',' :: ds) :
    tailReader cs = optionReader.seq tailReader (ds.dropWhile isSpace) := by
  have hn : spaces.seq nextReader cs = optionReader (ds.dropWhile isSpace) := by
    rw [spaces_seq, h, nextReader_comma]
  cases ho : optionReader (ds.dropWhile isSpace) with
  | none =>
    rw [tailReader, Reader.seq_nil (Reader.many_none (hn.trans ho)), spaces_seq, h, eoiReader_cons,
      Reader.seq_none ho]
  | some x =>
    have hm := Reader.many_some next_consumes (hn.trans ho)
    obtain ⟨y, hy⟩ : ∃ y, (spaces.seq nextReader).many x.2 = some y := ⟨_, rfl⟩
    rw [hy, Option.map_some] at hm
    have ht : tailReader x.2 = _ := Reader.seq_some hy
    have hc : tailReader cs = _ := Reader.seq_some hm
    rw [hc, Reader.seq_some ho, ht]
    simp [Option.map_map, Function.comp_def]

lemma tailReader_other {cs : List Char} {c : Char} {ds : List Char}
    (h : cs.dropWhile isSpace = c :: ds) (hc : c ≠ ',') : tailReader cs = none := by
  have hn : spaces.seq nextReader cs = none := by
    rw [spaces_seq, h]
    exact nextReader_none (by simpa using hc)
  rw [tailReader, Reader.seq_nil (Reader.many_none hn), spaces_seq, h, eoiReader_cons]

lemma call_eoi (n : ℕ) : grammar.call (n + 1) .eoi .nonAtomic = eoiReader.run :=
  Grammar.call_normal rfl .endOfInput

lemma call_agentOptionsListSep (n : ℕ) :
    grammar.call (n + 1) .agentOptionsListSep .nonAtomic = (Reader.char fun c => c == ',').run :=
  Grammar.call_silent rfl (.char ',')

lemma parse_eq (n : ℕ) (cs : List Char) :
    grammar.parse (n + 6) .agentOptionsList cs =
      match listReader cs with
      | some (ps, left) => .ok [.mk .agentOptionsList (cs.take (cs.length - left.length)) ps]
      | none => .fail := by
  have hc : Denotes (grammar.call (n + 5)) grammar.whitespace .nonAtomic
      (.ident .agentOptionsListSep) _ := call_agentOptionsListSep (n + 4)
  have ho : Denotes (grammar.call (n + 5)) grammar.whitespace .nonAtomic
      (.ident .agentOption) _ := call_agentOption (n + 1)
  have he : Denotes (grammar.call (n + 5)) grammar.whitespace .nonAtomic (.ident .eoi) _ := call_eoi (n + 4)
  have hw := skip_spaces (n + 4)
  have hl := Denotes.seq hw (Denotes.opt (Denotes.seq hw ho
    (Denotes.rep hw (Denotes.seq hw hc ho) next_consumes))) he
  -- the start of the input holds where the parser starts
  have hs : eval (grammar.call (n + 5)) grammar.whitespace .nonAtomic (grammar.expr .agentOptionsList)
      ⟨cs.length, cs, []⟩ = listReader.run ⟨cs.length, cs, []⟩ := by
    rw [listReader, ← Reader.run_seq, ← hw]
    simp only [grammar, Rule.expr, eval, State.pos, Nat.sub_self, if_true, Outcome.bind_ok]
    exact congrArg _ hl
  rw [Grammar.parse, Grammar.call_normal_at rfl _ hs]
  cases h : listReader cs <;> simp [Reader.run, Reader.node, h]

end PhasicJ.AgentConf
