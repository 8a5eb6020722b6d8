import PhasicJ.AgentConf.OptionsList

/-! The options parser accepts exactly the lists whose segments are options. -/

namespace PhasicJ.AgentConf

open Peg

/-- The node of a segment: an `agent_option` over the segment up to spaces at its ends (the text of
a bare name keeps those after it), whose children are the name and, after an equals sign, the
value. -/
def OptionNode (seg : List Char) (p : Pair Rule) : Prop :=
  ∃ o before text after, SegmentText seg o ∧ seg = before ++ text ++ after ∧ Blank before ∧
    Blank after ∧ p = .mk .agentOption text o.nodes

def segments (s : List Char) : List (List Char) := s.splitOn ','

lemma ValueText.no_comma {text value : List Char} (h : ValueText text value) : ',' ∉ text := by
  have hv : ∀ cs : List Char, (∀ d ∈ cs, isValueChar d ∨ d = ' ') → ',' ∉ cs := by
    intro cs h hc
    rcases h ',' hc with hv | he
    · exact absurd hv (by decide)
    · exact absurd he (by decide)
  cases h with
  | @quoted content after hcs hb =>
    have h₁ := hv content hcs
    have h₂ : ',' ∉ after := fun hc => absurd (hb ',' hc) (by decide)
    simp [h₁, h₂]
  | empty => simp
  | @raw c cs hc hcs =>
    have h₁ := hv cs hcs
    have h₂ : ',' ≠ c := by rintro rfl; exact absurd hc (by decide)
    simp [h₁, h₂]

lemma SegmentText.no_comma {seg : List Char} {o : OptionText} (h : SegmentText seg o) :
    ',' ∉ seg := by
  have hb : ∀ cs : List Char, Blank cs → ',' ∉ cs := fun cs h hc => absurd (h ',' hc) (by decide)
  have hn : ∀ cs : List Char, NameText cs → ',' ∉ cs := fun cs h hc =>
    absurd (h.2 ',' hc) (by decide)
  cases h with
  | flag h₁ h₂ h₃ => simp [hb _ h₁, hn _ h₂, hb _ h₃]
  | setting h₁ h₂ h₃ h₄ h₅ => simp [hb _ h₁, hn _ h₂, hb _ h₃, hb _ h₄, h₅.no_comma]

lemma SegmentText.not_blank {seg : List Char} {o : OptionText} (h : SegmentText seg o) :
    ¬ Blank seg := by
  have hn : ∀ cs : List Char, NameText cs → ∃ c ∈ cs, c ≠ ' ' := by
    rintro cs ⟨hne, hc⟩
    obtain ⟨c, hm⟩ := List.exists_mem_of_ne_nil cs hne
    refine ⟨c, hm, ?_⟩
    rintro rfl
    exact absurd (hc ' ' hm) (by decide)
  intro hb
  cases h with
  | flag _ h _ =>
    obtain ⟨c, hm, hc⟩ := hn _ h
    exact hc (hb c (by simp [hm]))
  | setting _ h _ _ _ =>
    obtain ⟨c, hm, hc⟩ := hn _ h
    exact hc (hb c (by simp [hm]))

lemma SegmentText.unique {seg : List Char} {o o' : OptionText} (h : SegmentText seg o)
    (h' : SegmentText seg o') : o = o' := by
  have hf : Stops [] := by intro c hc; simp at hc
  obtain ⟨left, hr, -⟩ := readOption_complete h hf
  obtain ⟨left', hr', -⟩ := readOption_complete h' hf
  rw [hr] at hr'
  simp only [Option.some.injEq, Prod.mk.injEq] at hr'
  exact hr'.1

lemma segments_cases (cs : List Char) :
    segments cs = [cs] ∨
      ∃ seg ds, cs = seg ++ ',' :: ds ∧ segments cs = seg :: segments ds := by
  by_cases h : ',' ∈ cs
  · obtain ⟨seg, ds, rfl, hn⟩ := List.eq_append_cons_of_mem h
    exact .inr ⟨seg, ds, rfl, List.splitOn_append_cons_self_of_not_mem hn ds⟩
  · exact .inl (List.splitOn_eq_singleton h)

lemma not_blank_of_segments {cs : List Char} (h : ∀ seg ∈ segments cs, ∃ o, SegmentText seg o) :
    ¬ Blank cs := by
  intro hb
  rcases segments_cases cs with he | ⟨seg, ds, rfl, he⟩
  · obtain ⟨o, ho⟩ := h cs (by simp [he])
    exact ho.not_blank hb
  · exact absurd (hb ',' (by simp)) (by decide)

lemma segments_append {seg ds : List Char} (h : ',' ∉ seg) :
    segments (seg ++ ',' :: ds) = seg :: segments ds :=
  List.splitOn_append_cons_self_of_not_mem h ds

lemma option_step {cs left : List Char} {ps : List (Pair Rule)}
    (h : optionReader (cs.dropWhile isSpace) = some (ps, left)) :
    ∃ seg p, cs = seg ++ left.dropWhile isSpace ∧ ps = [p] ∧ OptionNode seg p := by
  obtain ⟨o, text, ho, ht, rfl⟩ := optionReader_some h
  obtain ⟨seg, hs, hseg⟩ := readOption_sound ho
  refine ⟨seg, _, hs, rfl, o, cs.takeWhile isSpace, text, left.takeWhile isSpace, hseg, ?_,
    blank_takeWhile cs, blank_takeWhile left, rfl⟩
  refine List.append_cancel_right (?_ : _ ++ left.dropWhile isSpace = _ ++ left.dropWhile isSpace)
  rw [← hs, List.append_assoc, List.takeWhile_append_dropWhile, List.append_assoc, ← ht,
    List.takeWhile_append_dropWhile]

lemma forall₂_related {α β : Type} {r : α → β → Prop} {as : List α} {bs : List β}
    (h : List.Forall₂ r as bs) : ∀ a ∈ as, ∃ b, r a b := by
  induction h with
  | nil => simp
  | cons hr _ ih => exact List.forall_mem_cons.mpr ⟨⟨_, hr⟩, ih⟩

lemma options_sound (n : ℕ) (cs left : List Char) (ps : List (Pair Rule)) (hn : cs.length < n)
    (h : optionReader.seq tailReader (cs.dropWhile isSpace) = some (ps, left)) :
    left = [] ∧ ∃ options, ps = options ++ [eoiNode] ∧
      List.Forall₂ OptionNode (segments cs) options := by
  induction n generalizing cs left ps with
  | zero => omega
  | succ n ih =>
    cases ho : optionReader (cs.dropWhile isSpace) with
    | none => simp [Reader.seq_none ho] at h
    | some x =>
      obtain ⟨qs, mid⟩ := x
      obtain ⟨seg, p, hcs, rfl, hp⟩ := option_step ho
      have hcomma : ',' ∉ seg := by
        obtain ⟨o, _, _, _, hs, _⟩ := hp
        exact hs.no_comma
      rw [Reader.seq_some ho] at h
      obtain ⟨⟨rs, left'⟩, ht, he⟩ := Option.map_eq_some_iff.mp h
      simp only [Prod.mk.injEq] at he
      obtain ⟨rfl, rfl⟩ := he
      cases hm : mid.dropWhile isSpace with
      | nil =>
        rw [tailReader_end hm] at ht
        simp only [Option.some.injEq, Prod.mk.injEq] at ht
        obtain ⟨rfl, rfl⟩ := ht
        obtain rfl : cs = seg := by rw [hcs, hm, List.append_nil]
        refine ⟨rfl, [p], rfl, ?_⟩
        rw [segments, List.splitOn_eq_singleton hcomma]
        exact .cons hp .nil
      | cons c ds =>
        by_cases hc : c = ','
        · subst hc
          rw [tailReader_comma hm] at ht
          have hlen : ds.length < n := by
            have := congrArg List.length hcs
            rw [hm, List.length_append, List.length_cons] at this
            omega
          obtain ⟨hl, options, rfl, hf⟩ := ih ds left' rs hlen ht
          refine ⟨hl, p :: options, rfl, ?_⟩
          rw [hcs, hm, segments_append hcomma]
          exact .cons hp hf
        · rw [tailReader_other hm hc] at ht
          simp at ht

lemma optionReader_of_readOption {cs left : List Char} {o : OptionText}
    (h : readOption cs = some (o, left)) : ∃ ps, optionReader cs = some (ps, left) := by
  rw [optionReader, h]
  exact ⟨_, rfl⟩

lemma options_complete (n : ℕ) (cs : List Char) (hn : cs.length < n)
    (h : ∀ seg ∈ segments cs, ∃ o, SegmentText seg o) :
    ∃ x, optionReader.seq tailReader (cs.dropWhile isSpace) = some x := by
  induction n generalizing cs with
  | zero => omega
  | succ n ih =>
    rcases segments_cases cs with hs | ⟨seg, ds, hcs, hs⟩
    · obtain ⟨o, ho⟩ := h cs (by simp [hs])
      obtain ⟨left, hr, hl⟩ := readOption_complete ho (show Stops [] by intro c hc; simp at hc)
      rw [List.append_nil] at hr
      obtain ⟨ps, hq⟩ := optionReader_of_readOption hr
      rw [Reader.seq_some hq, tailReader_end hl]
      exact ⟨_, rfl⟩
    · obtain ⟨o, ho⟩ := h seg (by simp [hs])
      obtain ⟨left, hr, hl⟩ := readOption_complete ho
        (show Stops (',' :: ds) by intro c hc; simpa using hc.symm)
      rw [← hcs] at hr
      obtain ⟨ps, hq⟩ := optionReader_of_readOption hr
      have hlen : ds.length < n := by
        have := congrArg List.length hcs
        rw [List.length_append, List.length_cons] at this
        omega
      obtain ⟨x, hx⟩ := ih ds hlen fun seg' hm => h seg' (by simp [hs, hm])
      rw [Reader.seq_some hq, tailReader_comma hl, hx]
      exact ⟨_, rfl⟩

lemma parse_ok_iff (s : List Char) (ps : List (Pair Rule)) :
    parseAgentOptionsList s = .ok ps ↔
      ∃ qs left, listReader s = some (qs, left) ∧
        ps = [.mk .agentOptionsList (s.take (s.length - left.length)) qs] := by
  rw [parseAgentOptionsList, ruleDepth, parse_eq 0]
  cases h : listReader s with
  | none => simp
  | some x => simp [Prod.ext_iff, eq_comm]

lemma blank_list {s : List Char} (h : Blank s) : listReader s = some ([eoiNode], []) := by
  rw [listReader_eq, (blank_iff s).mp h]
  rfl

lemma not_blank_list {s : List Char} (h : ¬ Blank s) :
    listReader s = optionReader.seq tailReader (s.dropWhile isSpace) := by
  rw [listReader_eq]
  obtain ⟨c, cs, hc⟩ := List.exists_cons_of_ne_nil (fun he => h ((blank_iff s).mpr he))
  split
  · next ho => rw [Reader.seq_none ho, hc, eoiReader_cons]
  · rfl

lemma parse_fuel (s : List Char) (n : ℕ) :
    grammar.parse (ruleDepth + n) .agentOptionsList s = parseAgentOptionsList s := by
  rw [parseAgentOptionsList, ruleDepth, Nat.add_comm, parse_eq n, parse_eq 0]

lemma parse_ends (s : List Char) : parseAgentOptionsList s ≠ .outOfFuel := by
  rw [parseAgentOptionsList, ruleDepth, parse_eq 0]
  cases listReader s <;> simp

lemma parse_tree {s : List Char} {ps : List (Pair Rule)} (h : parseAgentOptionsList s = .ok ps) :
    ∃ options, ps = [.mk .agentOptionsList s (options ++ [eoiNode])] ∧
      (Blank s → options = []) ∧
      (¬ Blank s → List.Forall₂ OptionNode (segments s) options) := by
  obtain ⟨qs, left, hl, rfl⟩ := (parse_ok_iff s ps).mp h
  by_cases hb : Blank s
  · rw [blank_list hb] at hl
    simp only [Option.some.injEq, Prod.mk.injEq] at hl
    obtain ⟨rfl, rfl⟩ := hl
    exact ⟨[], by simp, fun _ => rfl, fun hn => absurd hb hn⟩
  · rw [not_blank_list hb] at hl
    obtain ⟨rfl, options, rfl, hf⟩ := options_sound _ s left qs (Nat.lt_succ_self _) hl
    exact ⟨options, by simp, fun hn => absurd hn hb, fun _ => hf⟩

lemma parse_accepts (s : List Char) :
    (∃ ps, parseAgentOptionsList s = .ok ps) ↔
      Blank s ∨ ∀ seg ∈ segments s, ∃ o, SegmentText seg o := by
  constructor
  · rintro ⟨ps, h⟩
    obtain ⟨options, -, -, hf⟩ := parse_tree h
    by_cases hb : Blank s
    · exact .inl hb
    · refine .inr fun seg hs => ?_
      obtain ⟨p, o, _, _, _, ho, _⟩ := forall₂_related (hf hb) seg hs
      exact ⟨o, ho⟩
  · rintro (hb | hs)
    · exact ⟨_, (parse_ok_iff s _).mpr ⟨_, _, blank_list hb, rfl⟩⟩
    · obtain ⟨⟨qs, left⟩, hx⟩ := options_complete _ s (Nat.lt_succ_self _) hs
      have hb := not_blank_of_segments hs
      exact ⟨_, (parse_ok_iff s _).mpr ⟨qs, left, (not_blank_list hb).trans hx, rfl⟩⟩

/-- The parser ends on every text, whatever fuel beyond the depth of the grammar it is given. It
accepts the blank texts and the texts all of whose segments are options, and its tree has one node
for each segment. -/
theorem parser_correct (s : List Char) :
    (∀ n, grammar.parse (ruleDepth + n) .agentOptionsList s = parseAgentOptionsList s) ∧
    parseAgentOptionsList s ≠ .outOfFuel ∧
    ((∃ ps, parseAgentOptionsList s = .ok ps) ↔
      Blank s ∨ ∀ seg ∈ segments s, ∃ o, SegmentText seg o) ∧
    ∀ ps, parseAgentOptionsList s = .ok ps →
      ∃ options, ps = [.mk .agentOptionsList s (options ++ [eoiNode])] ∧
        (Blank s → options = []) ∧
        (¬ Blank s → List.Forall₂ OptionNode (segments s) options) :=
  ⟨parse_fuel s, parse_ends s, parse_accepts s, fun _ => parse_tree⟩

end PhasicJ.AgentConf
