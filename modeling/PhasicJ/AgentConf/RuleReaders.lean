import PhasicJ.AgentConf.Grammar
import PhasicJ.Peg.Readers

/-! What each rule of the grammar reads from the rest of the input. -/

namespace PhasicJ.AgentConf

open Peg

structure OptionText where
  name : List Char
  value : Option (List Char)
  deriving DecidableEq

def argNode (value : List Char) : Pair Rule := .mk .confOptionArg value []

def OptionText.nodes (o : OptionText) : List (Pair Rule) :=
  .mk .confOptionName o.name [] :: (o.value.map argNode).toList

def readQuoted : List Char → Option (List Char × List Char)
  | '"' :: cs =>
    match (cs.dropWhile isSpace).dropWhile isArgChar with
    | '"' :: left => some ((cs.dropWhile isSpace).takeWhile isArgChar, left)
    | _ => none
  | _ => none

def readValue (cs : List Char) : List Char × List Char :=
  (readQuoted cs).getD (cs.takeWhile isArgChar, cs.dropWhile isArgChar)

def readOption (cs : List Char) : Option (OptionText × List Char) :=
  if cs.takeWhile isNameChar = [] then none
  else
    match (cs.dropWhile isNameChar).dropWhile isSpace with
    | '=' :: left =>
      some (⟨cs.takeWhile isNameChar, some (readValue (left.dropWhile isSpace)).1⟩,
        (readValue (left.dropWhile isSpace)).2)
    | left => some (⟨cs.takeWhile isNameChar, none⟩, left)

def optionReader : Reader Rule := fun cs =>
  (readOption cs).map fun x =>
    ([.mk .agentOption (cs.take (cs.length - x.2.length)) x.1.nodes], x.2)

def spaces : Reader Rule := .span isSpace

def nameReader : Reader Rule := fun cs =>
  if cs.takeWhile isNameChar = [] then none
  else some ([.mk .confOptionName (cs.takeWhile isNameChar) []], cs.dropWhile isNameChar)

def argReader : Reader Rule := fun cs =>
  some ([argNode (cs.takeWhile isArgChar)], cs.dropWhile isArgChar)

def quotedReader : Reader Rule := fun cs =>
  (readQuoted cs).map fun x => ([argNode x.1], x.2)

lemma dropWhile_arg_space (cs : List Char) :
    (cs.dropWhile isArgChar).dropWhile isSpace = cs.dropWhile isArgChar := by
  induction cs with
  | nil => rfl
  | cons c cs ih =>
    cases hc : isArgChar c with
    | true => simpa [hc] using ih
    | false =>
      have hs : isSpace c = false := by
        cases hs : isSpace c with
        | false => rfl
        | true => simp_all [isArgChar, isSpace]
      simp [hc, hs]

lemma take_length_sub_dropWhile (p : Char → Bool) (cs : List Char) :
    cs.take (cs.length - (cs.dropWhile p).length) = cs.takeWhile p := by
  have h : cs.length = (cs.takeWhile p).length + (cs.dropWhile p).length := by
    rw [← List.length_append, List.takeWhile_append_dropWhile]
  rw [h, Nat.add_sub_cancel, ← List.prefix_iff_eq_take.mp (List.takeWhile_prefix p)]

section Rules

variable (n : ℕ)

lemma call_whitespace (m : Atomicity) :
    grammar.call (n + 1) .whitespace m = (Reader.char isSpace).run :=
  Grammar.call_silent rfl (.char ' ')

lemma skip_spaces : skip (grammar.call (n + 1)) grammar.whitespace .nonAtomic = spaces.run :=
  skip_nonAtomic (call_whitespace n .atomic)

lemma call_asciiAlphanumeric (m : Atomicity) :
    grammar.call (n + 1) .asciiAlphanumeric m = (Reader.char fun c =>
      ('a' ≤ c && c ≤ 'z') || (('A' ≤ c && c ≤ 'Z') || ('0' ≤ c && c ≤ '9'))).run :=
  Grammar.call_silent rfl ((Denotes.range 'a' 'z').choice_char
    ((Denotes.range 'A' 'Z').choice_char (.range '0' '9')))

lemma call_snakeCaseName :
    grammar.call (n + 2) .snakeCaseName .atomic =
      ((Reader.char isNameChar).seq (.span isNameChar)).run := by
  have ha : grammar.call (n + 1) .lowerLatinAlpha .atomic =
      (Reader.char fun c => 'a' ≤ c && c ≤ 'z').run :=
    Grammar.call_silent rfl (.range 'a' 'z')
  exact Grammar.call_silent rfl (Denotes.repOnce_char (Denotes.choice_char ha (.char '_')))

lemma call_confOptionName :
    grammar.call (n + 3) .confOptionName .nonAtomic = nameReader.run := by
  have hs : Denotes (grammar.call (n + 2)) grammar.whitespace .atomic
      (grammar.expr .confOptionName) _ := call_snakeCaseName n
  rw [Grammar.call_atomic rfl hs]
  congr 1
  funext cs
  cases cs with
  | nil => rfl
  | cons c cs =>
    cases hc : isNameChar c with
    | false => simp [Reader.node, Reader.seq, Reader.char, nameReader, hc]
    | true =>
      have ht := take_length_sub_dropWhile isNameChar (c :: cs)
      rw [List.dropWhile_cons_of_pos hc] at ht
      simp only [Reader.node, Reader.seq, Reader.char, Reader.span, hc, if_true, Option.bind_some,
        Option.map_some, ht]
      simp [nameReader, hc]

lemma call_confOptionArg :
    grammar.call (n + 2) .confOptionArg .nonAtomic = argReader.run := by
  have ha : Denotes (grammar.call (n + 1)) grammar.whitespace .atomic
      (.ident .asciiAlphanumeric) _ := call_asciiAlphanumeric n .atomic
  have hr : Denotes (grammar.call (n + 1)) grammar.whitespace .atomic
      (grammar.expr .confOptionArg) (.span isArgChar) :=
    Denotes.rep_char (ha.choice_char ((Denotes.char '.').choice_char
      ((Denotes.char ' ').choice_char ((Denotes.char '/').choice_char
        ((Denotes.char '-').choice_char (.char '_'))))))
  rw [Grammar.call_atomic rfl hr]
  congr 1
  funext cs
  have ht := take_length_sub_dropWhile isArgChar cs
  change some ([Pair.mk Rule.confOptionArg (cs.take (cs.length - (cs.dropWhile isArgChar).length)) []],
    cs.dropWhile isArgChar) = _
  rw [ht]
  rfl

lemma call_confOptionQuotedArg :
    grammar.call (n + 3) .confOptionQuotedArg .nonAtomic = quotedReader.run := by
  have ha : Denotes (grammar.call (n + 2)) grammar.whitespace .nonAtomic
      (.ident .confOptionArg) _ := call_confOptionArg n
  have hq := Denotes.seq (skip_spaces (n + 1)) (.char '"')
    (Denotes.seq (skip_spaces (n + 1)) ha (.char '"'))
  rw [Grammar.call_silent rfl hq]
  congr 1
  funext cs
  cases cs with
  | nil => rfl
  | cons c cs =>
    by_cases hc : c = '"'
    · subst hc
      have hs := dropWhile_arg_space (cs.dropWhile isSpace)
      simp only [Reader.seq, Reader.char, spaces, Reader.span, argReader, quotedReader, readQuoted,
        beq_self_eq_true, if_true, Option.bind_some, hs]
      generalize (cs.dropWhile isSpace).dropWhile isArgChar = left
      cases left with
      | nil => rfl
      | cons d left =>
        by_cases hd : d = '"'
        · subst hd; rfl
        · simp [hd]
    · simp [Reader.seq, Reader.char, quotedReader, readQuoted, hc]

def settingReader : Reader Rule :=
  ((Reader.char fun d => d == '=').seq (spaces.seq (quotedReader.choice argReader))).opt

lemma setting_equals (left : List Char) :
    settingReader ('=' :: left) =
      some ([argNode (readValue (left.dropWhile isSpace)).1],
        (readValue (left.dropWhile isSpace)).2) := by
  cases hv : readQuoted (left.dropWhile isSpace) <;>
    simp [settingReader, Reader.opt, Reader.seq, Reader.char, Reader.choice, Reader.span, spaces,
      quotedReader, argReader, readValue, hv]

lemma setting_other (left : List Char) (h : left.head? ≠ some '=') :
    settingReader left = some ([], left) := by
  cases left with
  | nil => rfl
  | cons d left =>
    have hd : d ≠ '=' := by simpa using h
    simp [settingReader, Reader.opt, Reader.seq, Reader.char, hd]

lemma readOption_other (cs : List Char) (hn : cs.takeWhile isNameChar ≠ [])
    (h : ((cs.dropWhile isNameChar).dropWhile isSpace).head? ≠ some '=') :
    readOption cs = some (⟨cs.takeWhile isNameChar, none⟩,
      (cs.dropWhile isNameChar).dropWhile isSpace) := by
  rw [readOption, if_neg hn]
  split
  · next he => simp [he] at h
  · rfl

lemma readOption_equals (cs left : List Char) (hn : cs.takeWhile isNameChar ≠ [])
    (h : (cs.dropWhile isNameChar).dropWhile isSpace = '=' :: left) :
    readOption cs = some (⟨cs.takeWhile isNameChar, some (readValue (left.dropWhile isSpace)).1⟩,
      (readValue (left.dropWhile isSpace)).2) := by
  simp only [readOption, if_neg hn, h]

lemma call_agentOption : grammar.call (n + 4) .agentOption .nonAtomic = optionReader.run := by
  have hn : Denotes (grammar.call (n + 3)) grammar.whitespace .nonAtomic
      (.ident .confOptionName) _ := call_confOptionName n
  have hq : Denotes (grammar.call (n + 3)) grammar.whitespace .nonAtomic
      (.ident .confOptionQuotedArg) _ := call_confOptionQuotedArg n
  have ha : Denotes (grammar.call (n + 3)) grammar.whitespace .nonAtomic
      (.ident .confOptionArg) _ := call_confOptionArg (n + 1)
  have ho : Denotes (grammar.call (n + 3)) grammar.whitespace .nonAtomic
      (grammar.expr .agentOption) (nameReader.seq (spaces.seq settingReader)) :=
    Denotes.seq (skip_spaces (n + 2)) hn
      (Denotes.opt (Denotes.seq (skip_spaces (n + 2)) (.char '=') (hq.choice ha)))
  rw [Grammar.call_normal rfl ho]
  congr 1
  funext cs
  by_cases hc : cs.takeWhile isNameChar = []
  · simp [Reader.node, Reader.seq, nameReader, optionReader, readOption, hc]
  · by_cases he : ((cs.dropWhile isNameChar).dropWhile isSpace).head? = some '='
    · obtain ⟨left, hl⟩ := List.head?_eq_some_iff.mp he
      simp [optionReader, readOption_equals cs left hc hl, Reader.node, Reader.seq, nameReader, hc,
        spaces, Reader.span, hl, setting_equals, OptionText.nodes]
    · simp [optionReader, readOption_other cs hc he, Reader.node, Reader.seq, nameReader, hc,
        spaces, Reader.span, setting_other _ he, OptionText.nodes]

end Rules

end PhasicJ.AgentConf
