import PhasicJ.AgentConf.ParserCorrectness

/-! The agent's configuration and how a list of options changes it. A panic is an error that
carries the panic's message. -/

namespace PhasicJ.AgentConf

open Peg

structure PjAgentConf where
  verbose : Bool
  phasicjExec : Option String
  debugDumpClassesBeforeInstr : Bool
  debugDumpClassesAfterInstr : Bool
  deriving DecidableEq

namespace PjAgentConf

def newWithDefaults : PjAgentConf where
  verbose := false
  phasicjExec := none
  debugDumpClassesBeforeInstr := false
  debugDumpClassesAfterInstr := false

def evalBoolOptionValue : Option String → Except String Bool
  | none => .ok true
  | some "true" => .ok true
  | some "false" => .ok false
  | some otherwise => .error ("Unexpected agent option value: " ++ otherwise)

def applyAgentOption (conf : PjAgentConf) (optionName : String) (optionValue : Option String) :
    Except String PjAgentConf :=
  match optionName with
  | "verbose" => (evalBoolOptionValue optionValue).map fun b => { conf with verbose := b }
  | "phasicj_exec" =>
    match optionValue with
    | none => .error "The PhasicJ agent's `phasicj_exec` option is set, but it has no value."
    | some "" =>
      .error "The PhasicJ agent's `phasicj_exec` option cannot be set to an empty string."
    | some value => .ok { conf with phasicjExec := some value }
  | "debug_dump_classes_before_instr" =>
    (evalBoolOptionValue optionValue).map fun b => { conf with debugDumpClassesBeforeInstr := b }
  | "debug_dump_classes_after_instr" =>
    (evalBoolOptionValue optionValue).map fun b => { conf with debugDumpClassesAfterInstr := b }
  | _ => .error ("Unrecognized agent option name: " ++ optionName)

def asStr (p : Pair Rule) : String := String.ofList p.text

def applyAgentOptionPair (conf : PjAgentConf) (agentOption : Pair Rule) :
    Except String PjAgentConf :=
  if agentOption.rule = .agentOption then
    match agentOption.inner with
    | [name] => conf.applyAgentOption (asStr name) none
    | [name, value] => conf.applyAgentOption (asStr name) (some (asStr value))
    | _ => .error "Unexpected agent option parsing state."
  else .error "assertion failed: `(left == right)`"

def applyListItem (conf : PjAgentConf) (option : Pair Rule) : Except String PjAgentConf :=
  match option.rule with
  | .agentOption => conf.applyAgentOptionPair option
  | .eoi => .ok conf
  | _ => .error "internal error: entered unreachable code"

def applyAgentOptionsListStr (conf : PjAgentConf) (optionsStr : String) :
    Except String PjAgentConf :=
  match parseAgentOptionsList optionsStr.toList with
  | .ok (optionsList :: _) =>
    if optionsList.rule = .agentOptionsList then optionsList.inner.foldlM applyListItem conf
    else .error "assertion failed: `(left == right)`"
  | .ok [] => .error "called `Option::unwrap()` on a `None` value"
  | _ => .error "Failed to parse PhasicJ Agent's options."

def newFromAgentOptionsListStr (optionsStr : String) : Except String PjAgentConf :=
  newWithDefaults.applyAgentOptionsListStr optionsStr

end PjAgentConf

inductive Setting where
  | verbose (b : Bool)
  | phasicjExec (path : String)
  | debugDumpClassesBeforeInstr (b : Bool)
  | debugDumpClassesAfterInstr (b : Bool)
  deriving DecidableEq

def Setting.apply (conf : PjAgentConf) : Setting → PjAgentConf
  | .verbose b => { conf with verbose := b }
  | .phasicjExec path => { conf with phasicjExec := some path }
  | .debugDumpClassesBeforeInstr b => { conf with debugDumpClassesBeforeInstr := b }
  | .debugDumpClassesAfterInstr b => { conf with debugDumpClassesAfterInstr := b }

def OptionText.nameStr (o : OptionText) : String := String.ofList o.name

def OptionText.valueStr (o : OptionText) : Option String := o.value.map String.ofList

def OptionText.eval (o : OptionText) : Except String Setting :=
  match o.nameStr with
  | "verbose" => (PjAgentConf.evalBoolOptionValue o.valueStr).map .verbose
  | "phasicj_exec" =>
    match o.valueStr with
    | none => .error "The PhasicJ agent's `phasicj_exec` option is set, but it has no value."
    | some "" =>
      .error "The PhasicJ agent's `phasicj_exec` option cannot be set to an empty string."
    | some value => .ok (.phasicjExec value)
  | "debug_dump_classes_before_instr" =>
    (PjAgentConf.evalBoolOptionValue o.valueStr).map .debugDumpClassesBeforeInstr
  | "debug_dump_classes_after_instr" =>
    (PjAgentConf.evalBoolOptionValue o.valueStr).map .debugDumpClassesAfterInstr
  | name => .error ("Unrecognized agent option name: " ++ name)

namespace PjAgentConf

lemma applyAgentOption_eq (conf : PjAgentConf) (o : OptionText) :
    conf.applyAgentOption o.nameStr o.valueStr = o.eval.map (Setting.apply conf) := by
  unfold applyAgentOption OptionText.eval
  split
  · cases evalBoolOptionValue o.valueStr <;> rfl
  · split <;> rfl
  · cases evalBoolOptionValue o.valueStr <;> rfl
  · cases evalBoolOptionValue o.valueStr <;> rfl
  · rfl

lemma applyListItem_node (conf : PjAgentConf) {seg : List Char} {p : Pair Rule}
    {o : OptionText} (h : SegmentText seg o) (hp : OptionNode seg p) :
    conf.applyListItem p = o.eval.map (Setting.apply conf) := by
  obtain ⟨o', _, text, _, ho', -, -, -, rfl⟩ := hp
  obtain rfl := h.unique ho'
  rw [← applyAgentOption_eq]
  obtain ⟨name, value⟩ := o
  cases value <;> rfl

lemma foldlM_nodes (conf : PjAgentConf) {segs : List (List Char)} {os : List OptionText}
    {ps : List (Pair Rule)} (ho : List.Forall₂ SegmentText segs os)
    (hp : List.Forall₂ OptionNode segs ps) :
    (ps ++ [eoiNode]).foldlM applyListItem conf =
      (os.mapM OptionText.eval).map fun ss => ss.foldl Setting.apply conf := by
  induction ho generalizing ps conf with
  | nil =>
    obtain rfl := List.forall₂_nil_left_iff.mp hp
    rfl
  | @cons seg o segs os h _ ih =>
    obtain ⟨p, ps, hnode, hrest, rfl⟩ := List.forall₂_cons_left_iff.mp hp
    rw [List.cons_append, List.foldlM_cons, applyListItem_node conf h hnode, List.mapM_cons]
    cases ho : o.eval with
    | error e => rfl
    | ok s =>
      refine (ih (s.apply conf) hrest).trans ?_
      cases os.mapM OptionText.eval <;> rfl

lemma apply_segments (conf : PjAgentConf) (s : String) {os : List OptionText}
    (h : List.Forall₂ SegmentText (segments s.toList) os) :
    conf.applyAgentOptionsListStr s =
      (os.mapM OptionText.eval).map fun ss => ss.foldl Setting.apply conf := by
  have hs := forall₂_related h
  obtain ⟨ps, hps⟩ := (parse_accepts s.toList).mpr (.inr hs)
  obtain ⟨options, rfl, -, hf⟩ := parse_tree hps
  rw [applyAgentOptionsListStr, hps, ← foldlM_nodes conf h (hf (not_blank_of_segments hs))]
  rfl

lemma applyAgentOption_exec {conf conf' : PjAgentConf} {name : String} {value : Option String}
    (h : conf.applyAgentOption name value = .ok conf') (hc : conf.phasicjExec ≠ some "") :
    conf'.phasicjExec ≠ some "" := by
  unfold applyAgentOption at h
  split at h
  case h_1 | h_3 | h_4 =>
    cases hb : evalBoolOptionValue value with
    | error e => simp [hb, Except.map] at h
    | ok b =>
      simp only [hb, Except.map, Except.ok.injEq] at h
      exact h ▸ hc
  case h_2 =>
    split at h
    · cases h
    · cases h
    · next v hv =>
      simp only [Except.ok.injEq] at h
      subst h
      simpa using hv
  case h_5 => cases h

lemma applyListItem_exec {conf conf' : PjAgentConf} {option : Pair Rule}
    (h : conf.applyListItem option = .ok conf') (hc : conf.phasicjExec ≠ some "") :
    conf'.phasicjExec ≠ some "" := by
  unfold applyListItem at h
  split at h
  · next hr =>
    rw [applyAgentOptionPair, if_pos hr] at h
    split at h
    · exact applyAgentOption_exec h hc
    · exact applyAgentOption_exec h hc
    · cases h
  · simp only [Except.ok.injEq] at h
    exact h ▸ hc
  · cases h

lemma foldlM_exec {options : List (Pair Rule)} {conf conf' : PjAgentConf}
    (h : options.foldlM applyListItem conf = .ok conf') (hc : conf.phasicjExec ≠ some "") :
    conf'.phasicjExec ≠ some "" := by
  induction options generalizing conf with
  | nil =>
    obtain rfl : conf = conf' := by simpa [pure, Except.pure] using h
    exact hc
  | cons option options ih =>
    rw [List.foldlM_cons] at h
    cases ho : conf.applyListItem option with
    | error e => simp [ho, bind, Except.bind] at h
    | ok c =>
      rw [ho] at h
      exact ih h (applyListItem_exec ho hc)

lemma newFromAgentOptionsListStr_exec {s : String} {conf : PjAgentConf}
    (h : newFromAgentOptionsListStr s = .ok conf) : conf.phasicjExec ≠ some "" := by
  unfold newFromAgentOptionsListStr applyAgentOptionsListStr at h
  split at h
  · split at h
    · exact foldlM_exec h (by decide)
    · cases h
  · cases h
  · cases h

end PjAgentConf

end PhasicJ.AgentConf
