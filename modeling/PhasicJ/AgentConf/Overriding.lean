import PhasicJ.AgentConf.Configuration

/-! Applying lists of options one after the other, and the options that decide each field. -/

namespace PhasicJ.AgentConf

/-- The options that a list of options names, in order. -/
def ListText (s : List Char) (os : List OptionText) : Prop :=
  Blank s ∧ os = [] ∨ List.Forall₂ SegmentText (segments s) os

lemma ListText.options {s : List Char} {os : List OptionText} (h : ListText s os)
    (hs : ¬ Blank s) : List.Forall₂ SegmentText (segments s) os :=
  h.resolve_left fun hb => hs hb.1

lemma ListText.unique {s : List Char} {os os' : List OptionText} (h : ListText s os)
    (h' : ListText s os') : os = os' := by
  have hn : ∀ {os}, List.Forall₂ SegmentText (segments s) os → ¬ Blank s := fun hf =>
    not_blank_of_segments (forall₂_related hf)
  rcases h with ⟨hb, rfl⟩ | hf
  · rcases h' with ⟨-, rfl⟩ | hf'
    · rfl
    · exact absurd hb (hn hf')
  · have hf' := h'.options (hn hf)
    clear h' hn
    generalize segments s = segs at hf hf'
    induction hf generalizing os' with
    | nil => cases hf'; rfl
    | cons ho _ ih =>
      cases hf' with
      | cons ho' hf' => rw [ho.unique ho', ih hf']

lemma exists_related {α β : Type} {r : α → β → Prop} {as : List α} (h : ∀ a ∈ as, ∃ b, r a b) :
    ∃ bs, List.Forall₂ r as bs := by
  induction as with
  | nil => exact ⟨[], .nil⟩
  | cons a as ih =>
    obtain ⟨⟨b, hb⟩, hrest⟩ := List.forall_mem_cons.mp h
    obtain ⟨bs, hbs⟩ := ih hrest
    exact ⟨b :: bs, .cons hb hbs⟩

lemma exists_listText {s : List Char} (h : ∃ ps, parseAgentOptionsList s = .ok ps) :
    ∃ os, ListText s os := by
  rcases (parse_accepts s).mp h with hb | hs
  · exact ⟨[], .inl ⟨hb, rfl⟩⟩
  · obtain ⟨os, ho⟩ := exists_related hs
    exact ⟨os, .inr ho⟩

lemma segments_comma (s t : List Char) : segments (s ++ ',' :: t) = segments s ++ segments t :=
  List.splitOn_append_cons_self s t

lemma forall₂_append_left {α β : Type} {r : α → β → Prop} {as bs : List α} {cs : List β}
    (h : List.Forall₂ r (as ++ bs) cs) :
    ∃ ds es, cs = ds ++ es ∧ List.Forall₂ r as ds ∧ List.Forall₂ r bs es := by
  induction as generalizing cs with
  | nil => exact ⟨[], cs, rfl, .nil, h⟩
  | cons a as ih =>
    obtain ⟨c, cs, hr, hrest, rfl⟩ := List.forall₂_cons_left_iff.mp h
    obtain ⟨ds, es, rfl, hd, he⟩ := ih hrest
    exact ⟨c :: ds, es, rfl, .cons hr hd, he⟩

lemma listText_comma {s t : List Char} (hs : ¬ Blank s) (ht : ¬ Blank t) {os : List OptionText} :
    ListText (s ++ ',' :: t) os ↔
      ∃ ds es, os = ds ++ es ∧ ListText s ds ∧ ListText t es := by
  have hb : ¬ Blank (s ++ ',' :: t) := fun h => absurd (h ',' (by simp)) (by decide)
  constructor
  · intro h
    have hf := h.options hb
    rw [segments_comma] at hf
    obtain ⟨ds, es, rfl, hd, he⟩ := forall₂_append_left hf
    exact ⟨ds, es, rfl, .inr hd, .inr he⟩
  · rintro ⟨ds, es, rfl, hd, he⟩
    refine .inr ?_
    rw [segments_comma]
    exact List.rel_append (hd.options hs) (he.options ht)

namespace PjAgentConf

def applyOption (conf : PjAgentConf) (o : OptionText) : Except String PjAgentConf :=
  conf.applyAgentOption o.nameStr o.valueStr

lemma mapM_eval (conf : PjAgentConf) (os : List OptionText) :
    (os.mapM OptionText.eval).map (fun ss => ss.foldl Setting.apply conf) =
      os.foldlM applyOption conf := by
  induction os generalizing conf with
  | nil => rfl
  | cons o os ih =>
    rw [List.mapM_cons, List.foldlM_cons, applyOption, applyAgentOption_eq]
    cases o.eval with
    | error e => rfl
    | ok s =>
      refine Eq.trans ?_ (ih (s.apply conf))
      cases os.mapM OptionText.eval <;> rfl

lemma apply_listText (conf : PjAgentConf) {s : String} {os : List OptionText}
    (h : ListText s.toList os) :
    conf.applyAgentOptionsListStr s = os.foldlM applyOption conf := by
  rcases h with ⟨hb, rfl⟩ | hf
  · obtain ⟨ps, hps⟩ := (parse_accepts s.toList).mpr (.inl hb)
    obtain ⟨options, rfl, he, -⟩ := parse_tree hps
    obtain rfl := he hb
    rw [applyAgentOptionsListStr, hps]
    rfl
  · rw [apply_segments conf s hf, mapM_eval]

lemma apply_ok_iff {conf conf' : PjAgentConf} {s : String} :
    conf.applyAgentOptionsListStr s = .ok conf' ↔
      ∃ os, ListText s.toList os ∧ os.foldlM applyOption conf = .ok conf' := by
  constructor
  · intro h
    obtain ⟨os, hos⟩ : ∃ os, ListText s.toList os := by
      apply exists_listText
      unfold applyAgentOptionsListStr at h
      split at h
      · next hps => exact ⟨_, hps⟩
      · cases h
      · cases h
    exact ⟨os, hos, apply_listText conf hos ▸ h⟩
  · rintro ⟨os, hos, h⟩
    exact (apply_listText conf hos).trans h

def lastNamed (name : String) (os : List OptionText) : Option OptionText :=
  (os.filter fun o => o.nameStr = name).getLast?

/-- A field has the value of the last option that names it, or else the value that it had. -/
def Given {α : Type} (os : List OptionText) (name : String)
    (value : Option String → Except String α) (before after : α) : Prop :=
  match lastNamed name os with
  | none => after = before
  | some o => value o.valueStr = .ok after

structure Overridden (os : List OptionText) (conf conf' : PjAgentConf) : Prop where
  verbose : Given os "verbose" evalBoolOptionValue conf.verbose conf'.verbose
  phasicjExec : Given os "phasicj_exec" .ok conf.phasicjExec conf'.phasicjExec
  debugDumpClassesBeforeInstr : Given os "debug_dump_classes_before_instr" evalBoolOptionValue
    conf.debugDumpClassesBeforeInstr conf'.debugDumpClassesBeforeInstr
  debugDumpClassesAfterInstr : Given os "debug_dump_classes_after_instr" evalBoolOptionValue
    conf.debugDumpClassesAfterInstr conf'.debugDumpClassesAfterInstr

lemma lastNamed_cons (name : String) (o : OptionText) (os : List OptionText) :
    lastNamed name (o :: os) =
      if o.nameStr = name then some ((lastNamed name os).getD o) else lastNamed name os := by
  by_cases h : o.nameStr = name
  · simp [lastNamed, h, List.getLast?_cons]
  · simp [lastNamed, h]

lemma given_unique {α : Type} {os : List OptionText} {name : String}
    {value : Option String → Except String α} {before after after' : α}
    (h : Given os name value before after) (h' : Given os name value before after') :
    after = after' := by
  unfold Given at h h'
  cases hl : lastNamed name os with
  | none =>
    rw [hl] at h h'
    exact h.trans h'.symm
  | some o =>
    rw [hl] at h h'
    exact Except.ok.inj (h.symm.trans h')

lemma given_run {α : Type} {field : PjAgentConf → α} {name : String}
    {value : Option String → Except String α}
    (hstep : ∀ c c' o, applyOption c o = .ok c' →
      if o.nameStr = name then value o.valueStr = .ok (field c') else field c' = field c)
    {os : List OptionText} {conf conf' : PjAgentConf} (h : os.foldlM applyOption conf = .ok conf') :
    Given os name value (field conf) (field conf') := by
  induction os generalizing conf with
  | nil =>
    obtain rfl : conf = conf' := Except.ok.inj h
    rfl
  | cons o os ih =>
    rw [List.foldlM_cons] at h
    cases hc : applyOption conf o with
    | error e =>
      rw [hc] at h
      cases h
    | ok c =>
      rw [hc] at h
      have hr := ih h
      have hs := hstep conf c o hc
      unfold Given at hr ⊢
      rw [lastNamed_cons]
      by_cases hn : o.nameStr = name
      · rw [if_pos hn] at hs ⊢
        cases hl : lastNamed name os with
        | none => rw [hl] at hr; exact hr ▸ hs
        | some d => rw [hl] at hr; exact hr
      · rw [if_neg hn] at hs ⊢
        cases hl : lastNamed name os with
        | none => rw [hl] at hr; exact hr.trans hs
        | some d => rw [hl] at hr; exact hr

lemma applyOption_eval (conf : PjAgentConf) {o : OptionText} :
    (∃ c, applyOption conf o = .ok c) ↔ ∃ s, o.eval = .ok s := by
  rw [applyOption, applyAgentOption_eq]
  cases o.eval <;> simp [Except.map]

lemma foldlM_accepted (conf : PjAgentConf) {os : List OptionText} :
    (∃ c, os.foldlM applyOption conf = .ok c) ↔ ∀ o ∈ os, ∃ s, o.eval = .ok s := by
  induction os generalizing conf with
  | nil => simp [pure, Except.pure]
  | cons o os ih =>
    rw [List.foldlM_cons, List.forall_mem_cons, ← applyOption_eval conf]
    cases hc : applyOption conf o with
    | error e => simp [bind, Except.bind]
    | ok c => simpa [bind, Except.bind] using ih c

lemma applyOption_fields {c c' : PjAgentConf} {o : OptionText} (h : applyOption c o = .ok c') :
    (if o.nameStr = "verbose" then evalBoolOptionValue o.valueStr = .ok c'.verbose
      else c'.verbose = c.verbose) ∧
    (if o.nameStr = "phasicj_exec" then Except.ok o.valueStr = (.ok c'.phasicjExec : Except String _)
      else c'.phasicjExec = c.phasicjExec) ∧
    (if o.nameStr = "debug_dump_classes_before_instr" then
        evalBoolOptionValue o.valueStr = .ok c'.debugDumpClassesBeforeInstr
      else c'.debugDumpClassesBeforeInstr = c.debugDumpClassesBeforeInstr) ∧
    (if o.nameStr = "debug_dump_classes_after_instr" then
        evalBoolOptionValue o.valueStr = .ok c'.debugDumpClassesAfterInstr
      else c'.debugDumpClassesAfterInstr = c.debugDumpClassesAfterInstr) := by
  unfold applyOption applyAgentOption at h
  split at h
  case h_1 hn | h_3 hn | h_4 hn =>
    cases hb : evalBoolOptionValue o.valueStr with
    | error e => simp [hb, Except.map] at h
    | ok b =>
      simp only [hb, Except.map, Except.ok.injEq] at h
      subst h
      simp [hn]
  case h_2 hn =>
    split at h
    · cases h
    · cases h
    · next v hv hne =>
      simp only [Except.ok.injEq] at h
      subst h
      simp [hn, hne]
  case h_5 => cases h

lemma overridden_of_foldlM {os : List OptionText} {conf conf' : PjAgentConf}
    (h : os.foldlM applyOption conf = .ok conf') : Overridden os conf conf' where
  verbose := given_run (fun _ _ _ h => (applyOption_fields h).1) h
  phasicjExec := given_run (fun _ _ _ h => (applyOption_fields h).2.1) h
  debugDumpClassesBeforeInstr := given_run (fun _ _ _ h => (applyOption_fields h).2.2.1) h
  debugDumpClassesAfterInstr := given_run (fun _ _ _ h => (applyOption_fields h).2.2.2) h

lemma Overridden.unique {os : List OptionText} {conf c c' : PjAgentConf}
    (h : Overridden os conf c) (h' : Overridden os conf c') : c = c' := by
  have hv := given_unique h.verbose h'.verbose
  have he := given_unique h.phasicjExec h'.phasicjExec
  have hb := given_unique h.debugDumpClassesBeforeInstr h'.debugDumpClassesBeforeInstr
  have ha := given_unique h.debugDumpClassesAfterInstr h'.debugDumpClassesAfterInstr
  cases c
  cases c'
  simp_all

lemma foldlM_ok_iff {os : List OptionText} {conf conf' : PjAgentConf} :
    os.foldlM applyOption conf = .ok conf' ↔
      (∀ o ∈ os, ∃ s, o.eval = .ok s) ∧ Overridden os conf conf' := by
  constructor
  · intro h
    exact ⟨(foldlM_accepted conf).mp ⟨conf', h⟩, overridden_of_foldlM h⟩
  · rintro ⟨ha, ho⟩
    obtain ⟨c, hc⟩ := (foldlM_accepted conf).mpr ha
    exact ho.unique (overridden_of_foldlM hc) ▸ hc

def SameOrder (os os' : List OptionText) : Prop :=
  ∀ name, (os.filter fun o => o.nameStr = name) = os'.filter fun o => o.nameStr = name

lemma SameOrder.mem {os os' : List OptionText} (h : SameOrder os os') (o : OptionText) :
    o ∈ os ↔ o ∈ os' := by
  have hm : ∀ os : List OptionText, o ∈ os ↔ o ∈ os.filter fun d => d.nameStr = o.nameStr := by
    intro os
    simp [List.mem_filter]
  rw [hm os, hm os', h o.nameStr]

lemma SameOrder.given {os os' : List OptionText} (h : SameOrder os os') {α : Type} {name : String}
    {value : Option String → Except String α} {before after : α} :
    Given os name value before after ↔ Given os' name value before after := by
  rw [Given, Given, lastNamed, lastNamed, h name]

lemma SameOrder.foldlM {os os' : List OptionText} (h : SameOrder os os') (conf conf' : PjAgentConf) :
    os.foldlM applyOption conf = .ok conf' ↔ os'.foldlM applyOption conf = .ok conf' := by
  have hmem := h.mem
  rw [foldlM_ok_iff, foldlM_ok_iff]
  refine and_congr (by simp only [hmem]) ?_
  constructor
  · rintro ⟨hv, he, hb, ha⟩
    exact ⟨h.given.mp hv, h.given.mp he, h.given.mp hb, h.given.mp ha⟩
  · rintro ⟨hv, he, hb, ha⟩
    exact ⟨h.given.mpr hv, h.given.mpr he, h.given.mpr hb, h.given.mpr ha⟩

lemma apply_concatenated {s t : String} (hs : ¬ Blank s.toList) (ht : ¬ Blank t.toList)
    (conf conf' : PjAgentConf) :
    conf.applyAgentOptionsListStr (s ++ "," ++ t) = .ok conf' ↔
      ∃ c, conf.applyAgentOptionsListStr s = .ok c ∧ c.applyAgentOptionsListStr t = .ok conf' := by
  have hst : (s ++ "," ++ t).toList = s.toList ++ ',' :: t.toList := by simp
  simp only [apply_ok_iff, hst, listText_comma hs ht]
  constructor
  · rintro ⟨_, ⟨ds, es, rfl, hd, he⟩, h⟩
    rw [List.foldlM_append] at h
    cases hc : ds.foldlM applyOption conf with
    | error e =>
      rw [hc] at h
      cases h
    | ok c =>
      rw [hc] at h
      exact ⟨c, ⟨ds, hd, hc⟩, es, he, h⟩
  · rintro ⟨c, ⟨ds, hd, hc⟩, es, he, h⟩
    refine ⟨ds ++ es, ⟨ds, es, rfl, hd, he⟩, ?_⟩
    rw [List.foldlM_append, hc]
    exact h

theorem lists_applied_in_turn (conf conf' : PjAgentConf) :
    (∀ s t : String, ¬ Blank s.toList → ¬ Blank t.toList →
      (conf.applyAgentOptionsListStr (s ++ "," ++ t) = .ok conf' ↔
        ∃ c, conf.applyAgentOptionsListStr s = .ok c ∧
          c.applyAgentOptionsListStr t = .ok conf')) ∧
    (∀ s : String, conf.applyAgentOptionsListStr s = .ok conf' →
      ∃ os, ListText s.toList os ∧ Overridden os conf conf') ∧
    ∀ (s t : String) (os os' : List OptionText), ListText s.toList os → ListText t.toList os' →
      SameOrder os os' →
      (conf.applyAgentOptionsListStr s = .ok conf' ↔
        conf.applyAgentOptionsListStr t = .ok conf') := by
  refine ⟨fun s t hs ht => apply_concatenated hs ht conf conf', ?_, ?_⟩
  · intro s h
    obtain ⟨os, hos, h⟩ := apply_ok_iff.mp h
    exact ⟨os, hos, overridden_of_foldlM h⟩
  · intro s t os os' hs ht ho
    rw [apply_listText conf hs, apply_listText conf ht, ho.foldlM]

def verboseConf : PjAgentConf := { newWithDefaults with verbose := true }

theorem lists_applied_in_turn_verbose :
    newWithDefaults.applyAgentOptionsListStr ("verbose=false" ++ "," ++ " verbose") =
      .ok verboseConf := by
  have hs : ¬ Blank "verbose=false".toList := fun h => absurd (h 'v' (by decide)) (by decide)
  have ht : ¬ Blank " verbose".toList := fun h => absurd (h 'v' (by decide)) (by decide)
  exact ((lists_applied_in_turn newWithDefaults verboseConf).1 _ _ hs ht).mpr
    ⟨newWithDefaults, rfl, rfl⟩

end PjAgentConf

end PhasicJ.AgentConf
