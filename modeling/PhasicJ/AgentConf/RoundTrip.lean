import PhasicJ.AgentConf.Configuration

/-! Rendering a configuration as a list of options and reading the list back. -/

namespace PhasicJ.AgentConf

def boolText (b : Bool) : String := if b then "true" else "false"

def trimPath (v : String) : String := String.ofList (v.toList.dropWhile isSpace)

def PathText (v : String) : Prop := v ≠ "" ∧ ∀ ch ∈ v.toList, isValueChar ch ∨ ch = ' '

namespace Setting

def name : Setting → String
  | verbose _ => "verbose"
  | phasicjExec _ => "phasicj_exec"
  | debugDumpClassesBeforeInstr _ => "debug_dump_classes_before_instr"
  | debugDumpClassesAfterInstr _ => "debug_dump_classes_after_instr"

def written : Setting → String
  | phasicjExec path => "\"" ++ path ++ "\""
  | verbose b | debugDumpClassesBeforeInstr b | debugDumpClassesAfterInstr b => boolText b

def render (s : Setting) : String := s.name ++ "=" ++ s.written

def read : Setting → String
  | phasicjExec path => trimPath path
  | verbose b | debugDumpClassesBeforeInstr b | debugDumpClassesAfterInstr b => boolText b

def option (s : Setting) : OptionText := ⟨s.name.toList, some s.read.toList⟩

def trim : Setting → Setting
  | phasicjExec path => phasicjExec (trimPath path)
  | s => s

def Writable (s : Setting) : Prop := ∀ path, s = phasicjExec path → PathText path

end Setting

def renderList (order : List Setting) : String := ",".intercalate (order.map Setting.render)

def PjAgentConf.settings (c : PjAgentConf) : List Setting :=
  [.verbose c.verbose, .debugDumpClassesBeforeInstr c.debugDumpClassesBeforeInstr,
    .debugDumpClassesAfterInstr c.debugDumpClassesAfterInstr] ++
    (c.phasicjExec.map Setting.phasicjExec).toList

def PjAgentConf.trim (c : PjAgentConf) : PjAgentConf :=
  { c with phasicjExec := c.phasicjExec.map trimPath }

lemma toList_trimPath (v : String) : (trimPath v).toList = v.toList.dropWhile isSpace := by
  rw [trimPath, String.toList_ofList]

lemma Setting.nameText (s : Setting) : NameText s.name.toList := by
  have h : s.name.toList ≠ [] ∧ s.name.toList.all isNameChar := by
    cases s <;> simp only [name] <;> decide
  exact nameText_of_all h.1 h.2

lemma blank_nil : Blank [] := by
  intro c hc
  simp at hc

lemma valueText_bool (b : Bool) : ValueText (boolText b).toList (boolText b).toList := by
  cases b with
  | false => exact .raw (show isValueChar 'f' from rfl) (valueChars_of_all rfl)
  | true => exact .raw (show isValueChar 't' from rfl) (valueChars_of_all rfl)

lemma Setting.valueText {s : Setting} (h : s.Writable) :
    ValueText s.written.toList s.read.toList := by
  cases s with
  | phasicjExec path =>
    have hv := ValueText.quoted (h path rfl).2 blank_nil
    rwa [read, written, toList_trimPath, String.toList_append, String.toList_append]
  | verbose b => exact valueText_bool b
  | debugDumpClassesBeforeInstr b => exact valueText_bool b
  | debugDumpClassesAfterInstr b => exact valueText_bool b

lemma Setting.segmentText {s : Setting} (h : s.Writable) :
    SegmentText s.render.toList s.option := by
  have hs := SegmentText.setting blank_nil s.nameText blank_nil blank_nil (s.valueText h)
  rw [render, String.toList_append, String.toList_append, option]
  simpa using hs

lemma evalBoolOptionValue_boolText (b : Bool) :
    PjAgentConf.evalBoolOptionValue (some (boolText b)) = .ok b := by
  cases b <;> rfl

lemma Setting.option_nameStr (s : Setting) : s.option.nameStr = s.name :=
  String.ofList_toList

lemma Setting.option_valueStr (s : Setting) : s.option.valueStr = some s.read := by
  simp [option, OptionText.valueStr]

lemma Setting.option_eval {s : Setting} (h : ∀ path, s = phasicjExec path → trimPath path ≠ "") :
    s.option.eval = .ok s.trim := by
  rw [OptionText.eval, option_nameStr, option_valueStr]
  cases s with
  | verbose b => simp only [name, read, evalBoolOptionValue_boolText]; rfl
  | debugDumpClassesBeforeInstr b => simp only [name, read, evalBoolOptionValue_boolText]; rfl
  | debugDumpClassesAfterInstr b => simp only [name, read, evalBoolOptionValue_boolText]; rfl
  | phasicjExec path =>
    have hp := h path rfl
    simp only [name, read, trim]

lemma Setting.option_eval_blank {path : String} (h : trimPath path = "") :
    (phasicjExec path).option.eval =
      .error "The PhasicJ agent's `phasicj_exec` option cannot be set to an empty string." := by
  rw [OptionText.eval, option_nameStr, option_valueStr, read, h]
  rfl

lemma mapM_ok {ε α β : Type} {f : α → Except ε β} {g : α → β} {l : List α}
    (h : ∀ a ∈ l, f a = .ok (g a)) : l.mapM f = .ok (l.map g) := by
  induction l with
  | nil => rfl
  | cons a l ih =>
    rw [List.mapM_cons, h a (by simp), ih fun b hb => h b (by simp [hb])]
    rfl

lemma mapM_error {ε α β : Type} {f : α → Except ε β} {l : List α} {a : α} {e : ε}
    (ha : a ∈ l) (h : f a = .error e) : ∃ e', l.mapM f = .error e' := by
  induction l with
  | nil => simp at ha
  | cons b l ih =>
    rw [List.mapM_cons]
    cases hb : f b with
    | error e' => exact ⟨e', rfl⟩
    | ok x =>
      rcases List.mem_cons.mp ha with rfl | ha
      · rw [h] at hb
        cases hb
      · obtain ⟨e', he⟩ := ih ha
        exact ⟨e', by rw [he]; rfl⟩

lemma forall₂_map {α β γ : Type} {r : β → γ → Prop} {f : α → β} {g : α → γ} {l : List α}
    (h : ∀ a ∈ l, r (f a) (g a)) : List.Forall₂ r (l.map f) (l.map g) := by
  rw [List.forall₂_map_left_iff, List.forall₂_map_right_iff, List.forall₂_same]
  exact h

lemma segments_renderList {order : List Setting} (hne : order ≠ [])
    (h : ∀ s ∈ order, s.Writable) :
    segments (renderList order).toList = order.map fun s => s.render.toList := by
  rw [renderList, String.toList_intercalate, List.map_map]
  refine List.splitOn_intercalate ',' ?_ (by simpa using hne)
  intro seg hseg
  obtain ⟨s, hs, rfl⟩ := List.mem_map.mp hseg
  exact (s.segmentText (h s hs)).no_comma

lemma apply_renderList {order : List Setting} (hne : order ≠ []) (h : ∀ s ∈ order, s.Writable) :
    PjAgentConf.newFromAgentOptionsListStr (renderList order) =
      ((order.map Setting.option).mapM OptionText.eval).map fun ss =>
        ss.foldl Setting.apply .newWithDefaults := by
  apply PjAgentConf.apply_segments
  rw [segments_renderList hne h]
  exact forall₂_map fun s hs => s.segmentText (h s hs)

lemma mem_settings {c : PjAgentConf} {s : Setting} :
    s ∈ c.settings ↔ s = .verbose c.verbose ∨
      s = .debugDumpClassesBeforeInstr c.debugDumpClassesBeforeInstr ∨
      s = .debugDumpClassesAfterInstr c.debugDumpClassesAfterInstr ∨
      ∃ v, c.phasicjExec = some v ∧ s = .phasicjExec v := by
  simp [PjAgentConf.settings, eq_comm]

lemma settings_foldl (c : PjAgentConf) {order : List Setting} (h : order.Perm c.settings) :
    (order.map Setting.trim).foldl Setting.apply .newWithDefaults = c.trim := by
  have ht : c.settings.map Setting.trim = c.trim.settings := by
    cases hc : c.phasicjExec <;> simp [PjAgentConf.settings, PjAgentConf.trim, Setting.trim, hc]
  have hp : (order.map Setting.trim).Perm c.trim.settings := ht ▸ h.map Setting.trim
  rw [hp.foldl_eq']
  · obtain ⟨v, p, b, a⟩ := c
    cases p <;> rfl
  · intro x hx y hy z
    rw [hp.mem_iff, mem_settings] at hx hy
    rcases hx with rfl | rfl | rfl | ⟨v, hv, rfl⟩ <;>
      rcases hy with rfl | rfl | rfl | ⟨w, hw, rfl⟩ <;> try rfl
    simp [Setting.apply, Option.some.inj (hv.symm.trans hw)]

lemma trimPath_eq_iff (v : String) : trimPath v = v ↔ v.toList.head? ≠ some ' ' := by
  rw [← String.toList_inj, toList_trimPath]
  constructor
  · intro h hc
    rw [← h] at hc
    exact absurd (head_dropWhile hc) (by decide)
  · intro h
    apply dropWhile_head
    intro c hc
    cases hs : isSpace c with
    | false => rfl
    | true => exact absurd ((isSpace_iff c).mp hs ▸ hc) h

lemma PjAgentConf.trim_eq_iff (c : PjAgentConf) :
    c.trim = c ↔ ∀ v, c.phasicjExec = some v → trimPath v = v := by
  obtain ⟨_, p, _, _⟩ := c
  cases p <;> simp [trim]

/-- A rendered list is rejected when its path is blank, and is otherwise read as the configuration
whose path has lost its leading spaces. -/
lemma read_renderList (c : PjAgentConf) {order : List Setting} (ho : order.Perm c.settings)
    (hv : ∀ v, c.phasicjExec = some v → PathText v) :
    (∃ v e, c.phasicjExec = some v ∧ trimPath v = "" ∧
      PjAgentConf.newFromAgentOptionsListStr (renderList order) = .error e) ∨
    (∀ v, c.phasicjExec = some v → trimPath v ≠ "") ∧
      PjAgentConf.newFromAgentOptionsListStr (renderList order) = .ok c.trim := by
  have hpath : ∀ v, .phasicjExec v ∈ order ↔ c.phasicjExec = some v := by
    intro v
    rw [ho.mem_iff, mem_settings]
    simp
  have hne : order ≠ [] := by
    rintro rfl
    exact absurd ho.nil_eq (by simp [PjAgentConf.settings])
  have hw : ∀ s ∈ order, s.Writable := by
    rintro s hs path rfl
    exact hv path ((hpath path).mp hs)
  rw [apply_renderList hne hw]
  by_cases hb : ∃ v, c.phasicjExec = some v ∧ trimPath v = ""
  · obtain ⟨v, hc, ht⟩ := hb
    obtain ⟨e, he⟩ := mapM_error (List.mem_map_of_mem ((hpath v).mpr hc))
      (Setting.option_eval_blank ht)
    exact .inl ⟨v, e, hc, ht, by rw [he]; rfl⟩
  · have hb' : ∀ v, c.phasicjExec = some v → trimPath v ≠ "" := fun v hc ht => hb ⟨v, hc, ht⟩
    refine .inr ⟨hb', ?_⟩
    have hs : (order.map Setting.option).mapM OptionText.eval = .ok (order.map Setting.trim) := by
      rw [List.mapM_map]
      apply mapM_ok
      rintro s hs
      apply Setting.option_eval
      rintro path rfl
      exact hb' path ((hpath path).mp hs)
    rw [hs, Except.map, settings_foldl c ho]

/-- The round trip holds of exactly the configurations whose path does not start with a space. -/
theorem options_round_trip (c : PjAgentConf) (order : List Setting) (ho : order.Perm c.settings)
    (hv : ∀ v, c.phasicjExec = some v → PathText v) :
    PjAgentConf.newFromAgentOptionsListStr (renderList order) = .ok c ↔
      ∀ v, c.phasicjExec = some v → v.toList.head? ≠ some ' ' := by
  simp only [← trimPath_eq_iff]
  rw [← PjAgentConf.trim_eq_iff]
  rcases read_renderList c ho hv with ⟨v, e, hc, ht, he⟩ | ⟨-, h⟩
  · rw [he, PjAgentConf.trim_eq_iff]
    constructor
    · intro h
      cases h
    · intro h
      exact absurd ((h v hc).symm.trans ht) (hv v hc).1
  · rw [h, Except.ok.injEq]

def spacedConf : PjAgentConf := { PjAgentConf.newWithDefaults with phasicjExec := some "My Path/x" }

theorem options_round_trip_spaced :
    PjAgentConf.newFromAgentOptionsListStr (renderList spacedConf.settings) = .ok spacedConf :=
  (options_round_trip spacedConf spacedConf.settings (.refl _) (by
    intro v hv
    obtain rfl : "My Path/x" = v := by simpa [spacedConf] using hv
    exact ⟨by decide, valueChars_of_all rfl⟩)).mpr (by
    intro v hv
    obtain rfl : "My Path/x" = v := by simpa [spacedConf] using hv
    decide)

def indentedConf : PjAgentConf := { PjAgentConf.newWithDefaults with phasicjExec := some " a" }

theorem options_round_trip_fails :
    (∀ v, indentedConf.phasicjExec = some v → PathText v) ∧
      PjAgentConf.newFromAgentOptionsListStr (renderList indentedConf.settings) ≠
        .ok indentedConf := by
  have hv : ∀ v, indentedConf.phasicjExec = some v → PathText v := by
    intro v hv
    obtain rfl : " a" = v := by simpa [indentedConf] using hv
    exact ⟨by decide, valueChars_of_all rfl⟩
  refine ⟨hv, ?_⟩
  rcases read_renderList indentedConf (.refl _) hv with ⟨_, e, -, -, he⟩ | ⟨-, ht⟩
  · rw [he]
    simp
  · rw [ht]
    decide

end PhasicJ.AgentConf
