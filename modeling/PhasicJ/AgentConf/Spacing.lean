import PhasicJ.AgentConf.Overriding

/-! The tokens of a list of options, and the spaces that may stand between them. -/

namespace PhasicJ.AgentConf

def blanks (n : ℕ) : List Char := List.replicate n ' '

/-- A value with the spaces after it. After an unquoted value there are none: they would belong
to the value. -/
inductive WrittenValue where
  | quoted (content : List Char) (chars : ∀ c ∈ content, isValueChar c ∨ c = ' ') (after : ℕ)
  | raw (text : List Char) (chars : ∀ c ∈ text, isValueChar c ∨ c = ' ')
      (start : text.head? ≠ some ' ')

structure WrittenOption where
  before : ℕ
  name : List Char
  nameText : NameText name
  after : ℕ
  value : Option (ℕ × WrittenValue)

inductive WrittenList where
  | blank (n : ℕ)
  | options (os : List WrittenOption) (nonempty : os ≠ [])

namespace WrittenValue

def text : WrittenValue → List Char
  | quoted content _ after => '"' :: content ++ '"' :: blanks after
  | raw text _ _ => text

def read : WrittenValue → List Char
  | quoted content _ _ => content.dropWhile isSpace
  | raw text _ _ => text

inductive Widened : WrittenValue → WrittenValue → Prop
  | quoted {content : List Char} {chars : ∀ c ∈ content, isValueChar c ∨ c = ' '} {m n : ℕ} :
      m ≤ n → Widened (.quoted content chars m) (.quoted content chars n)
  | raw {v : List Char} {chars : ∀ c ∈ v, isValueChar c ∨ c = ' '} {start : v.head? ≠ some ' '} :
      Widened (.raw v chars start) (.raw v chars start)

end WrittenValue

namespace WrittenOption

def text (o : WrittenOption) : List Char :=
  blanks o.before ++ o.name ++ blanks o.after ++
    o.value.elim [] fun v => '=' :: blanks v.1 ++ v.2.text

def option (o : WrittenOption) : OptionText := ⟨o.name, o.value.map fun v => v.2.read⟩

structure Widened (o o' : WrittenOption) : Prop where
  before : o.before ≤ o'.before
  name : o.name = o'.name
  after : o.after ≤ o'.after
  value : Option.Rel (fun v v' => v.1 ≤ v'.1 ∧ v.2.Widened v'.2) o.value o'.value

end WrittenOption

namespace WrittenList

def text : WrittenList → List Char
  | blank n => blanks n
  | options os _ => [','].intercalate (os.map WrittenOption.text)

def optionTexts : WrittenList → List OptionText
  | blank _ => []
  | options os _ => os.map WrittenOption.option

inductive Widened : WrittenList → WrittenList → Prop
  | blank {m n : ℕ} : m ≤ n → Widened (.blank m) (.blank n)
  | options {os os' : List WrittenOption} {h : os ≠ []} {h' : os' ≠ []} :
      List.Forall₂ WrittenOption.Widened os os' → Widened (.options os h) (.options os' h')

end WrittenList

lemma blank_blanks (n : ℕ) : Blank (blanks n) := fun _ => List.eq_of_mem_replicate

lemma Blank.eq_blanks {cs : List Char} (h : Blank cs) : cs = blanks cs.length :=
  List.eq_replicate_of_mem h

section Tokens

lemma WrittenValue.valueText (v : WrittenValue) : ValueText v.text v.read := by
  cases v with
  | quoted content chars after => exact .quoted chars (blank_blanks after)
  | raw text chars start =>
    cases text with
    | nil => exact .empty
    | cons c cs =>
      rcases chars c (by simp) with hc | rfl
      · exact .raw hc fun d hd => chars d (by simp [hd])
      · exact absurd rfl start

lemma WrittenOption.segmentText (o : WrittenOption) : SegmentText o.text o.option := by
  rcases o with ⟨before, name, hn, after, value⟩
  cases value with
  | none =>
    have h := SegmentText.flag (blank_blanks before) hn (blank_blanks after)
    simpa [text, option] using h
  | some v =>
    have h := SegmentText.setting (blank_blanks before) hn (blank_blanks after) (blank_blanks v.1)
      v.2.valueText
    simpa [text, option] using h

lemma WrittenList.listText (w : WrittenList) : ListText w.text w.optionTexts := by
  cases w with
  | blank n => exact .inl ⟨blank_blanks n, rfl⟩
  | options os hne =>
    have hs : segments (text (options os hne)) = os.map WrittenOption.text := by
      apply List.splitOn_intercalate
      · intro l hl
        obtain ⟨o, -, rfl⟩ := List.mem_map.mp hl
        exact o.segmentText.no_comma
      · simpa using hne
    refine .inr ?_
    rw [hs, optionTexts, List.forall₂_map_left_iff, List.forall₂_map_right_iff, List.forall₂_same]
    intro o _
    exact o.segmentText

end Tokens

section Widening

lemma WrittenValue.Widened.read_eq {v v' : WrittenValue} (h : v.Widened v') : v.read = v'.read := by
  cases h <;> rfl

lemma WrittenOption.Widened.option_eq {o o' : WrittenOption} (h : o.Widened o') :
    o.option = o'.option := by
  rcases o with ⟨before, name, hn, after, value⟩
  rcases o' with ⟨before', name', hn', after', value'⟩
  obtain ⟨-, rfl, -, hv⟩ := h
  cases hv with
  | none => rfl
  | some hv => simp [option, hv.2.read_eq]

lemma WrittenList.Widened.optionTexts_eq {w w' : WrittenList} (h : w.Widened w') :
    w.optionTexts = w'.optionTexts := by
  cases h with
  | blank => rfl
  | options hf =>
    rw [optionTexts, optionTexts]
    clear * - hf
    induction hf with
    | nil => rfl
    | cons ho _ ih => rw [List.map_cons, List.map_cons, ho.option_eq, ih]

end Widening

section Layouts

lemma ValueText.written {text value : List Char} (h : ValueText text value) :
    ∃ v : WrittenValue, v.text = text := by
  cases h with
  | @quoted content after hc ha =>
    refine ⟨.quoted content hc after.length, ?_⟩
    rw [WrittenValue.text, ← ha.eq_blanks]
  | empty => exact ⟨.raw [] (by simp) (by simp), rfl⟩
  | @raw c cs hc hcs =>
    refine ⟨.raw (c :: cs) (List.forall_mem_cons.mpr ⟨.inl hc, hcs⟩) ?_, rfl⟩
    rintro h
    obtain rfl : c = ' ' := by simpa using h
    exact absurd hc (by decide)

lemma SegmentText.written {seg : List Char} {o : OptionText} (h : SegmentText seg o) :
    ∃ w : WrittenOption, w.text = seg := by
  cases h with
  | @flag before name after hb hn ha =>
    refine ⟨⟨before.length, name, hn, after.length, none⟩, ?_⟩
    rw [WrittenOption.text, ← hb.eq_blanks, ← ha.eq_blanks]
    simp
  | @setting before name after pad text value hb hn ha hp hv =>
    obtain ⟨v, rfl⟩ := hv.written
    refine ⟨⟨before.length, name, hn, after.length, some (pad.length, v)⟩, ?_⟩
    rw [WrittenOption.text, ← hb.eq_blanks, ← ha.eq_blanks]
    simp [← hp.eq_blanks]

lemma ListText.written {s : List Char} {os : List OptionText} (h : ListText s os) :
    ∃ w : WrittenList, w.text = s := by
  rcases h with ⟨hb, -⟩ | hf
  · exact ⟨.blank s.length, hb.eq_blanks.symm⟩
  · have hw : ∀ seg ∈ segments s, ∃ w : WrittenOption, seg = w.text := by
      intro seg hseg
      obtain ⟨o, ho⟩ := forall₂_related hf seg hseg
      obtain ⟨w, hw⟩ := ho.written
      exact ⟨w, hw.symm⟩
    obtain ⟨ws, hws⟩ := exists_related hw
    have hm : segments s = ws.map WrittenOption.text := by
      rwa [← List.forall₂_map_right_iff, List.forall₂_eq_eq_eq] at hws
    have hne : ws ≠ [] := by
      rintro rfl
      exact List.splitOn_ne_nil ',' s hm
    refine ⟨.options ws hne, ?_⟩
    rw [WrittenList.text, ← hm]
    exact List.intercalate_splitOn ','

end Layouts

open PjAgentConf

theorem spaces_between_tokens (conf : PjAgentConf) :
    (∀ (s : String) (conf' : PjAgentConf), conf.applyAgentOptionsListStr s = .ok conf' →
      ∃ w : WrittenList, s = String.ofList w.text) ∧
    ∀ w w' : WrittenList, w.Widened w' →
      conf.applyAgentOptionsListStr (String.ofList w'.text) =
        conf.applyAgentOptionsListStr (String.ofList w.text) := by
  constructor
  · intro s conf' h
    obtain ⟨os, hos, -⟩ := apply_ok_iff.mp h
    obtain ⟨w, hw⟩ := hos.written
    exact ⟨w, by rw [hw, String.ofList_toList]⟩
  · intro w w' h
    have hw : ListText (String.ofList w.text).toList w.optionTexts :=
      String.toList_ofList.symm ▸ w.listText
    have hw' : ListText (String.ofList w'.text).toList w.optionTexts :=
      String.toList_ofList.symm ▸ h.optionTexts_eq.symm ▸ w'.listText
    rw [apply_listText conf hw, apply_listText conf hw']

section Example

def setting (n : ℕ) (name : List Char) (h : NameText name) (value : WrittenValue) :
    WrittenOption :=
  ⟨n, name, h, n, some (n, value)⟩

/-- `verbose=true,phasicj_exec="/a",verbose` with `n` spaces at all the places. -/
def spaced (n : ℕ) : List WrittenOption :=
  [setting n "verbose".toList (nameText_of_all (by decide) rfl)
      (.raw "true".toList (valueChars_of_all rfl) (by decide)),
    setting n "phasicj_exec".toList (nameText_of_all (by decide) rfl)
      (.quoted "/a".toList (valueChars_of_all rfl) n),
    ⟨n, "verbose".toList, nameText_of_all (by decide) rfl, n, none⟩]

lemma spaced_widened {m n : ℕ} (h : m ≤ n) :
    (WrittenList.options (spaced m) (List.cons_ne_nil _ _)).Widened
      (.options (spaced n) (List.cons_ne_nil _ _)) :=
  .options (.cons ⟨h, rfl, h, .some ⟨h, .raw⟩⟩
    (.cons ⟨h, rfl, h, .some ⟨h, .quoted h⟩⟩ (.cons ⟨h, rfl, h, .none⟩ .nil)))

theorem spaces_between_tokens_spaced :
    newFromAgentOptionsListStr "  verbose  =  true,  phasicj_exec  =  \"/a\"  ,  verbose  " =
      newFromAgentOptionsListStr "verbose=true,phasicj_exec=\"/a\",verbose" :=
  (spaces_between_tokens newWithDefaults).2 _ _ (spaced_widened (Nat.zero_le 2))

theorem spaces_after_unquoted_value :
    newFromAgentOptionsListStr "verbose=true" = .ok verboseConf ∧
    newFromAgentOptionsListStr "verbose=true " =
      .error "Unexpected agent option value: true " ∧
    newFromAgentOptionsListStr "phasicj_exec=/a" =
      .ok { newWithDefaults with phasicjExec := some "/a" } ∧
    newFromAgentOptionsListStr "phasicj_exec=/a ,verbose" =
      .ok { verboseConf with phasicjExec := some "/a " } :=
  ⟨rfl, rfl, rfl, rfl⟩

end Example

end PhasicJ.AgentConf
