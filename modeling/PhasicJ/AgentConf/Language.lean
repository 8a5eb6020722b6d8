import PhasicJ.AgentConf.RuleReaders
import Mathlib.Data.List.TakeWhile

/-! The language of one option: the texts that may stand between two commas. -/

namespace PhasicJ.AgentConf

def Blank (cs : List Char) : Prop := ∀ c ∈ cs, c = ' '

def isValueChar (c : Char) : Bool :=
  c.isAlphanum || c == '.' || c == '/' || c == '_' || c == '-'

/-- A value as it is written and as it is read. A quoted value loses its leading spaces. -/
inductive ValueText : List Char → List Char → Prop
  | quoted {content after : List Char} :
      (∀ c ∈ content, isValueChar c ∨ c = ' ') → Blank after →
      ValueText ('"' :: content ++ '"' :: after) (content.dropWhile isSpace)
  | empty : ValueText [] []
  | raw {c : Char} {cs : List Char} :
      isValueChar c → (∀ d ∈ cs, isValueChar d ∨ d = ' ') → ValueText (c :: cs) (c :: cs)

def NameText (name : List Char) : Prop := name ≠ [] ∧ ∀ c ∈ name, isNameChar c

inductive SegmentText : List Char → OptionText → Prop
  | flag {before name after : List Char} :
      Blank before → NameText name → Blank after →
      SegmentText (before ++ name ++ after) ⟨name, none⟩
  | setting {before name after pad text value : List Char} :
      Blank before → NameText name → Blank after → Blank pad → ValueText text value →
      SegmentText (before ++ name ++ after ++ '=' :: pad ++ text) ⟨name, some value⟩

lemma valueChars_of_all {cs : List Char} (h : cs.all fun d => isValueChar d || d == ' ') :
    ∀ d ∈ cs, isValueChar d ∨ d = ' ' := by
  intro d hd
  simpa using List.all_eq_true.mp h d hd

lemma nameText_of_all {name : List Char} (hne : name ≠ []) (h : name.all isNameChar) :
    NameText name :=
  ⟨hne, fun c hc => List.all_eq_true.mp h c hc⟩

def Stops (follow : List Char) : Prop := ∀ c, follow.head? = some c → c = ','

lemma isArgChar_iff (c : Char) : isArgChar c = true ↔ isValueChar c = true ∨ c = ' ' := by
  delta isArgChar isValueChar Char.isAlphanum Char.isAlpha Char.isUpper Char.isLower Char.isDigit
  simp only [Bool.or_eq_true, Bool.and_eq_true, decide_eq_true_eq, beq_iff_eq, Char.le_def]
  have hA : 'A'.val = 65 := rfl
  have hZ : 'Z'.val = 90 := rfl
  have ha : 'a'.val = 97 := rfl
  have hz : 'z'.val = 122 := rfl
  have h0 : '0'.val = 48 := rfl
  have h9 : '9'.val = 57 := rfl
  simp only [hA, hZ, ha, hz, h0, h9, ge_iff_le]
  tauto

lemma isSpace_iff (c : Char) : isSpace c = true ↔ c = ' ' := by simp [isSpace]

lemma blank_iff (cs : List Char) : Blank cs ↔ cs.dropWhile isSpace = [] := by
  simp [Blank, List.dropWhile_eq_nil_iff, isSpace]

lemma Blank.dropWhile {cs : List Char} (h : Blank cs) (xs : List Char) :
    (cs ++ xs).dropWhile isSpace = xs.dropWhile isSpace :=
  List.dropWhile_append_of_pos fun c hc => (isSpace_iff c).mpr (h c hc)

lemma blank_takeWhile (cs : List Char) : Blank (cs.takeWhile isSpace) :=
  fun c hc => (isSpace_iff c).mp (List.mem_takeWhile_imp hc)

lemma dropWhile_head {p : Char → Bool} {cs : List Char} (h : ∀ c, cs.head? = some c → p c = false) :
    cs.dropWhile p = cs := by
  cases cs with
  | nil => rfl
  | cons c cs => simp [h c rfl]

lemma takeWhile_head {p : Char → Bool} {cs : List Char} (h : ∀ c, cs.head? = some c → p c = false) :
    cs.takeWhile p = [] := by
  cases cs with
  | nil => rfl
  | cons c cs => simp [h c rfl]

lemma head_dropWhile {p : Char → Bool} {cs : List Char} {c : Char}
    (h : (cs.dropWhile p).head? = some c) : p c = false := by
  induction cs with
  | nil => simp at h
  | cons d cs ih =>
    cases hd : p d with
    | true => exact ih (by simpa [hd] using h)
    | false => simp_all

lemma takeWhile_run {p : Char → Bool} {xs ys : List Char} (hx : ∀ c ∈ xs, p c)
    (hy : ∀ c, ys.head? = some c → p c = false) : (xs ++ ys).takeWhile p = xs := by
  rw [List.takeWhile_append_of_pos hx, takeWhile_head hy, List.append_nil]

lemma dropWhile_run {p : Char → Bool} {xs ys : List Char} (hx : ∀ c ∈ xs, p c)
    (hy : ∀ c, ys.head? = some c → p c = false) : (xs ++ ys).dropWhile p = ys := by
  rw [List.dropWhile_append_of_pos hx, dropWhile_head hy]

lemma Stops.not_arg {follow : List Char} (h : Stops follow) (c : Char)
    (hc : follow.head? = some c) : isArgChar c = false := by
  rw [h c hc]; rfl

lemma Stops.not_space {follow : List Char} (h : Stops follow) (c : Char)
    (hc : follow.head? = some c) : isSpace c = false := by
  rw [h c hc]; rfl

lemma readValue_complete {text value follow : List Char} (h : ValueText text value)
    (hf : Stops follow) :
    (readValue (text ++ follow)).1 = value ∧
      (readValue (text ++ follow)).2.dropWhile isSpace = follow := by
  cases h with
  | empty =>
    have hq : readQuoted follow = none := by
      unfold readQuoted
      split
      · next he => exact absurd (hf '"' rfl) (by decide)
      · rfl
    simp [readValue, hq, takeWhile_head hf.not_arg, dropWhile_head hf.not_arg,
      dropWhile_head hf.not_space]
  | @raw c cs hc hcs =>
    have ha : ∀ d ∈ c :: cs, isArgChar d = true := by
      intro d hd
      rcases List.mem_cons.mp hd with rfl | hd
      · exact (isArgChar_iff _).mpr (.inl hc)
      · exact (isArgChar_iff _).mpr (hcs d hd)
    have hq : readQuoted (c :: cs ++ follow) = none := by
      unfold readQuoted
      split
      · next he =>
        obtain ⟨rfl, -⟩ : c = '"' ∧ _ := by simpa using he
        exact absurd hc (by decide)
      · rfl
    rw [readValue, hq, Option.getD_none, takeWhile_run ha hf.not_arg, dropWhile_run ha hf.not_arg]
    exact ⟨rfl, dropWhile_head hf.not_space⟩
  | @quoted content after hcs hb =>
    have hs : (content ++ '"' :: (after ++ follow)).dropWhile isSpace =
        content.dropWhile isSpace ++ '"' :: (after ++ follow) := by
      rw [List.dropWhile_append]
      split
      · next he =>
        have hn : content.dropWhile isSpace = [] := by simpa using he
        rw [hn]
        rfl
      · rfl
    have ha : ∀ d ∈ content.dropWhile isSpace, isArgChar d = true := fun d hd =>
      (isArgChar_iff d).mpr (hcs d (List.dropWhile_subset _ hd))
    have hq : ∀ d, ('"' :: (after ++ follow)).head? = some d → isArgChar d = false := by
      intro d hd
      obtain rfl : '"' = d := by simpa using hd
      rfl
    have hr : readQuoted ('"' :: content ++ '"' :: after ++ follow) =
        some (content.dropWhile isSpace, after ++ follow) := by
      have he : '"' :: content ++ '"' :: after ++ follow =
          '"' :: (content ++ '"' :: (after ++ follow)) := by simp
      rw [he]
      simp only [readQuoted, hs, takeWhile_run ha hq, dropWhile_run ha hq]
    rw [readValue, hr]
    exact ⟨rfl, by rw [Option.getD_some, hb.dropWhile, dropWhile_head hf.not_space]⟩

lemma readQuoted_sound {cs value left : List Char} (h : readQuoted cs = some (value, left)) :
    ∃ text, cs = text ++ left.dropWhile isSpace ∧ ValueText text value := by
  unfold readQuoted at h
  split at h
  · next _ ds =>
    split at h
    · next _ rest he =>
      simp only [Option.some.injEq, Prod.mk.injEq] at h
      obtain ⟨rfl, rfl⟩ := h
      let content := ds.takeWhile isSpace ++ (ds.dropWhile isSpace).takeWhile isArgChar
      have hds : ds = content ++ '"' :: rest := by
        rw [← he, List.append_assoc, List.takeWhile_append_dropWhile,
          List.takeWhile_append_dropWhile]
      have hcs : ∀ c ∈ content, isValueChar c ∨ c = ' ' := by
        intro c hc
        rcases List.mem_append.mp hc with hc | hc
        · exact .inr (blank_takeWhile ds c hc)
        · exact (isArgChar_iff c).mp (List.mem_takeWhile_imp hc)
      have hv : content.dropWhile isSpace = (ds.dropWhile isSpace).takeWhile isArgChar := by
        rw [(blank_takeWhile ds).dropWhile]
        apply dropWhile_head
        intro c hc
        refine head_dropWhile (?_ : (ds.dropWhile isSpace).head? = some c)
        cases hd : ds.dropWhile isSpace with
        | nil => simp [hd] at hc
        | cons d es =>
          cases ha : isArgChar d with
          | false => simp [hd, ha] at hc
          | true => simpa [hd, ha] using hc
      refine ⟨'"' :: content ++ '"' :: rest.takeWhile isSpace, ?_, ?_⟩
      · simp [List.takeWhile_append_dropWhile, ← hds]
      · exact hv ▸ .quoted hcs (blank_takeWhile rest)
    · simp at h
  · simp at h

lemma readValue_sound (cs : List Char) (h : ∀ c, cs.head? = some c → isSpace c = false) :
    ∃ text, cs = text ++ (readValue cs).2.dropWhile isSpace ∧ ValueText text (readValue cs).1 := by
  cases hq : readQuoted cs with
  | some x =>
    simp only [readValue, hq, Option.getD_some]
    exact readQuoted_sound hq
  | none =>
    simp only [readValue, hq, Option.getD_none, dropWhile_arg_space]
    refine ⟨cs.takeWhile isArgChar, List.takeWhile_append_dropWhile.symm, ?_⟩
    cases cs with
    | nil => exact .empty
    | cons c cs =>
      cases hc : isArgChar c with
      | false => simpa [hc] using ValueText.empty
      | true =>
        have hv : isValueChar c = true := by
          rcases (isArgChar_iff c).mp hc with hv | rfl
          · exact hv
          · exact absurd (h ' ' rfl) (by decide)
        rw [List.takeWhile_cons_of_pos hc]
        exact .raw hv fun d hd => (isArgChar_iff d).mp (List.mem_takeWhile_imp hd)

lemma not_name_of_not_arg {c : Char} (h : c = ' ' ∨ c = '=' ∨ c = ',') : isNameChar c = false := by
  rcases h with rfl | rfl | rfl <;> rfl

lemma read_name {before name after rest : List Char} (hb : Blank before) (hn : NameText name)
    (ha : Blank after) (hr : ∀ c, rest.head? = some c → c = '=' ∨ c = ',') :
    ((before ++ name ++ after ++ rest).dropWhile isSpace).takeWhile isNameChar = name ∧
      (((before ++ name ++ after ++ rest).dropWhile isSpace).dropWhile isNameChar).dropWhile
        isSpace = rest := by
  obtain ⟨hne, hname⟩ := hn
  have hs : (before ++ name ++ after ++ rest).dropWhile isSpace = name ++ (after ++ rest) := by
    rw [List.append_assoc, List.append_assoc, hb.dropWhile]
    cases name with
    | nil => exact absurd rfl hne
    | cons c cs =>
      have hc := hname c (by simp)
      apply dropWhile_head
      intro d hd
      obtain rfl : c = d := by simpa using hd
      cases he : isSpace c with
      | false => rfl
      | true => rw [(isSpace_iff c).mp he] at hc; exact absurd hc (by decide)
  have hx : ∀ c, (after ++ rest).head? = some c → isNameChar c = false := by
    intro c hc
    cases after with
    | nil => rcases hr c hc with rfl | rfl <;> rfl
    | cons d ds =>
      obtain rfl : d = c := by simpa using hc
      exact not_name_of_not_arg (.inl (ha d (by simp)))
  rw [hs, takeWhile_run hname hx, dropWhile_run hname hx]
  refine ⟨rfl, ?_⟩
  rw [ha.dropWhile]
  apply dropWhile_head
  intro c hc
  rcases hr c hc with rfl | rfl <;> rfl

lemma ValueText.not_space {text value follow : List Char} (h : ValueText text value)
    (hf : Stops follow) (c : Char) (hc : (text ++ follow).head? = some c) : isSpace c = false := by
  cases h with
  | quoted =>
    obtain rfl : '"' = c := by simpa using hc
    rfl
  | empty => exact hf.not_space c hc
  | @raw d ds hd =>
    obtain rfl : d = c := by simpa using hc
    cases hs : isSpace d with
    | false => rfl
    | true => rw [(isSpace_iff d).mp hs] at hd; exact absurd hd (by decide)

lemma readOption_complete {seg follow : List Char} {o : OptionText} (h : SegmentText seg o)
    (hf : Stops follow) :
    ∃ left, readOption ((seg ++ follow).dropWhile isSpace) = some (o, left) ∧
      left.dropWhile isSpace = follow := by
  cases h with
  | @flag before name after hb hn ha =>
    obtain ⟨h₁, h₂⟩ := read_name hb hn ha fun c hc => .inr (hf c hc)
    refine ⟨follow, ?_, dropWhile_head hf.not_space⟩
    rw [readOption_other _ (h₁.symm ▸ hn.1), h₁, h₂]
    rw [h₂]
    intro hc
    exact absurd (hf '=' hc) (by decide)
  | @setting before name after pad text value hb hn ha hp hv =>
    have he : before ++ name ++ after ++ '=' :: pad ++ text ++ follow =
        before ++ name ++ after ++ '=' :: (pad ++ (text ++ follow)) := by simp
    obtain ⟨h₁, h₂⟩ := read_name hb hn ha
      (show ∀ c, ('=' :: (pad ++ (text ++ follow))).head? = some c → c = '=' ∨ c = ',' from
        fun c hc => .inl (by simpa using hc.symm))
    have ht : (pad ++ (text ++ follow)).dropWhile isSpace = text ++ follow := by
      rw [hp.dropWhile]
      exact dropWhile_head (hv.not_space hf)
    obtain ⟨hr, hl⟩ := readValue_complete hv hf
    refine ⟨_, ?_, hl⟩
    rw [he, readOption_equals _ _ (h₁.symm ▸ hn.1) h₂, h₁, ht, hr]

lemma readOption_sound {cs left : List Char} {o : OptionText}
    (h : readOption (cs.dropWhile isSpace) = some (o, left)) :
    ∃ seg, cs = seg ++ left.dropWhile isSpace ∧ SegmentText seg o := by
  set ds := cs.dropWhile isSpace with hds
  by_cases hn : ds.takeWhile isNameChar = []
  · simp [readOption, hn] at h
  · have hname : NameText (ds.takeWhile isNameChar) :=
      ⟨hn, fun c hc => List.mem_takeWhile_imp hc⟩
    let after := (ds.dropWhile isNameChar).takeWhile isSpace
    let rest := (ds.dropWhile isNameChar).dropWhile isSpace
    have hcs : cs = cs.takeWhile isSpace ++ ds.takeWhile isNameChar ++ after ++ rest := by
      simp only [after, rest, List.append_assoc, List.takeWhile_append_dropWhile]
      rw [hds, List.takeWhile_append_dropWhile]
    by_cases he : rest.head? = some '='
    · obtain ⟨tail, ht⟩ := List.head?_eq_some_iff.mp he
      rw [readOption_equals ds tail hn ht] at h
      simp only [Option.some.injEq, Prod.mk.injEq] at h
      obtain ⟨rfl, rfl⟩ := h
      obtain ⟨text, htext, hv⟩ := readValue_sound (tail.dropWhile isSpace) fun c hc =>
        head_dropWhile hc
      refine ⟨_, ?_, SegmentText.setting (blank_takeWhile cs) hname
        (blank_takeWhile (ds.dropWhile isNameChar)) (blank_takeWhile tail) hv⟩
      conv_lhs => rw [hcs, ht, ← List.takeWhile_append_dropWhile (p := isSpace) (l := tail), htext]
      simp [after]
    · rw [readOption_other ds hn he] at h
      simp only [Option.some.injEq, Prod.mk.injEq] at h
      obtain ⟨rfl, rfl⟩ := h
      refine ⟨_, ?_, SegmentText.flag (blank_takeWhile cs) hname
        (blank_takeWhile (ds.dropWhile isNameChar))⟩
      conv_lhs => rw [hcs]
      have hi : rest.dropWhile isSpace = rest := dropWhile_head fun c hc => head_dropWhile hc
      rw [hi]

end PhasicJ.AgentConf
