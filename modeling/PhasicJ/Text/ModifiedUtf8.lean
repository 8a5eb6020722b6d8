import Mathlib.Tactic

/-! Modified UTF-8, in which the virtual machine passes strings of UTF-16 code units, and what of it
is standard UTF-8. -/

namespace PhasicJ.Text

/-- U+0000 has two bytes, and each half of a surrogate pair three. -/
def encodeUnit (u : UInt16) : List UInt8 :=
  if u.toNat ≠ 0 ∧ u.toNat ≤ 0x7f then [.ofNat u.toNat]
  else if u.toNat ≤ 0x7ff then [.ofNat (u.toNat / 64 + 0xc0), .ofNat (u.toNat % 64 + 0x80)]
  else [.ofNat (u.toNat / 4096 + 0xe0), .ofNat (u.toNat / 64 % 64 + 0x80),
    .ofNat (u.toNat % 64 + 0x80)]

def encodeModified (units : List UInt16) : List UInt8 := units.flatMap encodeUnit

def encodeStandard (s : String) : List UInt8 := s.toList.flatMap String.utf8EncodeChar

def isStandard (u : UInt16) : Bool := u.toNat ≠ 0 && (u.toNat < 0xd800 || 0xdfff < u.toNat)

def toChar (u : UInt16) : Char := Char.ofNat u.toNat

/-- A character outside of the basic plane is a surrogate pair. -/
def unitsOf (c : Char) : List UInt16 :=
  if c.toNat < 0x10000 then [.ofNat c.toNat]
  else [.ofNat (0xd800 + (c.toNat - 0x10000) / 1024), .ofNat (0xdc00 + (c.toNat - 0x10000) % 1024)]

def utf16 (s : String) : List UInt16 := s.toList.flatMap unitsOf

section Units

variable {u : UInt16} {c : Char} {units : List UInt16}

lemma toChar_toNat (h : isStandard u = true) : (toChar u).toNat = u.toNat := by
  have hlt := u.toNat_lt
  simp only [isStandard, Bool.and_eq_true, Bool.or_eq_true, decide_eq_true_eq] at h
  have hv : u.toNat.isValidChar := by
    unfold Nat.isValidChar
    omega
  rw [toChar, Char.ofNat, dif_pos hv]
  rfl

lemma char_range (c : Char) : c.toNat < 0xd800 ∨ 0xdfff < c.toNat ∧ c.toNat < 0x110000 := c.valid

lemma encodeUnit_standard (h : isStandard u = true) :
    encodeUnit u = String.utf8EncodeChar (toChar u) := by
  have hn : (toChar u).val.toNat = u.toNat := toChar_toNat h
  have hlt := u.toNat_lt
  simp only [isStandard, Bool.and_eq_true, decide_eq_true_eq] at h
  rw [encodeUnit, String.utf8EncodeChar, hn]
  by_cases h₁ : u.toNat ≤ 0x7f
  · rw [if_pos ⟨h.1, h₁⟩, if_pos h₁]
  rw [if_neg fun hc => h₁ hc.2, if_neg h₁]
  by_cases h₂ : u.toNat ≤ 0x7ff
  · rw [if_pos h₂, if_pos h₂]
    congr 3
    omega
  · rw [if_neg h₂, if_neg h₂, if_pos (by omega)]
    congr 3
    omega

lemma utf8EncodeChar_eq (c : Char) : String.utf8EncodeChar c =
    if c.toNat ≤ 0x7f then [.ofNat c.toNat]
    else if c.toNat ≤ 0x7ff then
      [.ofNat (c.toNat / 64 % 0x20 + 0xc0), .ofNat (c.toNat % 0x40 + 0x80)]
    else if c.toNat ≤ 0xffff then
      [.ofNat (c.toNat / 4096 % 0x10 + 0xe0), .ofNat (c.toNat / 64 % 0x40 + 0x80),
        .ofNat (c.toNat % 0x40 + 0x80)]
    else
      [.ofNat (c.toNat / 262144 % 0x08 + 0xf0), .ofNat (c.toNat / 4096 % 0x40 + 0x80),
        .ofNat (c.toNat / 64 % 0x40 + 0x80), .ofNat (c.toNat % 0x40 + 0x80)] :=
  rfl

lemma ofNat_inj {m n : ℕ} (h : UInt8.ofNat m = UInt8.ofNat n) : m % 256 = n % 256 := by
  simpa using congrArg UInt8.toNat h

lemma unit_of_encode {xs ys : List UInt8}
    (h : encodeUnit u ++ xs = String.utf8EncodeChar c ++ ys) :
    isStandard u = true ∧ c = toChar u ∧ xs = ys := by
  have hlt := u.toNat_lt
  have hc := char_range c
  suffices hu : u.toNat = c.toNat ∧ u.toNat ≠ 0 by
    have hstd : isStandard u = true := by
      simp only [isStandard, Bool.and_eq_true, Bool.or_eq_true, decide_eq_true_eq]
      omega
    have hchar : c = toChar u := by
      apply Char.toNat_inj.mp
      rw [toChar_toNat hstd, hu.1]
    subst hchar
    rw [encodeUnit_standard hstd] at h
    exact ⟨hstd, rfl, List.append_cancel_left h⟩
  rw [encodeUnit, utf8EncodeChar_eq] at h
  split_ifs at h <;> simp only [List.cons_append, List.nil_append, List.cons.injEq] at h
  -- the first bytes tell how many there are
  all_goals
    have h₁ := ofNat_inj h.1
    first
    | omega
    | have h₂ := ofNat_inj h.2.1
      first
      | omega
      | have h₃ := ofNat_inj h.2.2.1
        omega

lemma encodeModified_eq (units : List UInt16) (cs : List Char) :
    encodeModified units = cs.flatMap String.utf8EncodeChar ↔
      units.all isStandard = true ∧ cs = units.map toChar := by
  induction units generalizing cs with
  | nil =>
    cases cs with
    | nil => simp [encodeModified]
    | cons c cs => simp [encodeModified, String.utf8EncodeChar_ne_nil]
  | cons u units ih =>
    cases cs with
    | nil =>
      refine iff_of_false (fun h => ?_) (by simp)
      rw [encodeModified, List.flatMap_cons, List.flatMap_nil] at h
      unfold encodeUnit at h
      split_ifs at h <;> simp at h
    | cons c cs =>
      rw [encodeModified, List.flatMap_cons, List.flatMap_cons, List.all_cons, Bool.and_eq_true,
        List.map_cons, List.cons.injEq]
      constructor
      · intro h
        obtain ⟨hu, hc, hrest⟩ := unit_of_encode h
        obtain ⟨hall, hcs⟩ := (ih cs).mp hrest
        exact ⟨⟨hu, hall⟩, hc, hcs⟩
      · rintro ⟨⟨hu, hall⟩, rfl, hcs⟩
        rw [encodeUnit_standard hu, ← encodeModified, (ih cs).mpr ⟨hall, hcs⟩]

/-- Modified UTF-8 is standard UTF-8 if and only if it has no U+0000 and no surrogates, and is read
as the same text then. -/
lemma encodeModified_eq_encodeStandard (units : List UInt16) (s : String) :
    encodeModified units = encodeStandard s ↔
      units.all isStandard = true ∧ s = String.ofList (units.map toChar) := by
  rw [encodeStandard, encodeModified_eq]
  refine and_congr_right fun _ => ⟨fun h => ?_, fun h => ?_⟩
  · rw [← h, String.ofList_toList]
  · rw [h, String.toList_ofList]

lemma unit_toNat {n : ℕ} (h : n < 0x10000) : (UInt16.ofNat n).toNat = n := by
  rw [UInt16.toNat_ofNat']
  exact Nat.mod_eq_of_lt h

lemma utf16_toChar (h : units.all isStandard = true) :
    utf16 (String.ofList (units.map toChar)) = units := by
  rw [utf16, String.toList_ofList]
  induction units with
  | nil => rfl
  | cons u units ih =>
    rw [List.all_cons, Bool.and_eq_true] at h
    have hu : unitsOf (toChar u) = [u] := by
      have hlt := u.toNat_lt
      rw [unitsOf, toChar_toNat h.1, if_pos hlt]
      exact congrArg (fun n => [n]) (UInt16.toNat_inj.mp (unit_toNat hlt))
    rw [List.map_cons, List.flatMap_cons, hu, ih h.2]
    rfl

end Units

end PhasicJ.Text
