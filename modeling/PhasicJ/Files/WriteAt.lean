import Mathlib.Tactic

/-! Writing to a file at an offset, which may leave a hole before it. -/

namespace PhasicJ.Files

variable {α : Type}

def writeAt (hole : α) (file : List α) (offset : ℕ) (chunk : List α) : List α :=
  file.take offset ++ List.replicate (offset - file.length) hole ++ chunk ++
    file.drop (offset + chunk.length)

section Lemmas

variable {hole : α} {file chunk content : List α} {offset n i : ℕ}

lemma length_filled (hole : α) (file : List α) (offset : ℕ) :
    (file.take offset ++ List.replicate (offset - file.length) hole).length = offset := by
  rw [List.length_append, List.length_take, List.length_replicate]
  omega

lemma length_writeAt (hole : α) (file : List α) (offset : ℕ) (chunk : List α) :
    (writeAt hole file offset chunk).length = max file.length (offset + chunk.length) := by
  rw [writeAt, List.length_append, List.length_append, length_filled, List.length_drop]
  omega

lemma getElem?_writeAt_before (hi : i < offset) (hl : i < file.length) :
    (writeAt hole file offset chunk)[i]? = file[i]? := by
  rw [writeAt, List.append_assoc, List.append_assoc,
    List.getElem?_append_left (by rw [List.length_take]; omega), List.getElem?_take_of_lt hi]

lemma getElem?_writeAt_chunk (hi : offset ≤ i) (hl : i < offset + chunk.length) :
    (writeAt hole file offset chunk)[i]? = chunk[i - offset]? := by
  have hlen := length_filled hole file offset
  rw [writeAt, List.getElem?_append_left (by rw [List.length_append, hlen]; exact hl),
    List.getElem?_append_right (by rw [hlen]; exact hi), hlen]

lemma getElem?_writeAt_after (hi : offset + chunk.length ≤ i) :
    (writeAt hole file offset chunk)[i]? = file[i]? := by
  have hlen := length_filled hole file offset
  rw [writeAt, List.getElem?_append_right (by rw [List.length_append, hlen]; exact hi),
    List.length_append, hlen, List.getElem?_drop]
  congr 1
  omega

def part (content : List α) (offset n : ℕ) : List α := (content.drop offset).take n

lemma length_part (h : offset + n ≤ content.length) : (part content offset n).length = n := by
  rw [part, List.length_take, List.length_drop]
  omega

lemma getElem?_writeAt_written (h : offset + n ≤ content.length) (hi : offset ≤ i)
    (hl : i < offset + n) : (writeAt hole file offset (part content offset n))[i]? = content[i]? := by
  rw [getElem?_writeAt_chunk hi (by rw [length_part h]; exact hl), part,
    List.getElem?_take_of_lt (by omega), List.getElem?_drop]
  congr 1
  omega

lemma getElem?_writeAt_agrees (h : offset + n ≤ content.length) (hl : i < file.length)
    (hf : file[i]? = content[i]?) :
    (writeAt hole file offset (part content offset n))[i]? = content[i]? := by
  by_cases hb : i < offset
  · rw [getElem?_writeAt_before hb hl, hf]
  · by_cases ha : offset + n ≤ i
    · rw [getElem?_writeAt_after (by rw [length_part h]; exact ha), hf]
    · exact getElem?_writeAt_written h (by omega) (by omega)

lemma length_writeAt_part_le (h : offset + n ≤ content.length) (hf : file.length ≤ content.length) :
    (writeAt hole file offset (part content offset n)).length ≤ content.length := by
  rw [length_writeAt, length_part h]
  exact max_le hf h

lemma writeAt_part_self (h : offset + n ≤ content.length) :
    writeAt hole content offset (part content offset n) = content := by
  apply List.ext_getElem?
  intro i
  by_cases hi : i < content.length
  · exact getElem?_writeAt_agrees h hi rfl
  · have hle : (writeAt hole content offset (part content offset n)).length ≤ content.length :=
      length_writeAt_part_le h le_rfl
    rw [List.getElem?_eq_none (by omega), List.getElem?_eq_none (by omega)]

lemma writeAt_take (h : offset + n ≤ content.length) :
    writeAt hole (content.take offset) offset (part content offset n) =
      content.take (offset + n) := by
  have hlen : (content.take offset).length = offset := by
    rw [List.length_take]
    omega
  rw [writeAt, hlen, Nat.sub_self, List.replicate_zero, List.append_nil,
    List.drop_of_length_le (by rw [hlen]; omega), List.append_nil, List.take_of_length_le hlen.le,
    List.take_add, part]

end Lemmas

end PhasicJ.Files
