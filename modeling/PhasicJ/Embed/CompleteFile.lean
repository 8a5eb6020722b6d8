import PhasicJ.Embed.Extraction

/-! When an extracted file is complete, and a run in which it is not. -/

namespace PhasicJ.Embed

open Files Transitions

/-- The file agrees with the content as far as its last creator has written. -/
structure State.Ok (content : Bytes) (creator : Option ℕ) (s : State) : Prop where
  offset : ∀ k, s.offset k ≤ content.length
  length : ∀ b, s.file = some b → b.length ≤ content.length
  written : ∀ k, creator = some k → ∃ b, s.file = some b ∧ s.offset k ≤ b.length ∧
    ∀ i < s.offset k, b[i]? = content[i]?
  untouched : creator = none → s.file = none ∨ s.file = some content
  writing : ∀ k, s.call k = .writing → creator ≠ none
  returning : ∀ k, s.call k = .returning → s.file.isSome
  returned : ∀ k, s.call k = .returned true → s.file = some content

section Preservation

variable {content : Bytes} {last : Option ℕ} {s u : State} {a : Action} {k : ℕ} {pc : Pc}

lemma State.Initial.ok (h : s.Initial content) : s.Ok content none := by
  have hne : ∀ k pc, pc ≠ .checking → s.call k ≠ pc := fun k pc hpc hc => hpc (hc ▸ h.call k)
  refine ⟨fun k => ?_, ?_, nofun, fun _ => h.file, ?_, ?_, ?_⟩
  · rw [h.offset k]
    exact Nat.zero_le _
  · intro b hb
    rcases h.file with hf | hf
    · simp [hf] at hb
    · obtain rfl : content = b := by simpa [hf] using hb
      exact le_rfl
  · exact fun k hk => absurd hk (hne k _ nofun)
  · exact fun k hk => absurd hk (hne k _ nofun)
  · exact fun k hk => absurd hk (hne k _ nofun)

lemma State.Ok.complete (h : s.Ok content last) (hf : s.file.isSome)
    (hd : ∀ k, last = some k → s.offset k = content.length) : s.file = some content := by
  cases hc : last with
  | none =>
    rcases h.untouched hc with hn | hn
    · simp [hn] at hf
    · exact hn
  | some k =>
    obtain ⟨b, hb, hlen, hw⟩ := h.written k hc
    rw [hd k hc] at hlen hw
    have hle := h.length b hb
    have he : b = content := by
      apply List.ext_getElem?
      intro i
      by_cases hi : i < content.length
      · exact hw i hi
      · rw [List.getElem?_eq_none (by omega), List.getElem?_eq_none (by omega)]
    rw [hb, he]

lemma put_call (s : State) (k k' : ℕ) (pc : Pc) :
    (s.put k pc).call k' = if k' = k then pc else s.call k' := by
  simp [State.put, Function.update_apply]

lemma State.Ok.put (h : s.Ok content last) (hw : pc ≠ .writing)
    (hr : pc = .returning → s.file.isSome) (hk : pc = .returned true → s.file = some content) :
    (s.put k pc).Ok content last := by
  refine ⟨h.offset, h.length, h.written, h.untouched, ?_, ?_, ?_⟩
  · intro k' hk'
    rw [put_call] at hk'
    split at hk'
    · exact absurd hk' hw
    · exact h.writing k' hk'
  · intro k' hk'
    rw [put_call] at hk'
    split at hk'
    · exact hr hk'
    · exact h.returning k' hk'
  · intro k' hk'
    rw [put_call] at hk'
    split at hk'
    · exact hk hk'
    · exact h.returned k' hk'

lemma State.Ok.create (h : s.Ok content last) (ha : ∀ k, s.call k ≠ .returned true) (k : ℕ) :
    State.Ok content (some k) { s.put k .writing with
      file := some []
      offset := Function.update s.offset k 0 } := by
  refine ⟨?_, ?_, ?_, nofun, fun _ _ => nofun, fun _ _ => rfl, ?_⟩
  · intro k'
    by_cases hk' : k' = k
    · simp [hk']
    · simpa [hk'] using h.offset k'
  · intro b hb
    obtain rfl : [] = b := by simpa using hb
    exact Nat.zero_le _
  · intro k' hk'
    obtain rfl : k = k' := by simpa using hk'
    exact ⟨[], rfl, by simp, by simp⟩
  · intro k' hk'
    rw [show State.call _ k' = (s.put k .writing).call k' from rfl, put_call] at hk'
    split at hk'
    · cases hk'
    · exact absurd hk' (ha k')

lemma State.Ok.write (h : s.Ok content last) {n : ℕ} {b : Bytes} (hw : s.call k = .writing)
    (hn : s.offset k + n ≤ content.length) (hb : s.file = some b) :
    State.Ok content last { s with
      file := some (writeAt 0 b (s.offset k) (part content (s.offset k) n))
      offset := Function.update s.offset k (s.offset k + n) } := by
  have hlen := h.length b hb
  have hlength := length_writeAt (0 : UInt8) b (s.offset k) (part content (s.offset k) n)
  rw [length_part hn] at hlength
  refine ⟨?_, ?_, ?_, ?_, h.writing, fun _ _ => rfl, ?_⟩
  · intro k'
    by_cases hk' : k' = k
    · simpa [hk'] using hn
    · simpa [hk'] using h.offset k'
  · intro b' hb'
    obtain rfl := Option.some.inj hb'
    exact length_writeAt_part_le hn hlen
  · intro c hc
    obtain ⟨b₁, hb₁, hle, hag⟩ := h.written c hc
    obtain rfl : b = b₁ := Option.some.inj (hb.symm.trans hb₁)
    refine ⟨_, rfl, ?_, ?_⟩
    · by_cases hck : c = k
      · simp only [hck, Function.update_self, hlength]
        exact le_max_right ..
      · simp only [Function.update_of_ne hck, hlength]
        exact hle.trans (le_max_left ..)
    · intro i hi
      by_cases hck : c = k
      · subst hck
        simp only [Function.update_self] at hi
        by_cases hib : i < s.offset c
        · exact getElem?_writeAt_agrees hn (hib.trans_le hle) (hag i hib)
        · exact getElem?_writeAt_written hn (Nat.le_of_not_lt hib) hi
      · simp only [Function.update_of_ne hck] at hi
        exact getElem?_writeAt_agrees hn (hi.trans_le hle) (hag i hi)
  · exact fun hc => absurd hc (h.writing k hw)
  · intro k' hk'
    obtain rfl : content = b := by
      simpa [hb] using (h.returned k' hk').symm
    exact congrArg some (writeAt_part_self hn)

lemma State.Ok.step (h : s.Ok content last) (hs : WriteFileIfMissing content s a u)
    (hret : ∀ k, a = .ret k → ∀ k', last = some k' → s.offset k' = content.length)
    (hcreate : ∀ k, a = .create k → ∀ k', s.call k' ≠ .returned true) :
    u.Ok content (a.creates.or last) := by
  cases hs with
  | found _ hf => exact h.put nofun (fun _ => hf) nofun
  | notFound _ => exact h.put nofun nofun nofun
  | @createDirAll k _ =>
    have h' : (s.put k .dirMade).Ok content last := h.put nofun nofun nofun
    exact ⟨h'.offset, h'.length, h'.written, h'.untouched, h'.writing, h'.returning, h'.returned⟩
  | create _ _ => exact h.create (hcreate _ rfl) _
  | write hw _ hn hb => exact h.write hw hn hb
  | sync hw _ =>
    refine h.put nofun (fun _ => ?_) nofun
    obtain ⟨c, hc⟩ := Option.ne_none_iff_exists'.mp (h.writing _ hw)
    obtain ⟨b, hb, -⟩ := h.written c hc
    rw [hb]
    rfl
  | ret hr => exact h.put nofun nofun fun _ => h.complete (h.returning _ hr) (hret _ rfl)
  | fail _ => exact h.put nofun nofun nofun
  | die _ => exact h.put nofun nofun nofun

end Preservation

section Runs

variable {content : Bytes} {s₀ s u : State} {t : List Action} {a : Action} {k : ℕ}

lemma returned_stays (hs : WriteFileIfMissing content s a u) (hk : s.call k = .returned true) :
    u.call k = .returned true := by
  have hput : ∀ k' pc, s.call k' ≠ .returned true → (s.put k' pc).call k = .returned true := by
    intro k' pc hk'
    rw [put_call, if_neg (fun he : k = k' => hk' (he ▸ hk)), hk]
  cases hs with
  | found h _ | notFound h | createDirAll h | create h _ | sync h _ | ret h =>
    exact hput _ _ (by rw [h]; nofun)
  | write _ _ _ _ => exact hk
  | fail h =>
    refine hput _ _ ?_
    rcases h with h | h | h <;> rw [h] <;> nofun
  | die h => exact hput _ _ (h true)

lemma returned_of_ret (h : Run (WriteFileIfMissing content) s₀ t s) (hk : .ret k ∈ t) :
    s.call k = .returned true := by
  induction h with
  | nil => cases hk
  | snoc _ hs ih =>
    rcases List.mem_append.mp hk with hk | hk
    · exact returned_stays hs (ih hk)
    · obtain rfl := List.mem_singleton.mp hk
      cases hs with
      | ret _ => simp [put_call]

lemma ret_of_returned (h : Run (WriteFileIfMissing content) s₀ t s) (h₀ : s₀.Initial content)
    (hk : s.call k = .returned true) : .ret k ∈ t := by
  induction h with
  | nil =>
    rw [h₀.call] at hk
    cases hk
  | @snoc s u t a _ hs ih =>
    have hput : ∀ k' pc, (s.put k' pc).call k = .returned true → pc ≠ .returned true →
        s.call k = .returned true := by
      intro k' pc hcall hpc
      rw [put_call] at hcall
      split at hcall
      · exact absurd hcall hpc
      · exact hcall
    rw [List.mem_append, List.mem_singleton]
    cases hs with
    | @ret k' =>
      rw [put_call] at hk
      split at hk
      · next he => exact .inr (congrArg Action.ret he)
      · exact .inl (ih hk)
    | write => exact .inl (ih hk)
    | found | notFound | createDirAll | create | sync | fail | die =>
      exact .inl (ih (hput _ _ hk nofun))

lemma creator_snoc (t : List Action) (a : Action) :
    creator (t ++ [a]) = a.creates.or (creator t) := by
  rw [creator, creator, List.filterMap_append]
  cases ha : a.creates <;> simp [ha]

lemma written_snoc (t : List Action) (a : Action) (k : ℕ) :
    written (t ++ [a]) k = written t k + a.writesBy k := by
  simp [written]

def Pc.isBeforeCreate : Pc → Bool
  | checking | missing | dirMade => true
  | _ => false

/-- A call is at the offset that it has written up to, and has written nothing before it creates the
file. -/
lemma offset_run (h : Run (WriteFileIfMissing content) s₀ t s) (h₀ : s₀.Initial content) :
    (∀ k, s.offset k = written t k) ∧
      ∀ k, (s.call k).isBeforeCreate = true → s.offset k = 0 := by
  induction h with
  | nil => exact ⟨h₀.offset, fun k _ => h₀.offset k⟩
  | @snoc s u t a _ hs ih =>
    obtain ⟨hoff, hbefore⟩ := ih
    have hput : ∀ k' pc, (pc.isBeforeCreate = true → (s.call k').isBeforeCreate = true) → ∀ k,
        ((s.put k' pc).call k).isBeforeCreate = true → s.offset k = 0 := by
      intro k' pc hpc k hk
      rw [put_call] at hk
      split at hk
      · next he => exact hbefore k (he ▸ hpc hk)
      · exact hbefore k hk
    simp only [written_snoc]
    cases hs with
    | notFound hc | createDirAll hc => exact ⟨hoff, hput _ _ fun _ => by rw [hc]; rfl⟩
    | found | sync | ret | fail | die => exact ⟨hoff, hput _ _ nofun⟩
    | create hc =>
      have hzero := hbefore _ (by rw [hc]; rfl)
      rw [Function.update_eq_self_iff.mpr hzero.symm]
      exact ⟨hoff, hput _ _ nofun⟩
    | @write k' n b hc =>
      refine ⟨fun k => ?_, fun k hk => ?_⟩
      · by_cases he : k = k'
        · simp [he, hoff, Action.writesBy]
        · simp [he, Ne.symm he, hoff, Action.writesBy]
      · have hne : k ≠ k' := by
          rintro rfl
          rw [hc] at hk
          cases hk
        exact (Function.update_of_ne hne ..).trans (hbefore k hk)

lemma Careful.of_append {t' : List Action} (h : Careful content (t ++ t')) : Careful content t :=
  ⟨fun t₁ k t₂ ht => h.ret t₁ k (t₂ ++ t') (by simp [ht]),
    fun t₁ k t₂ ht => h.create t₁ k (t₂ ++ t') (by simp [ht])⟩

lemma ok_of_careful (h : Run (WriteFileIfMissing content) s₀ t s) (h₀ : s₀.Initial content)
    (hc : Careful content t) : s.Ok content (creator t) := by
  induction h with
  | nil => exact h₀.ok
  | @snoc s u t a hr hs ih =>
    rw [creator_snoc]
    refine (ih hc.of_append).step hs ?_ ?_
    · rintro k rfl k' hk'
      rw [(offset_run hr h₀).1]
      exact hc.ret t k [] rfl k' hk'
    · rintro k rfl k' hk'
      exact hc.create t k [] rfl k' (ret_of_returned hr h₀ hk')

lemma complete_of_ret (h : Run (WriteFileIfMissing content) s₀ t s) (h₀ : s₀.Initial content)
    (hc : Careful content t) (hk : .ret k ∈ t) : s.file = some content :=
  (ok_of_careful h h₀ hc).returned k (returned_of_ret h hk)

end Runs

/-- In a careful run, the file is complete from the moment a call has returned. -/
theorem extracted_files_complete (e : Embedded) (t : List Action) (s₀ s : State) (k : ℕ)
    (hk : .ret k ∈ t) :
    (s₀.Initial e.rtJar → Run (writeRtJarFileIfMissing e) s₀ t s → Careful e.rtJar t →
      s.file = some e.rtJar) ∧
    (s₀.Initial e.svm → Run (writeSvmFileIfMissing e) s₀ t s → Careful e.svm t →
      s.file = some e.svm) :=
  ⟨fun h₀ h hc => complete_of_ret h h₀ hc hk, fun h₀ h hc => complete_of_ret h h₀ hc hk⟩

section Example

def noFile : State := ⟨false, none, fun _ => .checking, fun _ => 0⟩

lemma noFile_initial (content : Bytes) : noFile.Initial content :=
  ⟨.inl rfl, fun _ => rfl, fun _ => rfl⟩

def smallFiles : Embedded := ⟨[0x50, 0x4B], [0x7F, 0x45]⟩

def carefulTrace : List Action :=
  [.check 0, .createDirAll 0, .create 0, .write 0 1, .check 1, .write 0 1, .ret 1, .sync 0, .ret 0]

lemma careful_run : ∃ s, Run (writeRtJarFileIfMissing smallFiles) noFile carefulTrace s :=
  ⟨_, .cons (.notFound rfl) (.cons (.createDirAll rfl) (.cons (.create rfl rfl)
    (.cons (.write rfl (by decide) (by decide) rfl) (.cons (.found rfl rfl)
    (.cons (.write rfl (by decide) (by decide) rfl) (.cons (.ret rfl) (.cons (.sync rfl rfl)
    (.single (.ret rfl)))))))))⟩

lemma Careful.snoc {content : Bytes} {t : List Action} (h : Careful content t) (a : Action)
    (hret : ∀ k, a = .ret k → ∀ k', creator t = some k' → written t k' = content.length)
    (hcreate : ∀ k, a = .create k → ∀ k', .ret k' ∉ t) : Careful content (t ++ [a]) := by
  refine ⟨fun t₁ k t₂ ht => ?_, fun t₁ k t₂ ht => ?_⟩
  · rcases trace_snoc_cases ht with ⟨rfl, ha⟩ | ⟨t₃, ht₃⟩
    · exact hret k ha
    · exact h.ret t₁ k t₃ ht₃
  · rcases trace_snoc_cases ht with ⟨rfl, ha⟩ | ⟨t₃, ht₃⟩
    · exact hcreate k ha
    · exact h.create t₁ k t₃ ht₃

/-- The second call returns while the first one has written everything but not returned. -/
lemma carefulTrace_careful : Careful smallFiles.rtJar carefulTrace := by
  have h : Careful smallFiles.rtJar [] := ⟨by simp, by simp⟩
  have h := h.snoc (.check 0) nofun nofun
  have h := h.snoc (.createDirAll 0) nofun nofun
  have h := h.snoc (.create 0) nofun (by simp)
  have h := h.snoc (.write 0 1) nofun nofun
  have h := h.snoc (.check 1) nofun nofun
  have h := h.snoc (.write 0 1) nofun nofun
  have h := h.snoc (.ret 1) (by rintro _ _ k' ⟨⟩; rfl) nofun
  have h := h.snoc (.sync 0) nofun nofun
  exact h.snoc (.ret 0) (by rintro _ _ k' ⟨⟩; rfl) nofun

theorem extracted_files_complete_small : ∃ s,
    Run (writeRtJarFileIfMissing smallFiles) noFile carefulTrace s ∧
      s.file = some smallFiles.rtJar := by
  obtain ⟨s, hrun⟩ := careful_run
  exact ⟨s, hrun, (extracted_files_complete smallFiles _ noFile s 1 (by decide)).1
    (noFile_initial _) hrun carefulTrace_careful⟩

end Example

section HalfWritten

lemma halfWritten_run (a b : UInt8) : ∃ s, s.file = some [a] ∧
    Run (WriteFileIfMissing [a, b]) noFile
      [.check 0, .createDirAll 0, .create 0, .write 0 1, .die 0, .check 1, .ret 1] s :=
  ⟨_, rfl, .cons (.notFound rfl) (.cons (.createDirAll rfl) (.cons (.create rfl rfl)
    (.cons (.write rfl Nat.one_pos (show 0 + 1 ≤ 2 by decide) rfl) (.cons (.die nofun)
    (.cons (.found rfl rfl) (.single (.ret rfl)))))))⟩

theorem extracted_files_incomplete :
    (¬ ∀ (e : Embedded) (t : List Action) (s₀ s : State) (k : ℕ), s₀.Initial e.rtJar →
      Run (writeRtJarFileIfMissing e) s₀ t s → .ret k ∈ t → s.file = some e.rtJar) ∧
    ¬ ∀ (e : Embedded) (t : List Action) (s₀ s : State) (k : ℕ), s₀.Initial e.svm →
      Run (writeSvmFileIfMissing e) s₀ t s → .ret k ∈ t → s.file = some e.svm := by
  constructor
  · intro h
    obtain ⟨s, hf, hrun⟩ := halfWritten_run 0x50 0x4B
    have := h smallFiles _ noFile s 1 (noFile_initial _) hrun (by decide)
    rw [hf] at this
    exact absurd this (by decide)
  · intro h
    obtain ⟨s, hf, hrun⟩ := halfWritten_run 0x7F 0x45
    have := h smallFiles _ noFile s 1 (noFile_initial _) hrun (by decide)
    rw [hf] at this
    exact absurd this (by decide)

end HalfWritten

end PhasicJ.Embed
