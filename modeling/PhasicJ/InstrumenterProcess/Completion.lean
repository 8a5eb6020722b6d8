import PhasicJ.InstrumenterProcess.Invocation
import PhasicJ.InstrumenterProcess.Progress

/-! Invocations without failures and signals: they end, and with what. -/

namespace PhasicJ.InstrumenterProcess

open Transitions

def Child.left (size : ℕ) : Child → ℕ
  | .reading => 2 * size + 4
  | .checking => 2 * size + 3
  | .instrumenting => 2 * size + 2
  | .writing todo => 2 * todo.length + 1
  | .exited _ => 0

def Parent.left : Parent → ℕ
  | .writing todo => 2 * todo.length + 4
  | .closing => 3
  | .reading => 2
  | .waiting => 1
  | .returned _ => 0

def System.left (size : ℕ) (s : System) : ℕ :=
  s.parent.left + s.child.left size + s.stdin.content.length + s.stdout.content.length

def instrumentedSize (instrument : Bytes → Option Bytes) (classData : Bytes) : ℕ :=
  ((instrument classData).getD []).length

def allSteps (instrument : Bytes → Option Bytes) (classData : Bytes) : ℕ :=
  2 * classData.length + 2 * instrumentedSize instrument classData + 8

variable {instrument : Bytes → Option Bytes} {classData : Bytes} {s u : System} {a : Action}
  {t : List Action} {capIn capOut : ℕ} {r : Option Bytes}

section Termination

lemma left_step (h : s.Ok instrument classData) (hs : Step instrument s a u) (ha : a.isNormal) :
    u.left (instrumentedSize instrument classData) <
      s.left (instrumentedSize instrument classData) := by
  have hchild := h.child
  unfold System.left
  cases hs with
  | parentWrite hp hw =>
    have := List.length_pos_of_ne_nil hw.some
    simp only [hp, hw.content, Parent.left, List.length_append]
    omega
  | parentWritten hp | parentBrokenPipe hp | parentClose hp | parentEnd hp | parentWait hp =>
    simp [hp, Parent.left]
  | parentRead hp hr | childRead hc hr =>
    have := List.length_pos_of_ne_nil hr.some
    simp only [hr.content, List.length_append]
    omega
  | childEnd hc | childCheckOk hc | childCheckFails hc | childInstrumentThrows hc
  | childWriteLost hc | childExit hc =>
    simp [hc, Child.left, System.exit]
  -- here the child begins the output whose length the measure has counted from the start
  | @childInstrumentOk out hc ho =>
    rw [System.ChildOk, hc] at hchild
    have hsize : instrumentedSize instrument classData = out.length := by
      rw [instrumentedSize, ← hchild.1.1, ho, Option.getD_some]
    simp only [hc, Child.left]
    omega
  | childWrite hc hw =>
    have := List.length_pos_of_ne_nil hw.some
    simp only [hc, hw.content, Child.left, List.length_append]
    omega
  | childFail | childKill => cases ha

lemma normal_snoc (h : ∀ b ∈ t ++ [a], Action.isNormal b) :
    (∀ b ∈ t, Action.isNormal b) ∧ a.isNormal :=
  ⟨fun b hb => h b (List.mem_append_left _ hb), h a (List.mem_append_right _ (by simp))⟩

lemma run_length (hIn : 0 < capIn) (hOut : 0 < capOut)
    (h : Run (Step instrument) (System.spawned classData capIn capOut) t s)
    (ht : ∀ a ∈ t, a.isNormal) :
    t.length + s.left (instrumentedSize instrument classData) ≤ allSteps instrument classData := by
  induction h with
  | nil =>
    simp only [System.left, System.spawned, Parent.left, Child.left, Pipes.Pipe.fresh, allSteps,
      List.length_nil]
    omega
  | @snoc s u t a hr hs ih =>
    obtain ⟨ht, ha⟩ := normal_snoc ht
    have := left_step (ok_run hIn hOut hr) hs ha
    have := ih ht
    rw [List.length_append, List.length_singleton]
    omega

lemma run_bounded (hIn : 0 < capIn) (hOut : 0 < capOut)
    (h : Run (Step instrument) (System.spawned classData capIn capOut) t s)
    (ht : ∀ a ∈ t, a.isNormal) :
    t.length ≤ allSteps instrument classData ∧
      ((∃ output, s.parent = .returned output) ∨ CanStep instrument s) := by
  have := run_length hIn hOut h ht
  refine ⟨by omega, ?_⟩
  by_cases hr : ∃ output, s.parent = .returned output
  · exact .inl hr
  · exact .inr (can_step (ok_run hIn hOut h) fun output hp => hr ⟨output, hp⟩)

lemma run_returns (hIn : 0 < capIn) (hOut : 0 < capOut)
    (h : Run (Step instrument) (System.spawned classData capIn capOut) t s)
    (ht : ∀ a ∈ t, a.isNormal) :
    ∃ t' u output, Run (Step instrument) (System.spawned classData capIn capOut) t' u ∧
      (∀ a ∈ t', a.isNormal) ∧ u.parent = .returned output := by
  induction hn : s.left (instrumentedSize instrument classData) using Nat.strong_induction_on
    generalizing t s with
  | _ n ih =>
    rcases (run_bounded hIn hOut h ht).2 with ⟨output, hp⟩ | ⟨a, u, ha, hs⟩
    · exact ⟨t, s, output, h, ht, hp⟩
    · refine ih _ (hn ▸ left_step (ok_run hIn hOut h) hs ha) (h.snoc hs) ?_ rfl
      intro b hb
      rcases List.mem_append.mp hb with hb | hb
      · exact ht b hb
      · exact List.mem_singleton.mp hb ▸ ha

end Termination

section Results

def System.RejectionOk (instrument : Bytes → Option Bytes) (classData : Bytes) (s : System) :
    Prop :=
  ∀ status, s.child = .exited status → status.success = false →
    Cli.appearsToBeClassData classData = false ∨ instrument classData = none

lemma rejection_step (h : s.Ok instrument classData) (hr : s.RejectionOk instrument classData)
    (hs : Step instrument s a u) (ha : a.isNormal) : u.RejectionOk instrument classData := by
  have hchild := h.child
  cases hs with
  | childCheckFails hc hm =>
    rw [System.ChildOk, hc] at hchild
    exact fun _ _ _ => .inl (hchild.1.1 ▸ hm)
  | childInstrumentThrows hc ho =>
    rw [System.ChildOk, hc] at hchild
    exact fun _ _ _ => .inr (hchild.1.1 ▸ ho)
  | childExit hc =>
    rintro status hs hf
    obtain rfl : ExitStatus.exited 0 = status := Child.exited.inj hs
    cases hf
  | childFail | childKill => cases ha
  | childEnd | childCheckOk | childInstrumentOk | childWrite | childWriteLost =>
    rintro status ⟨⟩
  | _ => exact hr

lemma rejection_run (hIn : 0 < capIn) (hOut : 0 < capOut)
    (h : Run (Step instrument) (System.spawned classData capIn capOut) t s)
    (ht : ∀ a ∈ t, a.isNormal) : s.RejectionOk instrument classData := by
  induction h with
  | nil => rintro status ⟨⟩
  | snoc hr hs ih =>
    obtain ⟨ht, ha⟩ := normal_snoc ht
    exact rejection_step (ok_run hIn hOut hr) (ih ht) hs ha

/-- The results of `Instrumenter::instrument` when nothing fails but the class. -/
inductive NormalResult (instrument : Bytes → Option Bytes) (classData : Bytes) :
    Option Bytes → Prop
  | returns {capIn capOut : ℕ} {t : List Action} {s : System} {output : Option Output} :
      0 < capIn → 0 < capOut →
      Run (Step instrument) (System.spawned classData capIn capOut) t s →
      (∀ a ∈ t, a.isNormal) → s.parent = .returned output →
      NormalResult instrument classData (instrumentResult output)

lemma returned_exited (h : s.Ok instrument classData) {output : Option Output}
    (hp : s.parent = .returned output) : ∃ status, s.child = .exited status := by
  have hparent := h.parent
  rw [System.ParentOk, hp] at hparent
  cases output with
  | none => exact ⟨_, hparent.2.choose_spec.1⟩
  | some o => exact ⟨_, hparent.2.2.1⟩

lemma normalResult_eq (h : NormalResult instrument classData r) :
    r = if Cli.appearsToBeClassData classData then instrument classData else none := by
  obtain ⟨hIn, hOut, hrun, ht, hp⟩ := h
  have hok := ok_run hIn hOut hrun
  obtain ⟨status, hc⟩ := returned_exited hok hp
  obtain ⟨hwell, hbad⟩ := (Invocation.returns hIn hOut hrun hp hc).result
  cases hsuccess : status.success with
  | true =>
    obtain ⟨out, ho, hi⟩ := hwell ⟨status, rfl, hsuccess⟩
    have hchild := hok.child
    rw [System.ChildOk, hc] at hchild
    rw [if_pos (hchild hsuccess).2.1, ho, hi]
  | false =>
    rw [hbad (by rintro ⟨_, he, hs⟩; cases he; rw [hsuccess] at hs; cases hs)]
    rcases rejection_run hIn hOut hrun ht status hc hsuccess with hm | hi
    · rw [hm]
      rfl
    · rw [hi, ite_self]

lemma normalResult_iff : NormalResult instrument classData r ↔
    r = if Cli.appearsToBeClassData classData then instrument classData else none := by
  refine ⟨normalResult_eq, ?_⟩
  rintro rfl
  obtain ⟨t, s, output, hrun, ht, hp⟩ := run_returns one_pos one_pos
    (.nil (System.spawned classData 1 1) : Run (Step instrument) _ _ _) nofun
  have h := NormalResult.returns one_pos one_pos hrun ht hp
  exact normalResult_eq h ▸ h

end Results

end PhasicJ.InstrumenterProcess
