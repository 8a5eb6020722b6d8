import PhasicJ.InstrumenterProcess.Invariant

/-! The agent and the child never wait for each other. -/

namespace PhasicJ.InstrumenterProcess

open Pipes Transitions

variable {instrument : Bytes → Option Bytes} {classData : Bytes} {s : System}

def CanStep (instrument : Bytes → Option Bytes) (s : System) : Prop :=
  ∃ a u, a.isNormal ∧ Step instrument s a u

lemma child_can_step (h : s.Ok instrument classData) (ha : s.child.alive = true)
    (hin : s.stdin.content ≠ [] ∨ s.stdin.writerOpen = false)
    (hout : s.stdout.content.length < s.stdout.capacity) : CanStep instrument s := by
  cases hc : s.child with
  | reading =>
    by_cases he : s.stdin.content = []
    · exact ⟨_, _, rfl, .childEnd hc ⟨he, hin.resolve_left fun hn => hn he⟩⟩
    · obtain ⟨chunk, q, hr⟩ := Pipe.can_read he
      exact ⟨_, _, rfl, .childRead hc hr⟩
  | checking =>
    cases hm : Cli.appearsToBeClassData s.received with
    | true => exact ⟨_, _, rfl, .childCheckOk hc hm⟩
    | false => exact ⟨_, _, rfl, .childCheckFails hc hm⟩
  | instrumenting =>
    cases ho : instrument s.received with
    | some out => exact ⟨_, _, rfl, .childInstrumentOk hc ho⟩
    | none => exact ⟨_, _, rfl, .childInstrumentThrows hc ho⟩
  | writing todo =>
    cases todo with
    | nil => exact ⟨_, _, rfl, .childExit hc⟩
    | cons b todo =>
      have hr : s.stdout.readerOpen = true := h.pipes.stdoutReader.trans (h.parent.listening ha)
      obtain ⟨q, hw⟩ := Pipe.can_write hr hout b
      exact ⟨_, _, rfl, .childWrite hc hw⟩
  | exited status => rw [hc] at ha; cases ha

lemma quiet_while_fed (h : s.Ok instrument classData) (ha : s.child.alive = true)
    (hf : s.parent.feeding = true) : s.child = .reading ∧ s.stdout.content = [] := by
  have hc := h.child
  have hopen : ¬ s.Drained classData := by
    intro hd
    rw [← h.pipes.stdinWriter, hd.2] at hf
    cases hf
  unfold System.ChildOk at hc
  cases hq : s.child with
  | reading =>
    rw [hq] at hc
    exact ⟨rfl, (List.append_eq_nil_iff.mp hc).2⟩
  | checking | instrumenting | writing => rw [hq] at hc; exact absurd hc.1 hopen
  | exited => rw [hq] at ha; cases ha

lemma can_step (h : s.Ok instrument classData) (hr : ∀ r, s.parent ≠ .returned r) :
    CanStep instrument s := by
  cases hp : s.parent with
  | writing todo =>
    cases todo with
    | nil => exact ⟨_, _, rfl, .parentWritten hp⟩
    | cons b todo =>
      cases ha : s.child.alive with
      | false => exact ⟨_, _, rfl, .parentBrokenPipe hp (h.pipes.stdinReader.trans ha)⟩
      | true =>
        by_cases hroom : s.stdin.content.length < s.stdin.capacity
        · obtain ⟨q, hw⟩ := Pipe.can_write (h.pipes.stdinReader.trans ha) hroom b
          exact ⟨_, _, rfl, .parentWrite hp hw⟩
        -- the pipe is full, so the child can read, and its own output is still empty
        · obtain ⟨-, hq⟩ := quiet_while_fed h ha (by rw [hp]; rfl)
          refine child_can_step h ha (.inl (Pipe.nonempty_of_full h.pipes.stdinCapacity hroom)) ?_
          rw [hq]
          exact h.pipes.stdoutCapacity
  | closing => exact ⟨_, _, rfl, .parentClose hp⟩
  | reading =>
    by_cases he : s.stdout.content = []
    · cases ha : s.child.alive with
      | false => exact ⟨_, _, rfl, .parentEnd hp ⟨he, h.pipes.stdoutWriter.trans ha⟩⟩
      | true =>
        refine child_can_step h ha (.inr (h.pipes.stdinWriter.trans (by rw [hp]; rfl))) ?_
        rw [he]
        exact h.pipes.stdoutCapacity
    · obtain ⟨chunk, q, hread⟩ := Pipe.can_read he
      exact ⟨_, _, rfl, .parentRead hp hread⟩
  | waiting =>
    have hw := h.parent
    rw [System.ParentOk, hp] at hw
    obtain ⟨-, -, status, hc⟩ := hw
    exact ⟨_, _, rfl, .parentWait hp hc⟩
  | returned r => exact absurd hp (hr r)

lemma received_le (h : s.Ok instrument classData) : s.received <+: classData := by
  have hp := h.parent
  unfold System.ParentOk at hp
  cases hq : s.parent with
  | writing todo =>
    rw [hq] at hp
    exact ⟨_, (List.append_assoc _ _ _).symm.trans hp⟩
  | closing | reading => rw [hq] at hp; exact ⟨_, hp⟩
  | waiting => rw [hq] at hp; exact ⟨_, hp.1⟩
  | returned result =>
    rw [hq] at hp
    cases result with
    | none => exact (List.prefix_append _ _).trans hp.1
    | some output => exact ⟨_, hp.1⟩

/-- In every reachable state in which the agent has not returned, some process can take a step that
is no failure. What the child has read is a prefix of the class, and the whole class when it sees
the end of its input. -/
theorem never_deadlocked (instrument : Bytes → Option Bytes) (classData : Bytes) {capIn capOut : ℕ}
    (hIn : 0 < capIn) (hOut : 0 < capOut) {t : List Action} {s : System}
    (h : Run (Step instrument) (System.spawned classData capIn capOut) t s) :
    ((∀ result, s.parent ≠ .returned result) → ∃ a u, a.isNormal ∧ Step instrument s a u) ∧
    s.received <+: classData ∧
    ∀ u, Step instrument s .childEnd u → s.received = classData := by
  have hok : s.Ok instrument classData := ok_run hIn hOut h
  refine ⟨can_step hok, received_le hok, ?_⟩
  intro u hu
  cases hu with
  | childEnd hc he => exact (drained_at_end hok (by rw [hc]; rfl) he).1

section Example

/-- The first bytes of the class have filled its pipe. -/
def fullPipe : System :=
  { System.spawned [0xCA, 0xFE, 0xBA, 0xBE] 3 1 with
    parent := .writing [0xBE]
    stdin := ⟨3, [0xCA, 0xFE, 0xBA], true, true, le_rfl⟩ }

lemma full_pipe_run :
    Run (Step some) (.spawned [0xCA, 0xFE, 0xBA, 0xBE] 3 1) [.parentWrite] fullPipe :=
  .single (@Step.parentWrite _ _ [0xCA, 0xFE, 0xBA] _ _ rfl
    ⟨List.cons_ne_nil _ _, rfl, rfl, rfl, rfl, rfl⟩)

lemma full_pipe_blocks (u : System) : ¬ Step some fullPipe .parentWrite u := by
  intro hu
  cases hu with
  | @parentWrite chunk todo p hp hw =>
    have hlen : (fullPipe.stdin.content ++ chunk).length ≤ fullPipe.stdin.capacity := by
      rw [← hw.content, ← hw.capacity]
      exact p.fits
    have hpos := List.length_pos_iff.mpr hw.some
    simp only [fullPipe, List.length_append, List.length_cons] at hlen
    omega

theorem never_deadlocked_full : (∀ u, ¬ Step some fullPipe .parentWrite u) ∧
    fullPipe.received <+: [0xCA, 0xFE, 0xBA, 0xBE] ∧
    ∃ a u, Action.isNormal a ∧ Step some fullPipe a u := by
  obtain ⟨hstep, hreceived, -⟩ := never_deadlocked some [0xCA, 0xFE, 0xBA, 0xBE] (Nat.succ_pos 2)
    Nat.one_pos full_pipe_run
  exact ⟨full_pipe_blocks, hreceived, hstep (by rintro r ⟨⟩)⟩

end Example

end PhasicJ.InstrumenterProcess
