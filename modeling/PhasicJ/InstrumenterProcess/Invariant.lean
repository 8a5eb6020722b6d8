import PhasicJ.InstrumenterProcess.System

/-! What holds in every reachable state of an invocation of the instrumenter. -/

namespace PhasicJ.InstrumenterProcess

open Pipes Transitions

def Child.alive : Child → Bool
  | .exited _ => false
  | _ => true

def Parent.feeding : Parent → Bool
  | .writing _ | .closing => true
  | _ => false

def Parent.listening : Parent → Bool
  | .waiting | .returned _ => false
  | _ => true

namespace System

def Drained (classData : Bytes) (s : System) : Prop :=
  s.received = classData ∧ s.stdin.writerOpen = false

def ParentOk (classData : Bytes) (s : System) : Prop :=
  match s.parent with
  | .writing todo => s.received ++ s.stdin.content ++ todo = classData
  | .closing | .reading => s.received ++ s.stdin.content = classData
  | .waiting => s.received ++ s.stdin.content = classData ∧ s.stdout.content = [] ∧
      ∃ status, s.child = .exited status
  | .returned none => s.received ++ s.stdin.content <+: classData ∧
      ∃ status, s.child = .exited status ∧ status.success = false
  | .returned (some output) => s.received ++ s.stdin.content = classData ∧
      s.stdout.content = [] ∧ s.child = .exited output.status ∧ output.stdout = s.output

def produced (s : System) : Bytes := s.output ++ s.stdout.content

def ChildOk (instrument : Bytes → Option Bytes) (classData : Bytes) (s : System) : Prop :=
  match s.child with
  | .reading => s.produced = []
  | .checking => s.Drained classData ∧ s.produced = []
  | .instrumenting => s.Drained classData ∧ Cli.appearsToBeClassData classData ∧ s.produced = []
  | .writing todo => s.Drained classData ∧ Cli.appearsToBeClassData classData ∧
      instrument classData = some (s.produced ++ todo)
  | .exited status => status.success → s.Drained classData ∧
      Cli.appearsToBeClassData classData ∧ instrument classData = some s.produced

/-- The open ends of the pipes are those of the processes that still use them. -/
structure PipesOk (s : System) : Prop where
  stdinCapacity : 0 < s.stdin.capacity
  stdoutCapacity : 0 < s.stdout.capacity
  stdinWriter : s.stdin.writerOpen = s.parent.feeding
  stdinReader : s.stdin.readerOpen = s.child.alive
  stdoutWriter : s.stdout.writerOpen = s.child.alive
  stdoutReader : s.stdout.readerOpen = s.parent.listening

structure Ok (instrument : Bytes → Option Bytes) (classData : Bytes) (s : System) : Prop where
  pipes : s.PipesOk
  parent : s.ParentOk classData
  child : s.ChildOk instrument classData

end System

variable {instrument : Bytes → Option Bytes} {classData : Bytes} {s u : System} {a : Action}

lemma alive_of_not_exited {c : Child} (h : ∀ status, c ≠ .exited status) : c.alive = true := by
  cases c with
  | exited status => exact absurd rfl (h status)
  | _ => rfl

lemma exited_of_not_alive {c : Child} (h : c.alive = false) : ∃ status, c = .exited status := by
  cases c with
  | exited status => exact ⟨status, rfl⟩
  | _ => cases h

lemma System.ParentOk.listening (h : s.ParentOk classData) (ha : s.child.alive = true) :
    s.parent.listening = true := by
  unfold System.ParentOk at h
  cases hp : s.parent with
  | waiting =>
    rw [hp] at h
    obtain ⟨-, -, status, hc⟩ := h
    rw [hc] at ha
    cases ha
  | returned result =>
    rw [hp] at h
    cases result with
    | none =>
      obtain ⟨-, status, hc, -⟩ := h
      rw [hc] at ha
      cases ha
    | some output =>
      obtain ⟨-, -, hc, -⟩ := h
      rw [hc] at ha
      cases ha
  | _ => rfl

lemma pipes_step (h : s.PipesOk) (hs : Step instrument s a u) : u.PipesOk := by
  obtain ⟨h₁, h₂, h₃, h₄, h₅, h₆⟩ := h
  cases hs with
  | parentWrite hp hw =>
    exact ⟨hw.capacity ▸ h₁, h₂, by rw [hw.writerOpen, h₃, hp]; rfl,
      hw.readerOpen.trans h₄, h₅, by rw [h₆, hp]; rfl⟩
  | parentWritten hp => exact ⟨h₁, h₂, by rw [h₃, hp]; rfl, h₄, h₅, by rw [h₆, hp]; rfl⟩
  | parentBrokenPipe => exact ⟨h₁, h₂, rfl, h₄, h₅, rfl⟩
  | parentClose hp => exact ⟨h₁, h₂, rfl, h₄, h₅, by rw [h₆, hp]; rfl⟩
  | parentRead hp hr =>
    exact ⟨h₁, hr.capacity ▸ h₂, h₃, h₄, hr.writerOpen.trans h₅, hr.readerOpen.trans h₆⟩
  | parentEnd hp => exact ⟨h₁, h₂, by rw [h₃, hp]; rfl, h₄, h₅, rfl⟩
  | parentWait hp => exact ⟨h₁, h₂, by rw [h₃, hp]; rfl, h₄, h₅, by rw [h₆, hp]; rfl⟩
  | childRead hc hr =>
    exact ⟨hr.capacity ▸ h₁, h₂, hr.writerOpen.trans h₃, hr.readerOpen.trans h₄, h₅, h₆⟩
  | childEnd hc => exact ⟨h₁, h₂, h₃, by rw [h₄, hc]; rfl, by rw [h₅, hc]; rfl, h₆⟩
  | childCheckOk hc => exact ⟨h₁, h₂, h₃, by rw [h₄, hc]; rfl, by rw [h₅, hc]; rfl, h₆⟩
  | childInstrumentOk hc => exact ⟨h₁, h₂, h₃, by rw [h₄, hc]; rfl, by rw [h₅, hc]; rfl, h₆⟩
  | childWrite hc hw =>
    exact ⟨h₁, hw.capacity ▸ h₂, h₃, by rw [h₄, hc]; rfl,
      by rw [hw.writerOpen, h₅, hc]; rfl, hw.readerOpen.trans h₆⟩
  | childWriteLost hc => exact ⟨h₁, h₂, h₃, by rw [h₄, hc]; rfl, by rw [h₅, hc]; rfl, h₆⟩
  | childCheckFails | childInstrumentThrows | childExit | childFail | childKill =>
    exact ⟨h₁, h₂, h₃, rfl, rfl, h₆⟩

lemma System.ParentOk.frame (h : s.ParentOk classData) (ha : s.child.alive = true)
    (hp : u.parent = s.parent) (hd : u.received ++ u.stdin.content = s.received ++ s.stdin.content) :
    u.ParentOk classData := by
  have hl := h.listening ha
  unfold System.ParentOk at h ⊢
  rw [hp]
  cases hq : s.parent with
  | writing | closing | reading => rw [hq] at h; simpa only [hd] using h
  | waiting | returned => rw [hq] at hl; cases hl

lemma parent_step (h : s.Ok instrument classData) (hs : Step instrument s a u) :
    u.ParentOk classData := by
  obtain ⟨hpipes, hparent, hchild⟩ := h
  have hok := hparent
  cases hs with
  | parentWrite hp hw =>
    rw [System.ParentOk, hp] at hparent
    simpa [System.ParentOk, hw.content] using hparent
  | parentWritten hp =>
    rw [System.ParentOk, hp] at hparent
    simpa [System.ParentOk] using hparent
  | @parentBrokenPipe b todo hp hr =>
    rw [System.ParentOk, hp] at hparent
    obtain ⟨status, hc⟩ := exited_of_not_alive (hpipes.stdinReader.symm.trans hr)
    refine ⟨⟨_, hparent⟩, status, hc, ?_⟩
    -- a child that ended well has seen the end of its input, but the agent is still writing
    cases hsuccess : status.success with
    | false => rfl
    | true =>
      rw [System.ChildOk, hc] at hchild
      have hopen := hpipes.stdinWriter
      rw [(hchild hsuccess).1.2, hp] at hopen
      cases hopen
  | parentClose hp => rwa [System.ParentOk, hp] at hparent
  | parentRead hp hr =>
    rw [System.ParentOk, hp] at hparent
    simpa [System.ParentOk, hp] using hparent
  | parentEnd hp he =>
    rw [System.ParentOk, hp] at hparent
    exact ⟨hparent, he.1, exited_of_not_alive (hpipes.stdoutWriter.symm.trans he.2)⟩
  | parentWait hp hc =>
    rw [System.ParentOk, hp] at hparent
    exact ⟨hparent.1, hparent.2.1, hc, rfl⟩
  | childRead hc hr =>
    refine hok.frame (by rw [hc]; rfl) rfl ?_
    simp [hr.content]
  | childEnd hc | childCheckOk hc | childInstrumentOk hc | childWrite hc | childWriteLost hc
  | childCheckFails hc | childInstrumentThrows hc | childExit hc =>
    exact hok.frame (by rw [hc]; rfl) rfl rfl
  | childFail hc | childKill hc => exact hok.frame (alive_of_not_exited hc) rfl rfl

lemma System.ChildOk.frame (h : s.ChildOk instrument classData) (hc : u.child = s.child)
    (hr : u.received = s.received) (hp : u.produced = s.produced)
    (hw : s.stdin.writerOpen = false → u.stdin.writerOpen = false) :
    u.ChildOk instrument classData := by
  have hd : s.Drained classData → u.Drained classData := fun h => ⟨hr.trans h.1, hw h.2⟩
  unfold System.ChildOk at h ⊢
  rw [hc]
  cases hq : s.child with
  | reading => rw [hq] at h; exact hp.trans h
  | checking => rw [hq] at h; exact ⟨hd h.1, hp.trans h.2⟩
  | instrumenting => rw [hq] at h; exact ⟨hd h.1, h.2.1, hp.trans h.2.2⟩
  | writing todo => rw [hq] at h; exact ⟨hd h.1, h.2.1, by rw [hp]; exact h.2.2⟩
  | exited status =>
    rw [hq] at h
    exact fun hs => ⟨hd (h hs).1, (h hs).2.1, by rw [hp]; exact (h hs).2.2⟩

lemma drained_at_end (h : s.Ok instrument classData) (ha : s.child.alive = true)
    (he : s.stdin.AtEnd) : s.Drained classData := by
  refine ⟨?_, he.2⟩
  have hf := h.pipes.stdinWriter.symm.trans he.2
  have hl := h.parent.listening ha
  have hp := h.parent
  unfold System.ParentOk at hp
  cases hq : s.parent with
  | writing | closing => rw [hq] at hf; cases hf
  | waiting | returned => rw [hq] at hl; cases hl
  | reading =>
    rw [hq] at hp
    simpa only [he.1, List.append_nil] using hp

lemma exit_fails {s : System} {status : ExitStatus} (h : status.success = false) :
    (s.exit status).ChildOk instrument classData := by
  intro hs
  rw [h] at hs
  cases hs

lemma child_step (h : s.Ok instrument classData) (hs : Step instrument s a u) :
    u.ChildOk instrument classData := by
  have hok := h.child
  have hchild := h.child
  cases hs with
  | parentWrite hp hw => exact hok.frame rfl rfl rfl fun hf => hw.writerOpen.trans hf
  | parentWritten | parentWait => exact hok.frame rfl rfl rfl id
  | parentBrokenPipe | parentClose => exact hok.frame rfl rfl rfl fun _ => rfl
  | parentEnd => exact hok.frame rfl rfl rfl id
  | parentRead hp hr =>
    refine hok.frame rfl rfl ?_ id
    simp [System.produced, hr.content]
  | childRead hc hr =>
    rw [System.ChildOk, hc] at hchild
    rw [System.ChildOk, hc]
    exact hchild
  | childEnd hc he =>
    rw [System.ChildOk, hc] at hchild
    have hd := drained_at_end h (by rw [hc]; rfl) he
    exact ⟨hd, hchild⟩
  | childCheckOk hc hm =>
    rw [System.ChildOk, hc] at hchild
    exact ⟨hchild.1, hchild.1.1 ▸ hm, hchild.2⟩
  | childCheckFails => exact exit_fails rfl
  | childInstrumentOk hc ho =>
    rw [System.ChildOk, hc] at hchild
    obtain ⟨hd, hm, hp⟩ := hchild
    refine ⟨hd, hm, ?_⟩
    rw [← hd.1, ho]
    change _ = some (s.produced ++ _)
    rw [hp, List.nil_append]
  | childInstrumentThrows => exact exit_fails rfl
  | childWrite hc hw =>
    rw [System.ChildOk, hc] at hchild
    obtain ⟨hd, hm, ho⟩ := hchild
    refine ⟨hd, hm, ?_⟩
    rw [ho, System.produced, System.produced, hw.content]
    simp
  | childWriteLost hc hr =>
    have hl := h.parent.listening (by rw [hc]; rfl)
    rw [← h.pipes.stdoutReader, hr] at hl
    cases hl
  | childExit hc =>
    rw [System.ChildOk, hc] at hchild
    obtain ⟨hd, hm, ho⟩ := hchild
    exact fun _ => ⟨hd, hm, by rw [ho, List.append_nil]; rfl⟩
  | childFail _ hn =>
    apply exit_fails
    simpa [ExitStatus.success] using hn
  | childKill => exact exit_fails rfl

lemma ok_spawned {capIn capOut : ℕ} (hIn : 0 < capIn) (hOut : 0 < capOut) :
    (System.spawned classData capIn capOut).Ok instrument classData where
  pipes := ⟨hIn, hOut, rfl, rfl, rfl, rfl⟩
  parent := rfl
  child := rfl

lemma ok_run {t : List Action} {capIn capOut : ℕ} (hIn : 0 < capIn) (hOut : 0 < capOut)
    (h : Run (Step instrument) (System.spawned classData capIn capOut) t s) :
    s.Ok instrument classData := by
  refine h.invariant (fun s => s.Ok instrument classData) ?_ (ok_spawned hIn hOut)
  intro u a v hu hs
  exact ⟨pipes_step hu.pipes hs, parent_step hu hs, child_step hu hs⟩

end PhasicJ.InstrumenterProcess
