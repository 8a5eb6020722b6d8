import PhasicJ.InstrumenterProcess.Invocation
import PhasicJ.Transitions.Interleaving

/-! Calls of `instrument` with any spawned program, and the children that they leave behind. -/

namespace PhasicJ.InstrumenterProcess

open Pipes Transitions

/-- A process that has ended stays a zombie until its parent waits for it. -/
inductive Process where
  | running
  | zombie (status : ExitStatus)
  | reaped (status : ExitStatus)
  deriving DecidableEq

def Process.isReaped : Process → Bool
  | .reaped _ => true
  | _ => false

def Parent.unwritten : Parent → Bytes
  | .writing todo => todo
  | _ => []

/-- A call of `instrument` that has spawned its child, whatever program that is. -/
structure Spawned where
  parent : Parent
  program : Process
  stdin : Pipe UInt8
  stdout : Pipe UInt8
  output : Bytes

namespace Spawned

def fresh (classData : Bytes) (capIn capOut : ℕ) : Spawned where
  parent := .writing classData
  program := .running
  stdin := .fresh UInt8 capIn
  stdout := .fresh UInt8 capOut
  output := []

inductive Action where
  | write | written | brokenPipe | close | read | readEnd | wait
  | programReads | programWrites | closesStdin | closesStdout | exits
  deriving DecidableEq

/-- The program may close its ends of the pipes before it exits, and processes that it has started
may keep them open, read and write after that. -/
inductive Step : Spawned → Action → Spawned → Prop
  | write {s : Spawned} {chunk todo : Bytes} {p : Pipe UInt8} :
      s.parent = .writing (chunk ++ todo) → s.stdin.Writes chunk p →
      Step s .write { s with parent := .writing todo, stdin := p }
  | written {s : Spawned} :
      s.parent = .writing [] → Step s .written { s with parent := .closing }
  -- `write_all(..)?` drops the `Child`: the agent's ends of the pipes are closed, nobody waits
  | brokenPipe {s : Spawned} :
      s.parent.unwritten ≠ [] → s.stdin.readerOpen = false →
      Step s .brokenPipe
        { s with
          parent := .returned none
          stdin := s.stdin.closeWriter
          stdout := s.stdout.closeReader }
  -- `wait_with_output` closes stdin, reads stdout to its end and waits
  | close {s : Spawned} :
      s.parent = .closing →
      Step s .close { s with parent := .reading, stdin := s.stdin.closeWriter }
  | read {s : Spawned} {chunk : Bytes} {p : Pipe UInt8} :
      s.parent = .reading → s.stdout.Reads chunk p →
      Step s .read { s with stdout := p, output := s.output ++ chunk }
  | readEnd {s : Spawned} :
      s.parent = .reading → s.stdout.AtEnd →
      Step s .readEnd { s with parent := .waiting, stdout := s.stdout.closeReader }
  | wait {s : Spawned} {status : ExitStatus} :
      s.parent = .waiting → s.program = .zombie status →
      Step s .wait
        { s with parent := .returned (some ⟨status, s.output⟩), program := .reaped status }
  | programReads {s : Spawned} {chunk : Bytes} {p : Pipe UInt8} :
      s.stdin.readerOpen → s.stdin.Reads chunk p →
      Step s .programReads { s with stdin := p }
  | programWrites {s : Spawned} {chunk : Bytes} {p : Pipe UInt8} :
      s.stdout.writerOpen → s.stdout.Writes chunk p →
      Step s .programWrites { s with stdout := p }
  | closesStdin {s : Spawned} :
      s.stdin.readerOpen → Step s .closesStdin { s with stdin := s.stdin.closeReader }
  | closesStdout {s : Spawned} :
      s.stdout.writerOpen → Step s .closesStdout { s with stdout := s.stdout.closeWriter }
  | exits {s : Spawned} {status : ExitStatus} :
      s.program = .running → Step s .exits { s with program := .zombie status }

end Spawned

inductive Instrumentation where
  | notSpawned
  | spawned (s : Spawned)

namespace Instrumentation

def Starts : Instrumentation → Prop
  | .notSpawned => True
  | .spawned s => ∃ classData capIn capOut, s = .fresh classData capIn capOut

inductive Step : Instrumentation → Spawned.Action → Instrumentation → Prop
  | spawned {s u : Spawned} {a : Spawned.Action} : s.Step a u → Step (.spawned s) a (.spawned u)

def Returned : Instrumentation → Option Bytes → Prop
  | .notSpawned, result => result = none
  | .spawned s, result =>
    ∃ output, s.parent = .returned output ∧ result = instrumentResult output

def unreaped : Instrumentation → Bool
  | .notSpawned => false
  | .spawned s => !s.program.isReaped

def PipesClosed : Instrumentation → Prop
  | .notSpawned => True
  | .spawned s => s.stdin.writerOpen = false ∧ s.stdout.readerOpen = false

/-- The action does not close the program's standard input while the call has data left for it. -/
def Fed : Instrumentation → Spawned.Action → Prop
  | .notSpawned, _ => True
  | .spawned s, a => a = .closesStdin → s.parent.unwritten = []

def FedStep (c : Instrumentation) (a : Spawned.Action) (d : Instrumentation) : Prop :=
  c.Step a d ∧ c.Fed a

end Instrumentation

abbrev CallsStep := Interleaved Instrumentation.Starts Instrumentation.Step

abbrev FedCallsStep := Interleaved Instrumentation.Starts Instrumentation.FedStep

def unreapedChildren (calls : List Instrumentation) : ℕ := calls.countP Instrumentation.unreaped

namespace Spawned

variable {s u : Spawned} {a : Action} {t : List Action}

def Ok (s : Spawned) : Prop :=
  match s.parent with
  | .writing _ | .closing => s.program.isReaped = false
  | .reading => s.stdin.writerOpen = false ∧ s.program.isReaped = false
  | .waiting => s.stdin.writerOpen = false ∧ s.stdout.readerOpen = false ∧
      s.program.isReaped = false
  | .returned result => s.stdin.writerOpen = false ∧ s.stdout.readerOpen = false ∧
      s.program.isReaped = result.isSome

lemma ok_fresh (classData : Bytes) (capIn capOut : ℕ) : (fresh classData capIn capOut).Ok := rfl

lemma Ok.unreaped (h : s.Ok) (hp : s.parent.unwritten ≠ []) : s.program.isReaped = false := by
  unfold Ok at h
  cases hs : s.parent with
  | writing todo => simpa only [hs] using h
  | _ =>
    rw [hs] at hp
    exact absurd rfl hp

lemma Ok.of_same_ends (h : s.Ok) (hp : u.parent = s.parent)
    (hin : u.stdin.writerOpen = s.stdin.writerOpen)
    (hout : u.stdout.readerOpen = s.stdout.readerOpen)
    (hr : u.program.isReaped = s.program.isReaped) : u.Ok := by
  unfold Ok at h ⊢
  rwa [hp, hin, hout, hr]

lemma Ok.step (h : s.Ok) (hs : s.Step a u) : u.Ok := by
  cases hs with
  | write hp | written hp | close hp | readEnd hp => simp_all [Ok]
  | read hp hr =>
    have := hr.readerOpen
    simp_all [Ok]
  | brokenPipe hp => exact ⟨rfl, rfl, h.unreaped hp⟩
  | wait hp =>
    rw [Ok, hp] at h
    exact ⟨h.1, h.2.1, rfl⟩
  | programReads _ hr => exact h.of_same_ends rfl hr.writerOpen rfl rfl
  | programWrites _ hw => exact h.of_same_ends rfl rfl hw.readerOpen rfl
  | closesStdin | closesStdout => exact h.of_same_ends rfl rfl rfl rfl
  | exits hp => exact h.of_same_ends rfl rfl rfl (by rw [hp]; rfl)

/-- The program has closed its standard input before everything was written, or that has already
made the call return. -/
def CutOff (s : Spawned) : Prop :=
  (s.parent.unwritten ≠ [] ∧ s.stdin.readerOpen = false) ∨ s.parent = .returned none

lemma CutOff.step (h : s.CutOff) (hs : s.Step a u) : u.CutOff := by
  rcases h with ⟨hp, hr⟩ | hp
  -- nothing can be written, so the only way on for the call is the error
  · cases hs with
    | write _ hw => simp [hw.reader] at hr
    | written hp' | close hp' | read hp' | readEnd hp' | wait hp' =>
      rw [hp'] at hp
      exact absurd rfl hp
    | brokenPipe => exact .inr rfl
    | programReads hr' | closesStdin hr' => simp [hr] at hr'
    | programWrites | closesStdout | exits => exact .inl ⟨hp, hr⟩
  · cases hs with
    | write hp' | written hp' | close hp' | read hp' | readEnd hp' | wait hp' =>
      simp [hp'] at hp
    | brokenPipe => exact .inr rfl
    | programReads | closesStdin | programWrites | closesStdout | exits => exact .inr hp

lemma CutOff.unreaped (h : s.CutOff) (hs : s.Ok) : s.program.isReaped = false := by
  rcases h with ⟨hp, -⟩ | hp
  · exact hs.unreaped hp
  · rw [Ok, hp] at hs
    exact hs.2.2

lemma CutOff.returns (h : s.CutOff) : ∃ t u, Run Step s t u ∧ u.parent = .returned none := by
  rcases h with ⟨hp, hr⟩ | hp
  · exact ⟨_, _, .single (.brokenPipe hp hr), rfl⟩
  · exact ⟨_, s, .nil s, hp⟩

lemma cutOff_of_closesStdin (hs : s.Step .closesStdin u) (hp : s.parent.unwritten ≠ []) :
    u.CutOff := by
  cases hs
  exact .inl ⟨hp, rfl⟩

lemma not_cutOff_fresh (classData : Bytes) (capIn capOut : ℕ) :
    ¬ (fresh classData capIn capOut).CutOff := by
  rintro (⟨-, hr⟩ | hp)
  · cases hr
  · cases hp

lemma not_cutOff_step (h : ¬ s.CutOff) (hs : s.Step a u)
    (hf : a = .closesStdin → s.parent.unwritten = []) : ¬ u.CutOff := by
  intro hu
  apply h
  cases hs with
  | write hp hw =>
    rcases hu with ⟨-, hr⟩ | hp
    · exact absurd (hw.readerOpen.symm.trans hr) (by simp [hw.reader])
    · cases hp
  | brokenPipe hp hr => exact .inl ⟨hp, hr⟩
  | written | close | readEnd | wait => simp [CutOff, Parent.unwritten] at hu
  | programReads _ hr => exact hu.imp_left fun hp => ⟨hp.1, hr.readerOpen.symm.trans hp.2⟩
  | closesStdin => exact hu.imp_left fun hp => absurd (hf rfl) hp.1
  | read | programWrites | closesStdout | exits => exact hu

end Spawned

namespace Instrumentation

variable {c d : Instrumentation} {a : Spawned.Action} {r : Option Bytes}

def Satisfies (P : Spawned → Prop) (c : Instrumentation) : Prop := ∀ s, c = .spawned s → P s

lemma satisfies_start {P : Spawned → Prop}
    (hP : ∀ classData capIn capOut, P (.fresh classData capIn capOut)) (hc : c.Starts) :
    c.Satisfies P := by
  rintro s rfl
  obtain ⟨classData, capIn, capOut, rfl⟩ := hc
  exact hP classData capIn capOut

lemma Step.satisfies {P : Spawned → Prop} (hc : c.Satisfies P) (hs : c.Step a d)
    (hP : ∀ s u, s.Step a u → P s → P u) : d.Satisfies P := by
  cases hs with
  | spawned hs =>
    rintro u ⟨⟩
    exact hP _ _ hs (hc _ rfl)

lemma FedStep.not_cutOff (hc : c.Satisfies fun s => ¬ s.CutOff) (hs : c.FedStep a d) :
    d.Satisfies fun s => ¬ s.CutOff := by
  obtain ⟨hs, hf⟩ := hs
  cases hs with
  | spawned hs =>
    rintro u ⟨⟩
    exact Spawned.not_cutOff_step (hc _ rfl) hs hf

lemma cutOff_of_not_fed (hs : c.Step a d) (hf : ¬ c.Fed a) : d.Satisfies Spawned.CutOff := by
  cases hs with
  | spawned hs =>
    rintro u ⟨⟩
    rw [Fed, Classical.not_imp] at hf
    obtain ⟨rfl, hf⟩ := hf
    exact Spawned.cutOff_of_closesStdin hs hf

lemma run_spawned {s u : Spawned} {t : List Spawned.Action} (h : Run Spawned.Step s t u) :
    Run Step (.spawned s) t (.spawned u) := by
  induction h with
  | nil => exact .nil _
  | snoc _ hs ih => exact ih.snoc (.spawned hs)

lemma run_fed {s u : Spawned} {t : List Spawned.Action} (h : Run Spawned.Step s t u)
    (ht : .closesStdin ∉ t) : Run FedStep (.spawned s) t (.spawned u) := by
  induction h with
  | nil => exact .nil _
  | snoc _ hs ih =>
    rw [List.mem_append, List.mem_singleton, not_or] at ht
    exact (ih ht.1).snoc ⟨.spawned hs, fun ha => absurd ha.symm ht.2⟩

def CutOff (c : Instrumentation) : Prop := ∃ s, c = .spawned s ∧ s.CutOff ∧ s.Ok

lemma CutOff.step (h : c.CutOff) (hs : c.Step a d) : d.CutOff := by
  obtain ⟨s, rfl, hcut, hok⟩ := h
  cases hs with
  | spawned hs => exact ⟨_, rfl, hcut.step hs, hok.step hs⟩

lemma CutOff.unreaped (h : c.CutOff) : c.unreaped = true := by
  obtain ⟨s, rfl, hcut, hok⟩ := h
  rw [Instrumentation.unreaped, hcut.unreaped hok]
  rfl

lemma pipesClosed (hok : c.Satisfies Spawned.Ok) (hr : c.Returned r) : c.PipesClosed := by
  cases c with
  | notSpawned => trivial
  | spawned s =>
    obtain ⟨output, hp, -⟩ := hr
    have h := hok s rfl
    rw [Spawned.Ok, hp] at h
    exact ⟨h.1, h.2.1⟩

lemma waitedFor (hok : c.Satisfies Spawned.Ok) (hc : c.Satisfies fun s => ¬ s.CutOff)
    (hr : c.Returned r) : c.unreaped = false := by
  cases c with
  | notSpawned => rfl
  | spawned s =>
    obtain ⟨output, hp, -⟩ := hr
    have h := hok s rfl
    rw [Spawned.Ok, hp] at h
    cases output with
    | none => exact absurd (.inr hp) (hc s rfl)
    | some output => rw [unreaped, h.2.2]; rfl

end Instrumentation

variable {calls calls' : List Instrumentation} {t : List (Option (ℕ × Spawned.Action))}
  {c d : Instrumentation} {a : Spawned.Action} {i : ℕ}

lemma calls_ok (h : Run CallsStep calls t calls') (hok : ∀ c ∈ calls, c.Satisfies Spawned.Ok) :
    ∀ c ∈ calls', c.Satisfies Spawned.Ok :=
  Interleaved.forall_run _ h (fun _ => Instrumentation.satisfies_start Spawned.ok_fresh)
    (fun _ _ _ hc hs => hs.satisfies hc fun _ _ hs h => h.step hs) hok

lemma fedCalls_not_cutOff (h : Run FedCallsStep [] t calls) :
    ∀ c ∈ calls, c.Satisfies fun s => ¬ s.CutOff :=
  Interleaved.forall_run _ h (fun _ => Instrumentation.satisfies_start Spawned.not_cutOff_fresh)
    (fun _ _ _ => Instrumentation.FedStep.not_cutOff) (by simp)

lemma fedCalls_ok (h : Run FedCallsStep [] t calls) : ∀ c ∈ calls, c.Satisfies Spawned.Ok :=
  calls_ok (h.mono fun _ _ _ hs => hs.mono fun _ _ _ hs => hs.1) (by simp)

/-- The call has returned or will return, and nobody will have waited for its child. -/
def LeftBehind (calls : List Instrumentation) (i : ℕ) : Prop :=
  (∃ t calls' c, Run CallsStep calls t calls' ∧ calls'[i]? = some c ∧ c.Returned none) ∧
    ∀ t calls' c, Run CallsStep calls t calls' → calls'[i]? = some c → c.unreaped

lemma leftBehind_of_cutOff {s : Spawned} (hi : calls[i]? = some (.spawned s)) (hcut : s.CutOff)
    (hok : s.Ok) : LeftBehind calls i := by
  have hlt : i < calls.length := (List.getElem?_eq_some_iff.mp hi).1
  constructor
  · obtain ⟨t, u, hr, hu⟩ := hcut.returns
    refine ⟨_, _, .spawned u, Interleaved.run_of_component (Instrumentation.run_spawned hr) hi,
      List.getElem?_set_self hlt, none, hu, rfl⟩
  · intro t calls' c hr hc
    exact (Interleaved.component_run Instrumentation.CutOff hr (fun _ _ _ h hs => h.step hs)
      (fun c hc => ⟨s, Option.some.inj (hc.symm.trans hi), hcut, hok⟩) hlt c hc).unreaped

lemma leftBehind_of_not_fed (hok : ∀ c ∈ calls, c.Satisfies Spawned.Ok)
    (hi : calls[i]? = some c) (hs : c.Step a d) (hf : ¬ c.Fed a) :
    LeftBehind (calls.set i d) i := by
  have hlt : i < calls.length := (List.getElem?_eq_some_iff.mp hi).1
  have hcut := Instrumentation.cutOff_of_not_fed hs hf
  have hdok : d.Satisfies Spawned.Ok :=
    hs.satisfies (hok c (List.mem_of_getElem? hi)) fun _ _ hs h => h.step hs
  cases hs with
  | spawned => exact leftBehind_of_cutOff (List.getElem?_set_self hlt) (hcut _ rfl) (hdok _ rfl)

/-- In the runs in which no program closes its standard input while its call has data left to write,
each call that returns has waited for its child, so none is left when all have returned. A program
that does so is left behind for ever. In every run the calls that return have closed the pipes. -/
theorem children_waited_for (calls : List Instrumentation) :
    (∀ t, Run CallsStep [] t calls → ∀ c ∈ calls, ∀ r, c.Returned r → c.PipesClosed) ∧
    ∀ t, Run FedCallsStep [] t calls →
      (∀ c ∈ calls, ∀ r, c.Returned r → c.unreaped = false) ∧
      ((∀ c ∈ calls, ∃ r, c.Returned r) → unreapedChildren calls = 0) ∧
      ∀ i c a d, calls[i]? = some c → c.Step a d →
        ¬ c.Fed a → LeftBehind (calls.set i d) i := by
  refine ⟨fun t h c hc r hr =>
    Instrumentation.pipesClosed (calls_ok h (by simp) c hc) hr, fun t h => ?_⟩
  have hok := fedCalls_ok h
  have hreaped : ∀ c ∈ calls, ∀ r, c.Returned r → c.unreaped = false := fun c hc r hr =>
    Instrumentation.waitedFor (hok c hc) (fedCalls_not_cutOff h c hc) hr
  refine ⟨hreaped, fun hall => List.countP_eq_zero.mpr fun c hc => ?_,
    fun i c a d hi hs hf => leftBehind_of_not_fed hok hi hs hf⟩
  obtain ⟨r, hr⟩ := hall c hc
  simp [hreaped c hc r hr]

section Example

def oneByte : Spawned := .fresh [0xCA] 1 1

def waitedForCall : Spawned where
  parent := .returned (some ⟨.exited 1, []⟩)
  program := .reaped (.exited 1)
  stdin := { Pipe.fresh UInt8 1 with content := [0xCA], writerOpen := false, fits := le_rfl }
  stdout := { Pipe.fresh UInt8 1 with writerOpen := false, readerOpen := false }
  output := []

lemma oneByte_waitedFor :
    Run Spawned.Step oneByte [.write, .written, .close, .exits, .closesStdout, .readEnd, .wait]
      waitedForCall := by
  have h : Run Spawned.Step oneByte [] _ := .nil _
  have h := h.snoc (.write (show _ = Parent.writing ([0xCA] ++ []) from rfl)
    (show Pipe.Writes _ [0xCA] ⟨1, [0xCA], true, true, le_rfl⟩ from
      ⟨by simp, rfl, rfl, rfl, rfl, rfl⟩))
  have h := h.snoc (.written rfl)
  have h := h.snoc (.close rfl)
  have h := h.snoc (@Spawned.Step.exits _ (.exited 1) rfl)
  have h := h.snoc (.closesStdout rfl)
  have h := h.snoc (.readEnd rfl ⟨rfl, rfl⟩)
  exact h.snoc (.wait rfl rfl)

theorem children_waited_for_one : unreapedChildren [.spawned waitedForCall] = 0 := by
  have hr : Run FedCallsStep [] [none] [.spawned oneByte] :=
    .single (.start ⟨[0xCA], 1, 1, rfl⟩)
  have hr := hr.trans (Interleaved.run_of_component (i := 0)
    (Instrumentation.run_fed oneByte_waitedFor (by decide)) rfl)
  refine ((children_waited_for _).2 _ hr).2.1 ?_
  rintro c hc
  obtain rfl := List.mem_singleton.mp hc
  exact ⟨_, _, rfl, rfl⟩

def leftBehindCall : Spawned :=
  { oneByte with
    parent := .returned none
    program := .zombie (.exited 1)
    stdin := { oneByte.stdin with readerOpen := false, writerOpen := false }
    stdout := { oneByte.stdout with readerOpen := false } }

lemma oneByte_leftBehind :
    Run Spawned.Step oneByte [.closesStdin, .exits, .brokenPipe] leftBehindCall := by
  have h : Run Spawned.Step oneByte [] _ := .nil _
  have h := h.snoc (.closesStdin rfl)
  have h := h.snoc (@Spawned.Step.exits _ (.exited 1) rfl)
  exact h.snoc (.brokenPipe (show [0xCA] ≠ [] by simp) rfl)

theorem child_left_behind :
    ¬ ∀ t calls, Run CallsStep [] t calls → ∀ c ∈ calls, ∀ r, c.Returned r →
      c.unreaped = false ∧ c.PipesClosed := by
  intro h
  have hr : Run CallsStep [] [none] [.spawned oneByte] := .single (.start ⟨[0xCA], 1, 1, rfl⟩)
  have hr := hr.trans (Interleaved.run_of_component (i := 0)
    (Instrumentation.run_spawned oneByte_leftBehind) rfl)
  have hu := (h _ _ hr (.spawned leftBehindCall) (List.mem_singleton.mpr rfl) none ⟨_, rfl, rfl⟩).1
  cases hu

end Example

section Cli

variable {instrument : Bytes → Option Bytes} {classData : Bytes} {s u : System} {a : Action}

def Parent.hasOutput : Parent → Bool
  | .returned (some _) => true
  | _ => false

def System.program (s : System) : Process :=
  match s.child with
  | .exited status => if s.parent.hasOutput then .reaped status else .zombie status
  | _ => .running

def System.asSpawned (s : System) : Spawned where
  parent := s.parent
  program := s.program
  stdin := s.stdin
  stdout := s.stdout
  output := s.output

lemma program_eq (hc : u.child = s.child) (hp : u.parent.hasOutput = s.parent.hasOutput) :
    u.program = s.program := by
  unfold System.program
  rw [hc, hp]

lemma program_alive (hc : s.child.alive = true) : s.program = .running := by
  unfold System.program
  cases hs : s.child with
  | exited status => rw [hs] at hc; cases hc
  | _ => rfl

lemma asSpawned_eq (h : u.program = s.program) :
    u.asSpawned = ⟨u.parent, s.program, u.stdin, u.stdout, u.output⟩ := by
  rw [System.asSpawned, h]

lemma exit_run (h : s.Ok instrument classData) (hc : s.child.alive = true) (status : ExitStatus) :
    ∃ t, Run Spawned.Step s.asSpawned t (s.exit status).asSpawned := by
  have hl := h.parent.listening hc
  have hp : (s.exit status).program = .zombie status := by
    unfold System.program
    change (if s.parent.hasOutput then _ else _) = _
    cases hq : s.parent with
    | returned => rw [hq] at hl; cases hl
    | _ => rfl
  have he : (s.exit status).asSpawned =
      ⟨s.parent, .zombie status, s.stdin.closeReader, s.stdout.closeWriter, s.output⟩ := by
    rw [System.asSpawned, hp]
    rfl
  have hr : Run Spawned.Step s.asSpawned [] s.asSpawned := .nil _
  have hr := hr.snoc (.closesStdin (h.pipes.stdinReader.trans hc))
  have hr := hr.snoc (.closesStdout (h.pipes.stdoutWriter.trans hc))
  have hr := hr.snoc (@Spawned.Step.exits _ status (program_alive hc))
  exact ⟨_, he ▸ hr⟩

lemma run_asSpawned {b : Spawned.Action} (hp : u.program = s.program)
    (h : s.asSpawned.Step b ⟨u.parent, s.program, u.stdin, u.stdout, u.output⟩) :
    ∃ t, Run Spawned.Step s.asSpawned t u.asSpawned :=
  ⟨[b], .single (asSpawned_eq hp ▸ h)⟩

/-- The command line tool is one of the programs. -/
lemma asSpawned_step (h : s.Ok instrument classData) (hs : Step instrument s a u) :
    ∃ t, Run Spawned.Step s.asSpawned t u.asSpawned := by
  have hrunning : s.child.alive = true → u.child.alive = true → u.program = s.program :=
    fun hc hc' => (program_alive hc').trans (program_alive hc).symm
  cases hs with
  | parentWrite hp hw =>
    exact run_asSpawned (program_eq rfl (by rw [hp]; rfl))
      (.write (s := s.asSpawned) hp hw)
  | parentWritten hp =>
    exact run_asSpawned (program_eq rfl (by rw [hp]; rfl))
      (.written (s := s.asSpawned) hp)
  | parentBrokenPipe hp hr =>
    exact run_asSpawned (program_eq rfl (by rw [hp]; rfl))
      (.brokenPipe (s := s.asSpawned) (by simp [System.asSpawned, hp, Parent.unwritten]) hr)
  | parentClose hp =>
    exact run_asSpawned (program_eq rfl (by rw [hp]; rfl))
      (.close (s := s.asSpawned) hp)
  | parentRead hp hr =>
    exact run_asSpawned (program_eq rfl rfl)
      (.read (s := s.asSpawned) hp hr)
  | parentEnd hp he =>
    exact run_asSpawned (program_eq rfl (by rw [hp]; rfl))
      (.readEnd (s := s.asSpawned) hp he)
  | @parentWait status hp hc =>
    have hz : s.program = .zombie status := by rw [System.program, hc, hp]; rfl
    have hu : System.asSpawned { s with parent := .returned (some ⟨status, s.output⟩) } =
        ⟨.returned (some ⟨status, s.output⟩), .reaped status, s.stdin, s.stdout, s.output⟩ := by
      rw [System.asSpawned, System.program, hc]
      rfl
    exact ⟨[.wait], .single (hu ▸ .wait (s := s.asSpawned) hp hz)⟩
  | childRead hc hr =>
    exact run_asSpawned rfl
      (.programReads (s := s.asSpawned) (h.pipes.stdinReader.trans (by rw [hc]; rfl)) hr)
  | childWrite hc hw =>
    exact run_asSpawned (hrunning (by rw [hc]; rfl) rfl)
      (.programWrites (s := s.asSpawned) (h.pipes.stdoutWriter.trans (by rw [hc]; rfl)) hw)
  | childEnd hc | childCheckOk hc | childInstrumentOk hc | childWriteLost hc =>
    have hu := asSpawned_eq (hrunning (by rw [hc]; rfl) rfl)
    exact ⟨[], hu ▸ .nil _⟩
  | childCheckFails hc | childInstrumentThrows hc | childExit hc =>
    exact exit_run h (by rw [hc]; rfl) _
  | childFail hc | childKill hc => exact exit_run h (alive_of_not_exited hc) _

lemma asSpawned_run {t : List Action} {capIn capOut : ℕ} (hIn : 0 < capIn) (hOut : 0 < capOut)
    (h : Run (Step instrument) (System.spawned classData capIn capOut) t s) :
    ∃ t', Run Spawned.Step (.fresh classData capIn capOut) t' s.asSpawned := by
  induction h with
  | nil => exact ⟨[], .nil _⟩
  | snoc hr hs ih =>
    obtain ⟨t₁, h₁⟩ := ih
    obtain ⟨t₂, h₂⟩ := asSpawned_step (ok_run hIn hOut hr) hs
    exact ⟨t₁ ++ t₂, h₁.trans h₂⟩

end Cli

end PhasicJ.InstrumenterProcess
