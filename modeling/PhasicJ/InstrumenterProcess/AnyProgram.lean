import PhasicJ.InstrumenterProcess.Children

/-! What `instrument` returns for any program that `phasicj_exec` may name. -/

namespace PhasicJ.InstrumenterProcess

open Pipes Transitions

/-- A call with the bytes that the program has read and written so far. -/
structure Watched where
  call : Spawned
  consumed : Bytes
  produced : Bytes

namespace Watched

def fresh (classData : Bytes) (capIn capOut : ℕ) : Watched :=
  ⟨.fresh classData capIn capOut, [], []⟩

inductive Step : Watched → Spawned.Action → Watched → Prop
  | reads {w : Watched} {chunk : Bytes} {p : Pipe UInt8} :
      w.call.stdin.readerOpen → w.call.stdin.Reads chunk p →
      Step w .programReads
        { w with call := { w.call with stdin := p }, consumed := w.consumed ++ chunk }
  | writes {w : Watched} {chunk : Bytes} {p : Pipe UInt8} :
      w.call.stdout.writerOpen → w.call.stdout.Writes chunk p →
      Step w .programWrites
        { w with call := { w.call with stdout := p }, produced := w.produced ++ chunk }
  | other {w : Watched} {a : Spawned.Action} {s : Spawned} :
      a ≠ .programReads → a ≠ .programWrites → w.call.Step a s → Step w a { w with call := s }

section Watching

variable {w v : Watched} {s u : Spawned} {a : Spawned.Action} {t : List Spawned.Action}

lemma Step.call (h : Step w a v) : w.call.Step a v.call := by
  cases h with
  | reads hr hp => exact .programReads hr hp
  | writes hw hp => exact .programWrites hw hp
  | other _ _ hs => exact hs

lemma watched_step (h : w.call.Step a s) : ∃ v, Step w a v ∧ v.call = s := by
  cases h with
  | programReads hr hp => exact ⟨_, .reads hr hp, rfl⟩
  | programWrites hw hp => exact ⟨_, .writes hw hp, rfl⟩
  | _ => exact ⟨_, .other nofun nofun (by constructor <;> assumption), rfl⟩

/-- Every run of a call can be watched. -/
lemma watched_run (h : Run Spawned.Step s t u) (hw : w.call = s) :
    ∃ v, Run Step w t v ∧ v.call = u := by
  induction h with
  | nil => exact ⟨w, .nil w, hw⟩
  | snoc _ hs ih =>
    obtain ⟨v, hr, rfl⟩ := ih
    obtain ⟨v', hs', hv'⟩ := watched_step hs
    exact ⟨v', hr.snoc hs', hv'⟩

end Watching

/-- The rest of the class data is lost when the program has closed its standard input. -/
structure Ok (classData : Bytes) (w : Watched) : Prop where
  input : ∃ rest, classData = w.consumed ++ w.call.stdin.content ++ rest ∧
    ((w.call.parent ≠ .returned none ∧ rest = w.call.parent.unwritten) ∨
      (w.call.parent = .returned none ∧ rest ≠ [] ∧ w.call.stdin.readerOpen = false))
  output : w.produced = w.call.output ++ w.call.stdout.content
  unread : w.call.output ≠ [] → w.call.parent.unwritten = [] ∧ w.call.parent ≠ .returned none
  ended : w.call.parent = .waiting ∨ (∃ o, w.call.parent = .returned (some o)) →
    w.call.stdout.AtEnd
  result : ∀ o, w.call.parent = .returned (some o) →
    o.stdout = w.call.output ∧ w.call.program = .reaped o.status
  fed : w.call.stdin.writerOpen = false →
    w.call.parent = .reading ∨ w.call.parent = .waiting ∨ ∃ o, w.call.parent = .returned o

section Invariant

variable {classData : Bytes} {capIn capOut : ℕ} {w v : Watched} {a : Spawned.Action}
  {t : List Spawned.Action}

lemma capacity_step (h : Step w a v) : v.call.stdin.capacity = w.call.stdin.capacity ∧
    v.call.stdout.capacity = w.call.stdout.capacity := by
  cases h with
  | reads _ hp => exact ⟨hp.capacity, rfl⟩
  | writes _ hp => exact ⟨rfl, hp.capacity⟩
  | other hr hw hs =>
    cases hs with
    | write _ hp => exact ⟨hp.capacity, rfl⟩
    | read _ hp => exact ⟨rfl, hp.capacity⟩
    | programReads => exact absurd rfl hr
    | programWrites => exact absurd rfl hw
    | _ => exact ⟨rfl, rfl⟩

lemma capacity_run (h : Run Step (.fresh classData capIn capOut) t w) :
    w.call.stdin.capacity = capIn ∧ w.call.stdout.capacity = capOut := by
  refine h.invariant (fun w => w.call.stdin.capacity = capIn ∧ w.call.stdout.capacity = capOut)
    (fun _ _ _ hu hs => ?_) ⟨rfl, rfl⟩
  rw [(capacity_step hs).1, (capacity_step hs).2]
  exact hu

lemma Ok.step (h : w.Ok classData) (hs : Step w a v) : v.Ok classData := by
  obtain ⟨rest, hin, hrest⟩ := h.input
  have hwriting : ∀ todo, Parent.writing todo ≠ .returned none := by rintro _ ⟨⟩
  have hclosing : Parent.closing ≠ .returned none := by rintro ⟨⟩
  have hreading : Parent.reading ≠ .returned none := by rintro ⟨⟩
  have hwaiting : Parent.waiting ≠ .returned none := by rintro ⟨⟩
  cases hs with
  | @reads chunk p hr hp =>
    refine ⟨⟨rest, ?_, ?_⟩, h.output, h.unread, h.ended, h.result, hp.writerOpen ▸ h.fed⟩
    · rw [hin, hp.content]
      simp only [List.append_assoc]
    · refine hrest.imp_right fun ⟨hn, hne, hro⟩ => ?_
      rw [hr] at hro
      cases hro
  | @writes chunk p hw hp =>
    refine ⟨⟨rest, hin, hrest⟩, ?_, h.unread, fun he => ?_, h.result, h.fed⟩
    · change w.produced ++ chunk = w.call.output ++ p.content
      rw [h.output, hp.content, List.append_assoc]
    · have := (h.ended he).2
      rw [hw] at this
      cases this
  | other hr hw hs =>
    cases hs with
    | @write chunk todo p hp hq =>
      have hout : w.call.output = [] := by
        by_contra hne
        have hun := (h.unread hne).1
        rw [hp] at hun
        exact hq.some (List.append_eq_nil_iff.mp hun).1
      rw [hp] at hrest
      have hrest := (hrest.resolve_right fun he => hwriting _ he.1).2
      refine ⟨⟨todo, ?_, .inl ⟨hwriting todo, rfl⟩⟩, h.output, fun hne => absurd hout hne, ?_, ?_,
        fun hf => ?_⟩
      · rw [hin, hrest, hq.content]
        simp [Parent.unwritten]
      · rintro (he | ⟨_, he⟩) <;> cases he
      · rintro _ ⟨⟩
      · rcases h.fed (hq.writerOpen.symm.trans hf) with he | he | ⟨_, he⟩ <;>
          cases hp.symm.trans he
    | written hp =>
      rw [hp] at hrest
      have hrest := (hrest.resolve_right fun he => hwriting _ he.1).2
      refine ⟨⟨rest, hin, .inl ⟨hclosing, hrest⟩⟩, h.output, fun _ => ⟨rfl, hclosing⟩, ?_, ?_,
        fun hf => ?_⟩
      · rintro (he | ⟨_, he⟩) <;> cases he
      · rintro _ ⟨⟩
      · rcases h.fed hf with he | he | ⟨_, he⟩ <;> cases hp.symm.trans he
    | brokenPipe hp hro =>
      have hrest := (hrest.resolve_right fun hn => hp (by rw [hn.1]; rfl)).2
      refine ⟨⟨rest, hin, .inr ⟨rfl, hrest ▸ hp, hro⟩⟩, h.output, fun hne => ?_, ?_, ?_,
        fun _ => .inr (.inr ⟨_, rfl⟩)⟩
      · exact absurd (h.unread hne).1 hp
      · rintro (he | ⟨_, he⟩) <;> cases he
      · rintro _ ⟨⟩
    | close hp =>
      rw [hp] at hrest
      have hrest := (hrest.resolve_right fun he => hclosing he.1).2
      refine ⟨⟨rest, hin, .inl ⟨hreading, hrest⟩⟩, h.output, fun _ => ⟨rfl, hreading⟩, ?_, ?_,
        fun _ => .inl rfl⟩
      · rintro (he | ⟨_, he⟩) <;> cases he
      · rintro _ ⟨⟩
    | @read chunk p hp hq =>
      rw [hp] at hrest
      have hrest := (hrest.resolve_right fun he => hreading he.1).2
      refine ⟨⟨rest, hin, .inl ?_⟩, ?_, fun _ => ?_, ?_, ?_, fun _ => .inl hp⟩
      · rw [hp]
        exact ⟨hreading, hrest⟩
      · change w.produced = (w.call.output ++ chunk) ++ p.content
        rw [h.output, hq.content, List.append_assoc]
      · rw [hp]
        exact ⟨rfl, hreading⟩
      · rw [hp]
        rintro (he | ⟨_, he⟩) <;> cases he
      · rw [hp]
        rintro _ ⟨⟩
    | readEnd hp he =>
      rw [hp] at hrest
      have hrest := (hrest.resolve_right fun he => hreading he.1).2
      refine ⟨⟨rest, hin, .inl ⟨hwaiting, hrest⟩⟩, h.output, fun _ => ⟨rfl, hwaiting⟩, fun _ => he,
        ?_, fun _ => .inr (.inl rfl)⟩
      rintro _ ⟨⟩
    | @wait status hp hz =>
      rw [hp] at hrest
      have hrest := (hrest.resolve_right fun he => hwaiting he.1).2
      have hreturned : ∀ o, Parent.returned (some o) ≠ .returned none := by rintro _ ⟨⟩
      refine ⟨⟨rest, hin, .inl ⟨hreturned _, hrest⟩⟩, h.output, fun _ => ⟨rfl, hreturned _⟩,
        fun _ => h.ended (.inl hp), fun o ho => ?_, fun _ => .inr (.inr ⟨_, rfl⟩)⟩
      obtain rfl := Option.some.inj (Parent.returned.inj ho)
      exact ⟨rfl, rfl⟩
    | programReads => exact absurd rfl hr
    | programWrites => exact absurd rfl hw
    | closesStdin =>
      exact ⟨⟨rest, hin, hrest.imp_right fun hn => ⟨hn.1, hn.2.1, rfl⟩⟩, h.output, h.unread,
        h.ended, h.result, h.fed⟩
    | closesStdout =>
      exact ⟨⟨rest, hin, hrest⟩, h.output, h.unread, fun he => ⟨(h.ended he).1, rfl⟩, h.result,
        h.fed⟩
    | exits hp =>
      refine ⟨⟨rest, hin, hrest⟩, h.output, h.unread, h.ended, fun o ho => ?_, h.fed⟩
      have := (h.result o ho).2
      rw [hp] at this
      cases this

lemma ok_run (h : Run Step (.fresh classData capIn capOut) t w) : w.Ok classData := by
  refine h.invariant (fun w => w.Ok classData) (fun _ _ _ hu hs => hu.step hs) ?_
  refine ⟨⟨classData, by simp [fresh, Spawned.fresh, Pipe.fresh], .inl ⟨nofun, rfl⟩⟩, rfl, ?_, ?_,
    nofun, nofun⟩
  · exact fun hne => absurd rfl hne
  · rintro (he | ⟨_, he⟩) <;> cases he

lemma length_consumed (h : w.Ok classData) (hcap : w.call.stdin.capacity = capIn)
    (hu : w.call.parent.unwritten = []) (hn : w.call.parent ≠ .returned none) :
    classData.length ≤ w.consumed.length + capIn := by
  obtain ⟨rest, hin, hrest⟩ := h.input
  have hempty : rest = [] := (hrest.resolve_right fun he => hn he.1).2.trans hu
  have hfits := w.call.stdin.fits
  rw [hin, hempty, List.length_append, List.length_append, List.length_nil]
  omega

end Invariant

section Results

variable {classData : Bytes} {capIn capOut : ℕ} {w : Watched} {t : List Spawned.Action}

/-- The program reads the class data, as far as it reads, and `instrument` returns what it has
written if it exits with 0 after everything was written to it. While the agent writes, it reads
nothing, so a program that has written as much as its standard output takes has to read on; one that
has met the end of its input can write everything. -/
theorem any_program_instruments (h : Run Step (.fresh classData capIn capOut) t w) :
    w.consumed <+: classData ∧
    (∀ v, (Instrumentation.spawned w.call).Returned (some v) → v = w.produced ∧
      w.call.program = .reaped (.exited 0) ∧ w.call.stdout.writerOpen = false ∧
      classData = w.consumed ++ w.call.stdin.content) ∧
    ((Instrumentation.spawned w.call).Returned none →
      (∃ rest, rest ≠ [] ∧ classData = w.consumed ++ w.call.stdin.content ++ rest ∧
        w.call.stdin.readerOpen = false) ∨
      ∃ status, w.call.program = .reaped status ∧ status ≠ .exited 0) ∧
    (capOut < w.produced.length → classData.length ≤ w.consumed.length + capIn) ∧
    (w.call.stdin.AtEnd → w.call.stdout.writerOpen = true →
      w.call.parent = .reading ∨ w.call.parent = .returned none) := by
  have hok := ok_run h
  obtain ⟨hcapIn, hcapOut⟩ := capacity_run h
  obtain ⟨rest, hin, hrest⟩ := hok.input
  refine ⟨⟨w.call.stdin.content ++ rest, by rw [hin, List.append_assoc]⟩, ?_, ?_, ?_, ?_⟩
  · rintro v ⟨output, hp, hv⟩
    cases output with
    | none => cases hv
    | some o =>
      obtain ⟨hout, hprog⟩ := hok.result o hp
      obtain ⟨hempty, hclosed⟩ := hok.ended (.inr ⟨o, hp⟩)
      rw [hp] at hrest
      rw [instrumentResult] at hv
      split at hv
      · next hsuccess =>
        obtain rfl := Option.some.inj hv
        refine ⟨?_, hprog.trans (congrArg _ (of_decide_eq_true hsuccess)), hclosed, ?_⟩
        · rw [hout, hok.output, hempty, List.append_nil]
        · have hnil : rest = [] := (hrest.resolve_right (by rintro ⟨⟨⟩, -⟩)).2
          rw [hin, hnil, List.append_nil]
      · cases hv
  · rintro ⟨output, hp, hv⟩
    cases output with
    | none =>
      obtain ⟨-, hne, hro⟩ := hrest.resolve_left fun hr => hr.1 hp
      exact .inl ⟨rest, hne, hin, hro⟩
    | some o =>
      rw [instrumentResult] at hv
      split at hv
      · cases hv
      · next hsuccess =>
        refine .inr ⟨o.status, (hok.result o hp).2, fun he => hsuccess ?_⟩
        rw [he]
        rfl
  · intro hlt
    have hfits := w.call.stdout.fits
    have hread : w.call.output ≠ [] := by
      intro hn
      rw [hok.output, hn, List.nil_append] at hlt
      omega
    exact length_consumed hok hcapIn (hok.unread hread).1 (hok.unread hread).2
  · intro hend hwo
    rcases hok.fed hend.2 with hp | hp | ⟨output, hp⟩
    · exact .inl hp
    · have hclosed := (hok.ended (.inl hp)).2
      rw [hwo] at hclosed
      cases hclosed
    · cases output with
      | none => exact .inr hp
      | some o =>
        have hclosed := (hok.ended (.inr ⟨o, hp⟩)).2
        rw [hwo] at hclosed
        cases hclosed

end Results

section Example

def onePipe : Pipe UInt8 := { Pipe.fresh UInt8 1 with content := [0xCA], fits := Nat.le_refl 1 }

/-- The program gives the class back as it is. -/
lemma copying_run : ∃ w, Run Step (.fresh [0xCA] 1 1) [.write, .written, .close, .programReads,
    .programWrites, .read, .closesStdout, .exits, .readEnd, .wait] w ∧
    w.call.parent = .returned (some ⟨.exited 0, [0xCA]⟩) := by
  have h : Run Step (.fresh [0xCA] 1 1) [] _ := .nil _
  have h := h.snoc (.other (by decide) (by decide) (.write
    (show _ = Parent.writing ([0xCA] ++ []) from rfl)
    (show Pipe.Writes _ [0xCA] onePipe from ⟨nofun, rfl, rfl, rfl, rfl, rfl⟩)))
  have h := h.snoc (.other (by decide) (by decide) (.written rfl))
  have h := h.snoc (.other (by decide) (by decide) (.close rfl))
  have h := h.snoc (.reads rfl (show Pipe.Reads _ [0xCA] (Pipe.fresh UInt8 1).closeWriter from
    ⟨nofun, rfl, rfl, rfl, rfl⟩))
  have h := h.snoc (.writes rfl (show Pipe.Writes _ [0xCA] onePipe from
    ⟨nofun, rfl, rfl, rfl, rfl, rfl⟩))
  have h := h.snoc (.other (by decide) (by decide) (.read rfl
    (show Pipe.Reads _ [0xCA] (.fresh UInt8 1) from ⟨nofun, rfl, rfl, rfl, rfl⟩)))
  have h := h.snoc (.other (by decide) (by decide) (.closesStdout rfl))
  have h := h.snoc (.other (by decide) (by decide) (@Spawned.Step.exits _ (.exited 0) rfl))
  have h := h.snoc (.other (by decide) (by decide) (.readEnd rfl ⟨rfl, rfl⟩))
  have h := h.snoc (.other (by decide) (by decide) (.wait rfl rfl))
  exact ⟨_, h, rfl⟩

theorem any_program_instruments_copying : ∃ t w, Run Step (.fresh [0xCA] 1 1) t w ∧
    w.produced = [0xCA] ∧ w.call.program = .reaped (.exited 0) := by
  obtain ⟨w, hr, hp⟩ := copying_run
  obtain ⟨hv, hprog, -⟩ := (any_program_instruments hr).2.1 [0xCA] ⟨_, hp, rfl⟩
  exact ⟨_, w, hr, hv.symm, hprog⟩

end Example

end Watched

end PhasicJ.InstrumenterProcess
