import PhasicJ.InstrumenterProcess.Invariant

/-! The result of an invocation of the instrumenter, against how the child ended. -/

namespace PhasicJ.InstrumenterProcess

open Transitions

def instrumentResult : Option Output → Option Bytes
  | none => none
  | some output => if output.status.success then some output.stdout else none

/-- An invocation: how the child ended, if it was spawned, and the result. -/
inductive Invocation (instrument : Bytes → Option Bytes) (classData : Bytes) :
    Option ExitStatus → Option Bytes → Prop
  | spawnFails : Invocation instrument classData none none
  | returns {capIn capOut : ℕ} {t : List Action} {s : System} {output : Option Output}
      {status : ExitStatus} :
      0 < capIn → 0 < capOut →
      Run (Step instrument) (System.spawned classData capIn capOut) t s →
      s.parent = .returned output → s.child = .exited status →
      Invocation instrument classData (some status) (instrumentResult output)

def EndedWell (status : Option ExitStatus) : Prop := ∃ s, status = some s ∧ s.success = true

lemma Invocation.result {instrument : Bytes → Option Bytes} {classData : Bytes}
    {status : Option ExitStatus} {r : Option Bytes} (h : Invocation instrument classData status r) :
    (EndedWell status → ∃ out, r = some out ∧ instrument classData = some out) ∧
      (¬ EndedWell status → r = none) := by
  cases h with
  | spawnFails =>
    refine ⟨?_, fun _ => rfl⟩
    rintro ⟨_, hs, -⟩
    cases hs
  | @returns _ _ _ s output status hIn hOut hrun hp hc =>
    have hok : s.Ok instrument classData := ok_run hIn hOut hrun
    have hparent := hok.parent
    have hchild := hok.child
    rw [System.ParentOk, hp] at hparent
    rw [System.ChildOk, hc] at hchild
    cases output with
    | none =>
      obtain ⟨-, status', hc', hs⟩ := hparent
      obtain rfl : status' = status := by simpa [hc] using hc'.symm
      refine ⟨?_, fun _ => rfl⟩
      rintro ⟨s', he, hs'⟩
      obtain rfl := Option.some.inj he
      rw [hs] at hs'
      cases hs'
    | some o =>
      obtain ⟨-, hempty, hc', hout⟩ := hparent
      obtain rfl : o.status = status := by simpa [hc] using hc'.symm
      constructor
      · rintro ⟨s', he, hs⟩
        obtain rfl := Option.some.inj he
        refine ⟨o.stdout, by rw [instrumentResult, if_pos hs], ?_⟩
        rw [(hchild hs).2.2, System.produced, hempty, List.append_nil, hout]
      · intro hn
        have hs : ¬ o.status.success = true := fun hs => hn ⟨_, rfl, hs⟩
        rw [instrumentResult, if_neg hs]

lemma Invocation.completes {instrument : Bytes → Option Bytes} {classData out : Bytes}
    (hm : Cli.appearsToBeClassData classData) (hi : instrument classData = some out)
    (hd : classData ≠ []) (ho : out ≠ []) :
    Invocation instrument classData (some (.exited 0)) (some out) := by
  have h : Run (Step instrument) (System.spawned classData classData.length out.length) [] _ :=
    .nil _
  have h := h.snoc (.parentWrite
    (show _ = Parent.writing (classData ++ []) by rw [List.append_nil]; rfl)
    (show Pipes.Pipe.Writes _ classData ⟨_, classData, true, true, le_rfl⟩ from
      ⟨hd, rfl, rfl, rfl, rfl, rfl⟩))
  have h := h.snoc (.parentWritten rfl)
  have h := h.snoc (.parentClose rfl)
  have h := h.snoc (.childRead rfl
    (show Pipes.Pipe.Reads _ classData ⟨classData.length, [], false, true, Nat.zero_le _⟩ from
      ⟨hd, (List.append_nil classData).symm, rfl, rfl, rfl⟩))
  have h := h.snoc (.childEnd rfl ⟨rfl, rfl⟩)
  have h := h.snoc (.childCheckOk rfl hm)
  have h := h.snoc (.childInstrumentOk rfl hi)
  have h := h.snoc (.childWrite (show _ = Child.writing (out ++ []) by rw [List.append_nil])
    (show Pipes.Pipe.Writes _ out ⟨_, out, true, true, le_rfl⟩ from
      ⟨ho, rfl, rfl, rfl, rfl, rfl⟩))
  have h := h.snoc (.childExit rfl)
  have h := h.snoc (.parentRead rfl
    (show Pipes.Pipe.Reads _ out ⟨out.length, [], false, true, Nat.zero_le _⟩ from
      ⟨ho, (List.append_nil out).symm, rfl, rfl, rfl⟩))
  have h := h.snoc (.parentEnd rfl ⟨rfl, rfl⟩)
  have h := h.snoc (.parentWait rfl rfl)
  exact .returns (List.length_pos_of_ne_nil hd) (List.length_pos_of_ne_nil ho) h rfl rfl

end PhasicJ.InstrumenterProcess
