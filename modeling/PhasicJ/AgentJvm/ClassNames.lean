import PhasicJ.AgentJvm.EntryPoints
import PhasicJ.AgentJvm.HookReturns
import PhasicJ.Text.ModifiedUtf8

/-! Which names and options in modified UTF-8 the agent reads, and as which strings. -/

namespace PhasicJ.AgentJvm

open AgentConf InstrumenterProcess Panics Text

lemma asBytes_eq (s : String) : asBytes s = encodeStandard s := by
  have h : s.toUTF8 = (s.toList.flatMap String.utf8EncodeChar).toByteArray :=
    String.utf8Encode_toList.symm
  rw [asBytes, h, encodeStandard]
  simp

lemma fromUtf8_eq_some {content : Bytes} {s : String} :
    fromUtf8 content = some s ↔ content = encodeStandard s := by
  rw [← asBytes_eq]
  constructor
  · intro h
    rw [fromUtf8, String.fromUTF8?] at h
    split at h
    · obtain rfl := Option.some.inj h
      rfl
    · cases h
  · rintro rfl
    exact fromUtf8_asBytes s

lemma fromUtf8_modified (units : List UInt16) : fromUtf8 (encodeModified units) =
    if units.all isStandard then some (String.ofList (units.map toChar)) else none := by
  split
  · next h => exact fromUtf8_eq_some.mpr ((encodeModified_eq_encodeStandard units _).mpr ⟨h, rfl⟩)
  · next h =>
    cases hs : fromUtf8 (encodeModified units) with
    | none => rfl
    | some s =>
      exact absurd ((encodeModified_eq_encodeStandard units s).mp (fromUtf8_eq_some.mp hs)).1 h

section Names

variable {args : HookArgs} {env : JvmtiEnv} {storage ptr : Addr} {conf : PjAgentConf} {cls : Bytes}
  {units : List UInt16}

/-- The hook reads the name of a class as it is, unless it has U+0000 or a surrogate, as characters
outside of the basic plane have in modified UTF-8: such a name takes the virtual machine down. -/
theorem java_names_read (A : Allocator) (answers : HookAnswers) (hs : Stores env storage ptr conf)
    (hargs : args.Passed env cls) (hname : args.name = some (encodeModified units)) :
    (units.all isStandard = false →
      (pjClassFileLoadHook A answers args).run env = .panicked unwrapNone env) ∧
    (units.all isStandard = true → ∃ name, utf16 name = units ∧
      (toStr args.name).run env = .returned name env ∧
      ((∃ u, (pjClassFileLoadHook A answers args).run env = .returned () u) ↔
        HookSucceeds A answers env conf name cls)) := by
  have hread := fromUtf8_modified units
  have hrun : (pjClassFileLoadHook A answers args).run env =
      (hookWithConf A answers args conf).run env := by
    rw [pjClassFileLoadHook, Action.bind_returned (of_stores hs)]
  constructor
  · intro h
    rw [if_neg (by simp [h])] at hread
    rw [hrun]
    simp [hookWithConf, hname, toStr, hread, Action.run_bind]
  · intro h
    rw [if_pos h] at hread
    refine ⟨_, utf16_toChar h, by rw [hname, toStr, hread]; rfl, ?_⟩
    rw [hrun, hookWithConf_returns hargs, hname, Option.bind_some, hread]
    simp

/-- The same holds of the options of the agent: `Agent_OnLoad` goes on with what is parsed from them
as they are, unless they have U+0000 or a surrogate, with which it fails before it parses them. -/
theorem java_options_read (answers : Answers) {p : AgentProcess} (hl : p.loggerSet = false) :
    (units.all isStandard = false →
      (agentOnLoad answers (some (encodeModified units))).run p =
        .panicked "Failed parsing the PhasicJ agent options as valid UTF-8."
          { p with loggerSet := true }) ∧
    (units.all isStandard = true → ∃ options, utf16 options = units ∧
      (∀ message, PjAgentConf.newFromAgentOptionsListStr options = .error message →
        (agentOnLoad answers (some (encodeModified units))).run p =
          .panicked message { p with loggerSet := true }) ∧
      ∀ conf, PjAgentConf.newFromAgentOptionsListStr options = .ok conf →
        (agentOnLoad answers (some (encodeModified units))).run p =
          (do
            Action.require (!conf.verbose || answers.currentDir) unwrapErr
            Setup.setupAgent answers conf
            pure 0 : Setup ℤ).run { p with loggerSet := true }) := by
  have hread := fromUtf8_modified units
  have hinit : Setup.envLoggerInit.run p = .returned () { p with loggerSet := true } := by
    simp [Setup.envLoggerInit, hl]
  constructor
  · intro h
    rw [if_neg (by simp [h])] at hread
    simp [agentOnLoad, Setup.onLoad, hread, Action.run_bind, hinit]
  · intro h
    rw [if_pos h] at hread
    refine ⟨_, utf16_toChar h, fun message hparse => ?_, fun conf hparse => ?_⟩
    · simp only [agentOnLoad, Setup.onLoad, hread, hparse, Action.run_bind, hinit, Action.run_panic]
    · simp only [agentOnLoad, Setup.onLoad, hread, hparse, Action.run_bind, hinit]
      cases (Action.require (!conf.verbose || answers.currentDir) unwrapErr : Setup Unit).run
        { p with loggerSet := true } <;> rfl

end Names

section Example

theorem java_names_read_face :
    (pjClassFileLoadHook oneBlock smallAnswers
      { smallArgs with name := some (encodeModified [0xD83D, 0xDE00]) }).run smallEnv =
        .panicked unwrapNone smallEnv ∧
    ∃ name, utf16 name = [0x4E, 0xE9] ∧
      (toStr (some (encodeModified [0x4E, 0xE9]))).run smallEnv = .returned name smallEnv := by
  refine ⟨(java_names_read oneBlock smallAnswers smallEnv_stores (smallArgs_passed _) rfl).1
    (by decide), ?_⟩
  obtain ⟨name, hu, hr, -⟩ := (java_names_read oneBlock smallAnswers smallEnv_stores
    (smallArgs_passed (some (encodeModified [0x4E, 0xE9]))) rfl).2 (by decide)
  exact ⟨name, hu, hr⟩

theorem java_options_read_nul :
    (agentOnLoad allSucceed (some (encodeModified [0x76, 0]))).run .initial =
      .panicked "Failed parsing the PhasicJ agent options as valid UTF-8."
        { AgentProcess.initial with loggerSet := true } ∧
    ∃ options, utf16 options = [0x76] ∧
      ∀ message, PjAgentConf.newFromAgentOptionsListStr options = .error message →
        (agentOnLoad allSucceed (some (encodeModified [0x76]))).run .initial =
          .panicked message { AgentProcess.initial with loggerSet := true } := by
  refine ⟨(java_options_read allSucceed rfl).1 (by decide), ?_⟩
  have hv : ([0x76] : List UInt16).all isStandard = true := by decide
  have hl : AgentProcess.initial.loggerSet = false := rfl
  obtain ⟨options, hunits, herror, -⟩ := (java_options_read allSucceed hl).2 hv
  exact ⟨options, hunits, herror⟩

end Example

end PhasicJ.AgentJvm
