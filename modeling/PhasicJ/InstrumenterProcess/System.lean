import PhasicJ.Pipes.Pipe
import PhasicJ.Transitions.LabelledRuns

/-! One invocation of `phasicj agent instrument-class`: the agent writes a class to the standard
input of the child and reads its standard output. -/

namespace PhasicJ.InstrumenterProcess

open Pipes Transitions

abbrev Bytes := List UInt8

namespace Cli

def MAGIC_NUMBER : Bytes := [0xCA, 0xFE, 0xBA, 0xBE]

def hasMagicNumber (data : Bytes) : Bool :=
  !decide (data.length < MAGIC_NUMBER.length) &&
    (List.range MAGIC_NUMBER.length).all fun idx => data[idx]? == MAGIC_NUMBER[idx]?

def appearsToBeClassData (data : Bytes) : Bool := hasMagicNumber data

end Cli

inductive ExitStatus where
  | exited (code : ℕ)
  | killed
  deriving DecidableEq

def ExitStatus.success (s : ExitStatus) : Bool := s = .exited 0

structure Output where
  status : ExitStatus
  stdout : Bytes
  deriving DecidableEq

/-- Where the agent is in `invoke_phasicj_agent_instrument_class`, after the child was spawned. An
I/O error is a result without an output. -/
inductive Parent where
  | writing (todo : Bytes)
  | closing
  | reading
  | waiting
  | returned (result : Option Output)
  deriving DecidableEq

/-- Where the child is in the CLI's `main`. -/
inductive Child where
  | reading
  | checking
  | instrumenting
  | writing (todo : Bytes)
  | exited (status : ExitStatus)
  deriving DecidableEq

structure System where
  parent : Parent
  child : Child
  stdin : Pipe UInt8
  stdout : Pipe UInt8
  received : Bytes
  output : Bytes

def System.spawned (classData : Bytes) (capIn capOut : ℕ) : System where
  parent := .writing classData
  child := .reading
  stdin := .fresh UInt8 capIn
  stdout := .fresh UInt8 capOut
  received := []
  output := []

inductive Action where
  | parentWrite | parentWritten | parentBrokenPipe | parentClose | parentRead | parentEnd
  | parentWait
  | childRead | childEnd | childCheck | childInstrument | childWrite | childWriteLost | childExit
  | childFail | childKill
  deriving DecidableEq

/-- The actions that no failure and no signal is needed for. -/
def Action.isNormal : Action → Bool
  | childFail | childKill => false
  | _ => true

def System.exit (s : System) (status : ExitStatus) : System :=
  { s with
    child := .exited status
    stdin := s.stdin.closeReader
    stdout := s.stdout.closeWriter }

/-- The steps of the agent and of the child, for an instrumentation that may throw. -/
inductive Step (instrument : Bytes → Option Bytes) : System → Action → System → Prop
  | parentWrite {s : System} {chunk todo : Bytes} {p : Pipe UInt8} :
      s.parent = .writing (chunk ++ todo) → s.stdin.Writes chunk p →
      Step instrument s .parentWrite { s with parent := .writing todo, stdin := p }
  | parentWritten {s : System} :
      s.parent = .writing [] → Step instrument s .parentWritten { s with parent := .closing }
  -- the error drops the child, which closes the agent's ends of both pipes
  | parentBrokenPipe {s : System} {b : UInt8} {todo : Bytes} :
      s.parent = .writing (b :: todo) → s.stdin.readerOpen = false →
      Step instrument s .parentBrokenPipe
        { s with
          parent := .returned none
          stdin := s.stdin.closeWriter
          stdout := s.stdout.closeReader }
  | parentClose {s : System} :
      s.parent = .closing →
      Step instrument s .parentClose
        { s with parent := .reading, stdin := s.stdin.closeWriter }
  | parentRead {s : System} {chunk : Bytes} {p : Pipe UInt8} :
      s.parent = .reading → s.stdout.Reads chunk p →
      Step instrument s .parentRead { s with stdout := p, output := s.output ++ chunk }
  | parentEnd {s : System} :
      s.parent = .reading → s.stdout.AtEnd →
      Step instrument s .parentEnd
        { s with parent := .waiting, stdout := s.stdout.closeReader }
  | parentWait {s : System} {status : ExitStatus} :
      s.parent = .waiting → s.child = .exited status →
      Step instrument s .parentWait { s with parent := .returned (some ⟨status, s.output⟩) }
  | childRead {s : System} {chunk : Bytes} {p : Pipe UInt8} :
      s.child = .reading → s.stdin.Reads chunk p →
      Step instrument s .childRead { s with stdin := p, received := s.received ++ chunk }
  | childEnd {s : System} :
      s.child = .reading → s.stdin.AtEnd →
      Step instrument s .childEnd { s with child := .checking }
  | childCheckOk {s : System} :
      s.child = .checking → Cli.appearsToBeClassData s.received →
      Step instrument s .childCheck { s with child := .instrumenting }
  -- `System.exit(-1)`
  | childCheckFails {s : System} :
      s.child = .checking → Cli.appearsToBeClassData s.received = false →
      Step instrument s .childCheck (s.exit (.exited 255))
  | childInstrumentOk {s : System} {out : Bytes} :
      s.child = .instrumenting → instrument s.received = some out →
      Step instrument s .childInstrument { s with child := .writing out }
  -- an exception ends the command with the exit code for software errors
  | childInstrumentThrows {s : System} :
      s.child = .instrumenting → instrument s.received = none →
      Step instrument s .childInstrument (s.exit (.exited 1))
  | childWrite {s : System} {chunk todo : Bytes} {p : Pipe UInt8} :
      s.child = .writing (chunk ++ todo) → s.stdout.Writes chunk p →
      Step instrument s .childWrite { s with child := .writing todo, stdout := p }
  -- a `PrintStream` keeps its errors to itself
  | childWriteLost {s : System} {b : UInt8} {todo : Bytes} :
      s.child = .writing (b :: todo) → s.stdout.readerOpen = false →
      Step instrument s .childWriteLost { s with child := .writing [] }
  | childExit {s : System} :
      s.child = .writing [] → Step instrument s .childExit (s.exit (.exited 0))
  | childFail {s : System} {code : ℕ} :
      (∀ status, s.child ≠ .exited status) → code ≠ 0 →
      Step instrument s .childFail (s.exit (.exited code))
  | childKill {s : System} :
      (∀ status, s.child ≠ .exited status) → Step instrument s .childKill (s.exit .killed)

end PhasicJ.InstrumenterProcess
