import PhasicJ.Files.WriteAt
import PhasicJ.Transitions.LabelledRuns

/-! Calls that write an embedded file if it is missing, by any number of processes on one path. -/

namespace PhasicJ.Embed

open Files Transitions

abbrev Bytes := List UInt8

inductive Pc where
  | checking | missing | dirMade | writing | returning
  | returned (ok : Bool)
  | dead
  deriving DecidableEq

structure State where
  parentExists : Bool
  file : Option Bytes
  call : ℕ → Pc
  offset : ℕ → ℕ

structure State.Initial (content : Bytes) (s : State) : Prop where
  file : s.file = none ∨ s.file = some content
  call : ∀ k, s.call k = .checking
  offset : ∀ k, s.offset k = 0

def State.put (s : State) (k : ℕ) (pc : Pc) : State :=
  { s with call := Function.update s.call k pc }

inductive Action where
  | check (k : ℕ) | createDirAll (k : ℕ) | create (k : ℕ) | write (k n : ℕ) | sync (k : ℕ)
  | ret (k : ℕ) | fail (k : ℕ) | die (k : ℕ)
  deriving DecidableEq

inductive WriteFileIfMissing (content : Bytes) : State → Action → State → Prop
  | found {s : State} {k : ℕ} :
      s.call k = .checking → s.file.isSome →
      WriteFileIfMissing content s (.check k) (s.put k .returning)
  -- `exists` is also false for a file that cannot be accessed
  | notFound {s : State} {k : ℕ} :
      s.call k = .checking → WriteFileIfMissing content s (.check k) (s.put k .missing)
  | createDirAll {s : State} {k : ℕ} :
      s.call k = .missing →
      WriteFileIfMissing content s (.createDirAll k) { s.put k .dirMade with parentExists := true }
  | create {s : State} {k : ℕ} :
      s.call k = .dirMade → s.parentExists = true →
      WriteFileIfMissing content s (.create k)
        { s.put k .writing with
          file := some []
          offset := Function.update s.offset k 0 }
  | write {s : State} {k n : ℕ} {b : Bytes} :
      s.call k = .writing → 0 < n → s.offset k + n ≤ content.length → s.file = some b →
      WriteFileIfMissing content s (.write k n)
        { s with
          file := some (writeAt 0 b (s.offset k) (part content (s.offset k) n))
          offset := Function.update s.offset k (s.offset k + n) }
  | sync {s : State} {k : ℕ} :
      s.call k = .writing → s.offset k = content.length →
      WriteFileIfMissing content s (.sync k) (s.put k .returning)
  | ret {s : State} {k : ℕ} :
      s.call k = .returning →
      WriteFileIfMissing content s (.ret k) (s.put k (.returned true))
  | fail {s : State} {k : ℕ} :
      s.call k = .missing ∨ s.call k = .dirMade ∨ s.call k = .writing →
      WriteFileIfMissing content s (.fail k) (s.put k (.returned false))
  | die {s : State} {k : ℕ} :
      (∀ ok, s.call k ≠ .returned ok) → WriteFileIfMissing content s (.die k) (s.put k .dead)

structure Embedded where
  rtJar : Bytes
  svm : Bytes

def writeRtJarFileIfMissing (e : Embedded) : State → Action → State → Prop :=
  WriteFileIfMissing e.rtJar

def writeSvmFileIfMissing (e : Embedded) : State → Action → State → Prop :=
  WriteFileIfMissing e.svm

def Action.creates : Action → Option ℕ
  | .create k => some k
  | _ => none

def Action.writesBy (k : ℕ) : Action → ℕ
  | .write k' n => if k' = k then n else 0
  | _ => 0

/-- The call that has created the file last. -/
def creator (t : List Action) : Option ℕ := (t.filterMap Action.creates).getLast?

def written (t : List Action) (k : ℕ) : ℕ := (t.map (Action.writesBy k)).sum

/-- When a call returns, the call that has created the file last has written all of it, and no file
is created after a call has returned. -/
structure Careful (content : Bytes) (t : List Action) : Prop where
  ret : ∀ t₁ k t₂, t = t₁ ++ .ret k :: t₂ →
    ∀ k', creator t₁ = some k' → written t₁ k' = content.length
  create : ∀ t₁ k t₂, t = t₁ ++ .create k :: t₂ → ∀ k', .ret k' ∉ t₁

end PhasicJ.Embed
