import PhasicJ.Panics.Action
import PhasicJ.Transitions.LabelledRuns

/-! The isolates that are created in native libraries, and the values that own them. -/

namespace PhasicJ.Svm

open Panics Transitions

inductive Symbol where
  | graalCreateIsolate | graalTearDownIsolate | svmInstrInstrument | svmInstrFree
  deriving DecidableEq

structure Library where
  get : Symbol → Option ℕ

structure SvmIsolateThread where
  isolateThread : ℕ
  svmInstrInstrumentFn : ℕ
  svmInstrFreeFn : ℕ
  svmLibrary : Library

structure Isolate where
  number : ℕ
  thread : ℕ
  deriving DecidableEq

/-- The isolates of the process, numbered in the order of their creation. A thread identifies an
isolate as long as that is alive. -/
structure Isolates where
  created : ℕ
  alive : List Isolate
  tornDown : List Isolate

namespace Isolates

def threads (s : Isolates) : List ℕ := s.alive.map Isolate.thread

def create (s : Isolates) (thread : ℕ) : Isolates :=
  { s with created := s.created + 1, alive := ⟨s.created, thread⟩ :: s.alive }

def tearDown (s : Isolates) (thread : ℕ) : Isolates :=
  { s with
    alive := s.alive.filter fun i => i.thread ≠ thread
    tornDown := s.alive.filter (fun i => i.thread = thread) ++ s.tornDown }

structure Distinct (s : Isolates) : Prop where
  threads : s.threads.Nodup
  numbers : ((s.alive ++ s.tornDown).map Isolate.number).Nodup
  created : ∀ i ∈ s.alive ++ s.tornDown, i.number < s.created

variable {s : Isolates} {thread : ℕ}

lemma tearDown_perm (s : Isolates) (thread : ℕ) :
    List.Perm ((s.tearDown thread).alive ++ (s.tearDown thread).tornDown)
      (s.alive ++ s.tornDown) := by
  have h := List.filter_append_perm (fun i : Isolate => decide (i.thread ≠ thread)) s.alive
  have h := h.append_right s.tornDown
  simpa [tearDown, List.append_assoc] using h

lemma Distinct.create (h : s.Distinct) (hf : thread ∉ s.threads) :
    (s.create thread).Distinct where
  threads := List.nodup_cons.mpr ⟨hf, h.threads⟩
  numbers := by
    refine List.nodup_cons.mpr ⟨fun hm => ?_, h.numbers⟩
    obtain ⟨i, hi, hn⟩ := List.mem_map.mp hm
    exact absurd (hn ▸ h.created i hi) (Nat.lt_irrefl _)
  created := by
    intro i hi
    change i.number < s.created + 1
    rcases List.mem_cons.mp hi with rfl | hi
    · exact Nat.lt_succ_self _
    · exact Nat.lt_succ_of_lt (h.created i hi)

lemma Distinct.tearDown (h : s.Distinct) (thread : ℕ) : (s.tearDown thread).Distinct where
  threads := h.threads.sublist (List.filter_sublist.map _)
  numbers := ((tearDown_perm s thread).map _).nodup_iff.mpr h.numbers
  created i hi := h.created i ((tearDown_perm s thread).mem_iff.mp hi)

end Isolates

/-- What a call of `graal_create_isolate` returns, and what it writes to its out pointer, if it does
so. -/
structure Created where
  err : Int32
  isolateThread : Option ℕ

def Created.Fresh (answer : Created) (s : Isolates) : Prop :=
  answer.err = 0 → ∀ thread ∈ answer.isolateThread, thread ∉ s.threads

def getSvmSymbol (svmLibrary : Library) (symbolName : Symbol) : Except Unit ℕ :=
  match svmLibrary.get symbolName with
  | some address => .ok address
  | none => .error ()

def graalCreateIsolate (svmLibrary : Library) (answer : Created) :
    Action Isolates (Except Unit ℕ) :=
  match getSvmSymbol svmLibrary .graalCreateIsolate with
  | .error e => pure (.error e)
  | .ok _ =>
    { run s :=
        match answer.isolateThread with
        -- `assume_init` comes before the check of the error
        | none => .undefined
        | some isolateThread =>
          if answer.err = 0 then .returned (.ok isolateThread) (s.create isolateThread)
          else .returned (.error ()) s }

def graalTearDownIsolate (svmLibrary : Library) (isolateThread : ℕ) (err : Int32) :
    Action Isolates (Except Unit Unit) :=
  match getSvmSymbol svmLibrary .graalTearDownIsolate with
  | .error e => pure (.error e)
  | .ok _ =>
    { run s :=
        if isolateThread ∈ s.threads then
          if err = 0 then .returned (.ok ()) (s.tearDown isolateThread)
          else .returned (.error ()) s
        -- the isolate is gone
        else .undefined }

namespace SvmIsolateThread

def newFromLibraryPath (library : Option Library) (answer : Created) :
    Action Isolates (Except Unit SvmIsolateThread) :=
  match library with
  -- it cannot be loaded
  | none => pure (.error ())
  | some svmLibrary => do
    match ← graalCreateIsolate svmLibrary answer with
    | .error e => pure (.error e)
    -- from here on `?` returns without the isolate
    | .ok isolateThread => pure do
      let svmInstrInstrumentFn ← getSvmSymbol svmLibrary .svmInstrInstrument
      let svmInstrFreeFn ← getSvmSymbol svmLibrary .svmInstrFree
      pure ⟨isolateThread, svmInstrInstrumentFn, svmInstrFreeFn, svmLibrary⟩

def drop (v : SvmIsolateThread) (err : Int32) : Action Isolates Unit := do
  match ← graalTearDownIsolate v.svmLibrary v.isolateThread err with
  | .ok () => pure ()
  | .error () => Action.panic "called `Result::unwrap()` on an `Err` value: ()"

end SvmIsolateThread

structure IsolateWorld where
  isolates : Isolates
  values : List SvmIsolateThread

namespace IsolateWorld

def initial : IsolateWorld := ⟨⟨0, [], []⟩, []⟩

def owned (w : IsolateWorld) : List ℕ := w.values.map SvmIsolateThread.isolateThread

inductive Operation where
  | new (library : Option Library) (answer : Created)
  | drop (v : SvmIsolateThread) (err : Int32)

/-- The thread of a new isolate is none of those that are alive. A value is also gone when its
`drop` panics. Nothing is said of what follows after the out pointer is read without having been
written. -/
inductive Step : IsolateWorld → Operation → IsolateWorld → Prop
  | new {w : IsolateWorld} {library : Option Library} {answer : Created} {v : SvmIsolateThread}
      {s : Isolates} :
      answer.Fresh w.isolates →
      (SvmIsolateThread.newFromLibraryPath library answer).run w.isolates =
        .returned (.ok v) s →
      Step w (.new library answer) ⟨s, v :: w.values⟩
  | newFails {w : IsolateWorld} {library : Option Library} {answer : Created} {s : Isolates} :
      answer.Fresh w.isolates →
      (SvmIsolateThread.newFromLibraryPath library answer).run w.isolates =
        .returned (.error ()) s →
      Step w (.new library answer) ⟨s, w.values⟩
  | drop {w : IsolateWorld} {v : SvmIsolateThread} {before after : List SvmIsolateThread}
      {err : Int32} {s : Isolates} :
      w.values = before ++ v :: after → (v.drop err).run w.isolates = .returned () s →
      Step w (.drop v err) ⟨s, before ++ after⟩
  | dropPanics {w : IsolateWorld} {v : SvmIsolateThread} {before after : List SvmIsolateThread}
      {err : Int32} {message : String} {s : Isolates} :
      w.values = before ++ v :: after → (v.drop err).run w.isolates = .panicked message s →
      Step w (.drop v err) ⟨s, before ++ after⟩

/-- A library in which an isolate is created has the two functions of the instrumenter, and a value
is dropped by a tear-down that is there and succeeds. -/
def Operation.Keeps : Operation → Prop
  | .new library answer => ∀ svmLibrary, library = some svmLibrary →
    (svmLibrary.get .graalCreateIsolate).isSome → answer.err = 0 →
      (svmLibrary.get .svmInstrInstrument).isSome ∧ (svmLibrary.get .svmInstrFree).isSome
  | .drop v err => (v.svmLibrary.get .graalTearDownIsolate).isSome ∧ err = 0

def KeepingStep (w : IsolateWorld) (op : Operation) (w' : IsolateWorld) : Prop :=
  Step w op w' ∧ op.Keeps

inductive Effect (w : IsolateWorld) (op : Operation) : IsolateWorld → Prop
  | unchanged : op.Keeps → Effect w op w
  | acquired {v : SvmIsolateThread} :
      v.isolateThread ∉ w.isolates.threads → op.Keeps →
      Effect w op ⟨w.isolates.create v.isolateThread, v :: w.values⟩
  | leaked {thread : ℕ} :
      thread ∉ w.isolates.threads → ¬ op.Keeps →
      Effect w op ⟨w.isolates.create thread, w.values⟩
  | released {v : SvmIsolateThread} {before after : List SvmIsolateThread} :
      w.values = before ++ v :: after → op.Keeps →
      Effect w op ⟨w.isolates.tearDown v.isolateThread, before ++ after⟩
  | abandoned {v : SvmIsolateThread} {before after : List SvmIsolateThread} :
      w.values = before ++ v :: after → ¬ op.Keeps →
      Effect w op ⟨w.isolates, before ++ after⟩

section Effects

variable {library : Option Library} {answer : Created} {s : Isolates} {v : SvmIsolateThread}
  {err : Int32}

variable (library answer s) in
lemma newFromLibraryPath_cases :
    (SvmIsolateThread.newFromLibraryPath library answer).run s = .undefined ∨
    (Operation.Keeps (.new library answer) ∧
      (SvmIsolateThread.newFromLibraryPath library answer).run s = .returned (.error ()) s) ∨
    answer.err = 0 ∧ ∃ thread ∈ answer.isolateThread,
      ((∃ v, v.isolateThread = thread ∧ Operation.Keeps (.new library answer) ∧
        (SvmIsolateThread.newFromLibraryPath library answer).run s =
          .returned (.ok v) (s.create thread)) ∨
      ¬ Operation.Keeps (.new library answer) ∧
        (SvmIsolateThread.newFromLibraryPath library answer).run s =
          .returned (.error ()) (s.create thread)) := by
  cases library with
  | none => exact .inr (.inl ⟨by rintro _ ⟨⟩, rfl⟩)
  | some lib =>
    simp only [SvmIsolateThread.newFromLibraryPath, graalCreateIsolate, getSvmSymbol,
      Operation.Keeps, Action.run_bind, Option.some.injEq, forall_eq']
    cases lib.get .graalCreateIsolate with
    | none => exact .inr (.inl ⟨by rintro ⟨⟩, rfl⟩)
    | some create =>
      cases answer.isolateThread with
      | none => exact .inl rfl
      | some thread =>
        by_cases he : answer.err = 0
        · simp only [he, if_true, true_and, forall_const, Option.isSome_some, Option.mem_some_iff,
            exists_eq_left']
          refine .inr (.inr ?_)
          cases lib.get .svmInstrInstrument with
          | none => exact .inr ⟨by simp, rfl⟩
          | some svmInstrInstrumentFn =>
            cases lib.get .svmInstrFree with
            | none => exact .inr ⟨by simp, rfl⟩
            | some svmInstrFreeFn =>
              exact .inl ⟨⟨thread, svmInstrInstrumentFn, svmInstrFreeFn, lib⟩, rfl, ⟨rfl, rfl⟩,
                rfl⟩
        · exact .inr (.inl ⟨fun _ h => absurd h he, by simp only [he, if_false]; rfl⟩)

lemma drop_cases (h : v.isolateThread ∈ s.threads) (err : Int32) :
    (Operation.Keeps (.drop v err) ∧
      (v.drop err).run s = .returned () (s.tearDown v.isolateThread)) ∨
    ¬ Operation.Keeps (.drop v err) ∧ ∃ message, (v.drop err).run s = .panicked message s := by
  simp only [Operation.Keeps, SvmIsolateThread.drop, graalTearDownIsolate, getSvmSymbol,
    Action.run_bind]
  cases v.svmLibrary.get .graalTearDownIsolate with
  | none => exact .inr ⟨by simp, _, rfl⟩
  | some tearDown =>
    by_cases he : err = 0
    · exact .inl ⟨⟨rfl, he⟩, by simp only [h, he, if_true, Action.run_pure]⟩
    · exact .inr ⟨by simp [he], _, by simp only [h, he, if_true, if_false]; rfl⟩

end Effects

/-- What holds after any operations: each value owns an isolate that is alive, and that no other
value owns. -/
structure Sound (w : IsolateWorld) : Prop where
  isolates : w.isolates.Distinct
  owned : w.owned.Nodup
  owned_alive : ∀ thread ∈ w.owned, thread ∈ w.isolates.threads

section Soundness

variable {w u : IsolateWorld} {op : Operation} {v : SvmIsolateThread} {thread : ℕ}
  {before after : List SvmIsolateThread}

lemma Sound.mem_threads (h : w.Sound) (hv : w.values = before ++ v :: after) :
    v.isolateThread ∈ w.isolates.threads := by
  refine h.owned_alive _ (List.mem_map_of_mem ?_)
  rw [hv]
  exact List.mem_append_right _ List.mem_cons_self

lemma Step.effect (hs : Step w op u) (h : w.Sound) : Effect w op u := by
  cases hs with
  | @new library answer v s hfresh hr =>
    rcases newFromLibraryPath_cases library answer w.isolates with
      hr' | ⟨-, hr'⟩ | ⟨he, thread, ht, ⟨v', rfl, hk, hr'⟩ | ⟨-, hr'⟩⟩
    · simp [hr'] at hr
    · simp [hr'] at hr
    · simp only [hr', Outcome.returned.injEq, Except.ok.injEq] at hr
      obtain ⟨rfl, rfl⟩ := hr
      exact .acquired (hfresh he _ ht) hk
    · simp [hr'] at hr
  | @newFails library answer s hfresh hr =>
    rcases newFromLibraryPath_cases library answer w.isolates with
      hr' | ⟨hk, hr'⟩ | ⟨he, thread, ht, ⟨v', -, -, hr'⟩ | ⟨hk, hr'⟩⟩
    · simp [hr'] at hr
    · simp only [hr', Outcome.returned.injEq, true_and] at hr
      exact hr ▸ .unchanged hk
    · simp [hr'] at hr
    · simp only [hr', Outcome.returned.injEq, true_and] at hr
      exact hr ▸ .leaked (hfresh he _ ht) hk
  | @drop v before after err s hv hr =>
    rcases drop_cases (h.mem_threads hv) err with ⟨hk, hr'⟩ | ⟨-, message, hr'⟩
    · simp only [hr', Outcome.returned.injEq, true_and] at hr
      exact hr ▸ .released hv hk
    · simp [hr'] at hr
  | @dropPanics v before after err message s hv hr =>
    rcases drop_cases (h.mem_threads hv) err with ⟨-, hr'⟩ | ⟨hk, message', hr'⟩
    · simp [hr'] at hr
    · simp only [hr', Outcome.panicked.injEq] at hr
      exact hr.2 ▸ .abandoned hv hk

end Soundness

section Example

def complete : Library := ⟨fun _ => some 1⟩

def isolateThread (n : ℕ) : SvmIsolateThread := ⟨n, 1, 1, complete⟩

end Example

end IsolateWorld

end PhasicJ.Svm
