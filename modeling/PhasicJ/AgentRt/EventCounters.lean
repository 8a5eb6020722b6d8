import PhasicJ.AgentRt.EventForwarding

/-! The counters of `ApplicationEvents`, which are 32 bits wide. -/

namespace PhasicJ.AgentRt

open Transitions

/-- Where a thread is: outside of `ApplicationEvents`, or in one of its methods, before and after
the counter. -/
inductive Place where
  | outside
  | entered (kind : Kind)
  | native (kind : Kind)
  deriving DecidableEq

structure ApplicationEvents where
  monitorEnterCounter : Int32
  monitorExitCounter : Int32
  place : ℕ → Place

namespace ApplicationEvents

def initial : ApplicationEvents := ⟨0, 0, fun _ => .outside⟩

def numMonitorEnterEvents (s : ApplicationEvents) : Int32 := s.monitorEnterCounter

def numMonitorExitEvents (s : ApplicationEvents) : Int32 := s.monitorExitCounter

def num (s : ApplicationEvents) : Kind → Int32
  | .monitorEnter => s.numMonitorEnterEvents
  | .monitorExit => s.numMonitorExitEvents

/-- `incrementAndGet` of an `AtomicInteger` wraps around. -/
def incrementAndGet (s : ApplicationEvents) : Kind → ApplicationEvents
  | .monitorEnter => { s with monitorEnterCounter := s.monitorEnterCounter + 1 }
  | .monitorExit => { s with monitorExitCounter := s.monitorExitCounter + 1 }

def move (s : ApplicationEvents) (thread : ℕ) (p : Place) : ApplicationEvents :=
  { s with place := Function.update s.place thread p }

@[simp] lemma num_initial (kind : Kind) : initial.num kind = 0 := by cases kind <;> rfl

@[simp] lemma num_move (s : ApplicationEvents) (thread : ℕ) (p : Place) (kind : Kind) :
    (s.move thread p).num kind = s.num kind := by
  cases kind <;> rfl

lemma num_incrementAndGet (s : ApplicationEvents) (kind kind' : Kind) :
    (s.incrementAndGet kind').num kind = s.num kind + if kind' = kind then 1 else 0 := by
  cases kind <;> cases kind' <;>
    simp [incrementAndGet, num, numMonitorEnterEvents, numMonitorExitEvents]

inductive Action where
  | call (thread : ℕ) (kind : Kind)
  | increment (thread : ℕ) (kind : Kind)
  | returns (thread : ℕ)
  | read (thread : ℕ) (kind : Kind) (value : Int32)
  deriving DecidableEq

def Action.increments (kind : Kind) : Action → Bool
  | .increment _ kind' => kind' = kind
  | _ => false

inductive Step : ApplicationEvents → Action → ApplicationEvents → Prop
  | call {s : ApplicationEvents} {thread : ℕ} {kind : Kind} :
      s.place thread = .outside → Step s (.call thread kind) (s.move thread (.entered kind))
  | increment {s : ApplicationEvents} {thread : ℕ} {kind : Kind} :
      s.place thread = .entered kind →
      Step s (.increment thread kind) ((s.incrementAndGet kind).move thread (.native kind))
  | returns {s : ApplicationEvents} {thread : ℕ} {kind : Kind} :
      s.place thread = .native kind → Step s (.returns thread) (s.move thread .outside)
  | read {s : ApplicationEvents} {thread : ℕ} {kind : Kind} :
      Step s (.read thread kind (s.num kind)) s

def increments (kind : Kind) (t : List Action) : ℕ := t.countP (Action.increments kind)

variable {s u : ApplicationEvents} {t t₁ t₂ : List Action} {a : Action} {kind : Kind} {i : ℕ}
  {v : Int32}

lemma increments_snoc (kind : Kind) (t : List Action) (a : Action) :
    increments kind (t ++ [a]) = increments kind t + if a.increments kind then 1 else 0 := by
  rw [increments, increments, List.countP_append, List.countP_singleton]

lemma increments_append_le (kind : Kind) (t₁ t₂ : List Action) :
    increments kind t₁ ≤ increments kind (t₁ ++ t₂) := by
  rw [increments, increments, List.countP_append]
  exact Nat.le_add_right _ _

lemma num_step (hs : Step s a u) (kind : Kind) :
    u.num kind = s.num kind + Int32.ofNat (if a.increments kind then 1 else 0) := by
  cases hs with
  | call | returns | read => simp [Action.increments]
  | @increment thread kind' =>
    rw [num_move, num_incrementAndGet]
    by_cases h : kind' = kind <;> simp [Action.increments, h]

lemma num_run (h : Run Step initial t s) (kind : Kind) :
    s.num kind = Int32.ofNat (increments kind t) := by
  induction h with
  | nil => exact num_initial kind
  | snoc _ hs ih => rw [num_step hs, ih, increments_snoc, Int32.ofNat_add]

lemma read_run (h : Run Step initial (t₁ ++ .read i kind v :: t₂) s) :
    v = Int32.ofNat (increments kind t₁) := by
  obtain ⟨u, _, hu, hs, -⟩ := h.mid_split
  cases hs with
  | read => exact num_run hu kind

def CountsEvents (kind : Kind) (t : List Action) : Prop :=
  ∀ t₁ t₂ u, t = t₁ ++ t₂ → Run Step initial t₁ u → (u.num kind).toInt = increments kind t₁

lemma countsEvents_iff (h : Run Step initial t s) :
    CountsEvents kind t ↔ increments kind t < 2 ^ 31 := by
  constructor
  -- no 32-bit value is the number at the end of the run
  · intro hc
    have hs := hc t [] s (List.append_nil t).symm h
    have hlt := (s.num kind).toInt_lt
    omega
  · rintro hlt t₁ t₂ u rfl hu
    have hle := increments_append_le kind t₁ t₂
    rw [num_run hu, Int32.toInt_ofNat_of_lt (by omega)]

/-- The counter of a method counts its increments, and the values that are read of it neither
decrease nor become negative, as long as there are fewer than `2 ^ 31` of them. -/
theorem counters_count (h : Run Step initial t s) (kind : Kind) :
    (CountsEvents kind t ↔ increments kind t < 2 ^ 31) ∧
    (increments kind t < 2 ^ 31 → ∀ (t₁ t₂ t₃ : List Action) (i j : ℕ) (v w : Int32),
      t = t₁ ++ .read i kind v :: (t₂ ++ .read j kind w :: t₃) →
        v.toInt = increments kind t₁ ∧ 0 ≤ v.toInt ∧ v.toInt ≤ w.toInt) := by
  refine ⟨countsEvents_iff h, ?_⟩
  rintro hlt t₁ t₂ t₃ i j v w rfl
  have hv := read_run h
  rw [← List.cons_append, ← List.append_assoc] at h hlt
  have hw := read_run h
  have hle := increments_append_le kind t₁ (.read i kind v :: t₂)
  have hle' := increments_append_le kind (t₁ ++ .read i kind v :: t₂) (.read j kind w :: t₃)
  rw [hv, hw, Int32.toInt_ofNat_of_lt (by omega), Int32.toInt_ofNat_of_lt (by omega)]
  omega

section Example

def twoThreads : List Action :=
  [.call 0 .monitorEnter, .call 1 .monitorEnter, .increment 1 .monitorEnter, .read 2 .monitorEnter 1,
    .returns 1, .call 1 .monitorExit, .increment 0 .monitorEnter, .increment 1 .monitorExit,
    .read 2 .monitorEnter 2]

lemma two_threads_run : ∃ s, Run Step initial twoThreads s := by
  have h : Run Step initial [] initial := .nil _
  have h := h.snoc (@Step.call _ 0 .monitorEnter rfl)
  have h := h.snoc (@Step.call _ 1 .monitorEnter rfl)
  have h := h.snoc (@Step.increment _ 1 .monitorEnter rfl)
  have h := h.snoc (@Step.read _ 2 .monitorEnter)
  have h := h.snoc (@Step.returns _ 1 .monitorEnter rfl)
  have h := h.snoc (@Step.call _ 1 .monitorExit rfl)
  have h := h.snoc (@Step.increment _ 0 .monitorEnter rfl)
  have h := h.snoc (@Step.increment _ 1 .monitorExit rfl)
  exact ⟨_, h.snoc (@Step.read _ 2 .monitorEnter)⟩

theorem counters_count_twoThreads :
    CountsEvents .monitorEnter twoThreads ∧ CountsEvents .monitorExit twoThreads ∧
    (1 : Int32).toInt = increments .monitorEnter (twoThreads.take 3) ∧
    (1 : Int32).toInt ≤ (2 : Int32).toInt := by
  obtain ⟨s, h⟩ := two_threads_run
  obtain ⟨hcounts, hreads⟩ := counters_count h .monitorEnter
  obtain ⟨hv, -, hle⟩ := hreads (by decide) (twoThreads.take 3) ((twoThreads.drop 4).take 4) [] 2 2
    1 2 rfl
  exact ⟨hcounts.mpr (by decide), (counters_count h .monitorExit).1.mpr (by decide), hv, hle⟩

lemma run_increments (n : ℕ) :
    ∃ t s, Run Step initial t s ∧ increments .monitorEnter t = n ∧ s.place 0 = .outside := by
  induction n with
  | zero => exact ⟨[], initial, .nil _, rfl, rfl⟩
  | succ n ih =>
    obtain ⟨t, s, h, hn, hp⟩ := ih
    have h := h.snoc (@Step.call _ _ .monitorEnter hp)
    have h := h.snoc (@Step.increment _ 0 .monitorEnter (by simp [move]))
    have h := h.snoc (@Step.returns _ 0 .monitorEnter (by simp [move]))
    refine ⟨_, _, h, ?_, by simp [move]⟩
    simp only [increments_snoc, hn, Action.increments]
    rfl

theorem counters_wrap : ¬ ∀ kind t s, Run Step initial t s → CountsEvents kind t := by
  intro h
  obtain ⟨t, s, hr, hn, -⟩ := run_increments (2 ^ 31)
  have hc := (countsEvents_iff hr).mp (h .monitorEnter t s hr)
  omega

end Example

end ApplicationEvents

section Forwarding

variable {s u : State} {a : Action} {k : ℕ} {c : Call}

def Call.place (c : Call) : Place :=
  match c.pc with
  | .entered | .returned _ => .outside
  | .counting => .entered c.kind
  | _ => .native c.kind

def State.applicationEvents (s : State) : ApplicationEvents where
  monitorEnterCounter := .ofNat s.monitorEnterCounter
  monitorExitCounter := .ofNat s.monitorExitCounter
  place k := s.calls[k]?.elim .outside Call.place

lemma place_eq (hk : s.calls[k]? = some c) : s.applicationEvents.place k = c.place := by
  simp only [State.applicationEvents, hk, Option.elim_some]

lemma applicationEvents_moveTo (hk : s.calls[k]? = some c) (pc : Pc) :
    (s.moveTo k c pc).applicationEvents =
      s.applicationEvents.move k (Call.place { c with pc }) := by
  have hlt := (List.getElem?_eq_some_iff.mp hk).1
  simp only [State.applicationEvents, State.moveTo, ApplicationEvents.move,
    ApplicationEvents.mk.injEq, true_and]
  funext j
  rcases eq_or_ne k j with rfl | hj
  · rw [List.getElem?_set_self hlt, Function.update_self, Option.elim_some]
  · rw [List.getElem?_set_ne hj, Function.update_of_ne hj.symm]

lemma run_moveTo (hk : s.calls[k]? = some c) (pc : Pc)
    (hp : Call.place { c with pc } = c.place) :
    ∃ t, Run ApplicationEvents.Step s.applicationEvents t
      (s.moveTo k c pc).applicationEvents := by
  rw [applicationEvents_moveTo hk, hp, ← place_eq hk, ApplicationEvents.move,
    Function.update_eq_self]
  exact ⟨[], .nil _⟩

lemma run_returns (hk : s.calls[k]? = some c) (hp : c.place = .native c.kind) :
    ∃ t, Run ApplicationEvents.Step s.applicationEvents t
      (s.moveTo k c (.returned true)).applicationEvents := by
  rw [applicationEvents_moveTo hk]
  exact ⟨_, .single (.returns ((place_eq hk).trans hp))⟩

lemma run_increment {v : State} (hk : s.calls[k]? = some c) (hcalls : v.calls = s.calls)
    (hp : c.place = .entered c.kind)
    (hv : v.applicationEvents = s.applicationEvents.incrementAndGet c.kind) :
    ∃ t, Run ApplicationEvents.Step s.applicationEvents t
      (v.moveTo k c .native).applicationEvents := by
  rw [applicationEvents_moveTo (hcalls ▸ hk), hv]
  exact ⟨_, .single (.increment ((place_eq hk).trans hp))⟩

/-- The forwarding model counts in natural numbers, and each of its steps is one of the code's
counters or leaves them alone. -/
lemma applicationEvents_step (hs : Step s a u) :
    ∃ t, Run ApplicationEvents.Step s.applicationEvents t u.applicationEvents := by
  cases hs with
  | @call thread kind =>
    refine ⟨[], ?_⟩
    have he : State.applicationEvents { s with calls := s.calls ++ [⟨thread, kind, .entered⟩] } =
        s.applicationEvents := by
      simp only [State.applicationEvents, ApplicationEvents.mk.injEq, true_and]
      funext j
      rw [List.getElem?_append]
      split
      · rfl
      · rename_i hj
        rw [List.getElem?_eq_none (Nat.le_of_not_lt hj)]
        cases j - s.calls.length <;> rfl
    exact he ▸ .nil _
  | @readEnabled k c hk hc =>
    refine ⟨[.call k c.kind], .single ?_⟩
    rw [applicationEvents_moveTo hk]
    exact .call ((place_eq hk).trans (by simp only [Call.place, hc]))
  | @countEnter k c hk hc hkind =>
    exact run_increment (v := { s with monitorEnterCounter := s.monitorEnterCounter + 1 }) hk rfl
      (by simp only [Call.place, hc])
      (by simp [State.applicationEvents, ApplicationEvents.incrementAndGet, hkind])
  | @countExit k c hk hc hkind =>
    exact run_increment (v := { s with monitorExitCounter := s.monitorExitCounter + 1 }) hk rfl
      (by simp only [Call.place, hc])
      (by simp [State.applicationEvents, ApplicationEvents.incrementAndGet, hkind])
  | returnExit hk hc => exact run_returns hk (by simp only [Call.place, hc])
  | returnEnter hk hc => exact run_returns hk (by simp only [Call.place, hc])
  | readDisabled hk hc => exact run_moveTo hk (.returned false) (by simp only [Call.place, hc])
  | lock hk hc => exact run_moveTo hk .locked (by simp only [Call.place, hc])
  | borrow hk hc => exact run_moveTo hk .borrowed (by simp only [Call.place, hc])
  | send hk hc => exact run_moveTo hk .sent (by simp only [Call.place, hc])
  | unlock hk hc => exact run_moveTo hk .unlocked (by simp only [Call.place, hc])
  | lockPanics hk hc | borrowPanics hk hc | sendPanics hk hc =>
    exact run_moveTo hk .panicked (by simp only [Call.place, hc])
  | _ => exact ⟨[], .nil _⟩

lemma applicationEvents_run {t : List Action} (h : Run Step .initial t s) :
    ∃ t', Run ApplicationEvents.Step .initial t' s.applicationEvents := by
  induction h with
  | nil => exact ⟨[], .nil _⟩
  | snoc _ hs ih =>
    obtain ⟨t₁, h₁⟩ := ih
    obtain ⟨t₂, h₂⟩ := applicationEvents_step hs
    exact ⟨t₁ ++ t₂, h₁.trans h₂⟩

end Forwarding

end PhasicJ.AgentRt
