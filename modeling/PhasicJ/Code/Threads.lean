import PhasicJ.Code.LabelledCode

/-! Threads that run labelled code, call methods and share a memory, alone and with an agent that
serves some of their calls. -/

namespace PhasicJ.Code

open Transitions

structure Activation (M F : Type) where
  method : M
  pc : ℕ
  frame : F

def Activation.erased {M F : Type} (a : Activation M F) : M × F := (a.method, a.frame)

inductive Thread (M X R F : Type) where
  | running (top : Activation M F) (callers : List (Activation M F))
  | unwinding (x : X) (stack : List (Activation M F))
  | finished (result : R)

/-- A thread without the positions in its methods. -/
def Thread.erased {M X R F : Type} : Thread M X R F → List (M × F) × Option (X ⊕ R)
  | running top callers => ((top :: callers).map Activation.erased, none)
  | unwinding x stack => (stack.map Activation.erased, some (.inl x))
  | finished result => ([], some (.inr result))

structure Executed (E M F G : Type) where
  method : M
  event : E
  frame : F
  memory : G

/-- The events of a method act on the frame of its activation and on the memory. Some call a method,
which starts with a frame of its own, and `resume` continues the caller with the result. -/
structure Machine (E L T M X R F G : Type) where
  semantics : Semantics E L T X (R × G) (F × G)
  invokes : E → F × G → M → F → F × G → Prop
  resume : R → F → F

structure Pool (M X R F G : Type) where
  threads : List (Thread M X R F)
  memory : G

inductive PoolAction (E M F G : Type) where
  | start
  | thread (i : ℕ) (executed : Option (Executed E M F G))

namespace Machine

variable {E L T M X R F G : Type} [DecidableEq L] (K : Machine E L T M X R F G)

inductive ThreadStep (code : M → List E) :
    Thread M X R F × G → Option (Executed E M F G) → Thread M X R F × G → Prop
  | next {m : M} {pc : ℕ} {e : E} {f f' : F} {g g' : G} {cs : List (Activation M F)} :
      (code m)[pc]? = some e → K.semantics.effect e (f, g) (.next (f', g')) →
      ThreadStep code (.running ⟨m, pc, f⟩ cs, g) (some ⟨m, e, f, g⟩)
        (.running ⟨m, pc + 1, f'⟩ cs, g')
  | goto {m : M} {pc q : ℕ} {e : E} {l : L} {f f' : F} {g g' : G}
      {cs : List (Activation M F)} :
      (code m)[pc]? = some e → K.semantics.effect e (f, g) (.goto l (f', g')) →
      K.semantics.position (code m) l = some q →
      ThreadStep code (.running ⟨m, pc, f⟩ cs, g) (some ⟨m, e, f, g⟩) (.running ⟨m, q, f'⟩ cs, g')
  | invoke {m m' : M} {pc : ℕ} {e : E} {f f' callee : F} {g g' : G}
      {cs : List (Activation M F)} :
      (code m)[pc]? = some e → K.invokes e (f, g) m' callee (f', g') →
      ThreadStep code (.running ⟨m, pc, f⟩ cs, g) (some ⟨m, e, f, g⟩)
        (.running ⟨m', 0, callee⟩ (⟨m, pc, f'⟩ :: cs), g')
  | raise {m : M} {pc : ℕ} {e : E} {x : X} {f f' : F} {g g' : G} {cs : List (Activation M F)} :
      (code m)[pc]? = some e → K.semantics.effect e (f, g) (.raise x (f', g')) →
      ThreadStep code (.running ⟨m, pc, f⟩ cs, g) (some ⟨m, e, f, g⟩)
        (.unwinding x (⟨m, pc, f'⟩ :: cs), g')
  | ret {m : M} {pc : ℕ} {e : E} {r : R} {f : F} {g g' : G} {c : Activation M F}
      {cs : List (Activation M F)} :
      (code m)[pc]? = some e → K.semantics.effect e (f, g) (.finish (r, g')) →
      ThreadStep code (.running ⟨m, pc, f⟩ (c :: cs), g) (some ⟨m, e, f, g⟩)
        (.running ⟨c.method, c.pc + 1, K.resume r c.frame⟩ cs, g')
  | finish {m : M} {pc : ℕ} {e : E} {r : R} {f : F} {g g' : G} :
      (code m)[pc]? = some e → K.semantics.effect e (f, g) (.finish (r, g')) →
      ThreadStep code (.running ⟨m, pc, f⟩ [], g) (some ⟨m, e, f, g⟩) (.finished r, g')
  | caught {m : M} {pc q : ℕ} {x : X} {h : Handler L T} {f : F} {g : G}
      {cs : List (Activation M F)} :
      K.semantics.dispatch (code m) x pc = some h →
      K.semantics.position (code m) h.target = some q →
      ThreadStep code (.unwinding x (⟨m, pc, f⟩ :: cs), g) none
        (.running ⟨m, q, (K.semantics.enter x (f, g)).1⟩ cs, (K.semantics.enter x (f, g)).2)
  | leave {m : M} {pc : ℕ} {x : X} {f : F} {g : G} {cs : List (Activation M F)} :
      K.semantics.dispatch (code m) x pc = none →
      ThreadStep code (.unwinding x (⟨m, pc, f⟩ :: cs), g) none (.unwinding x cs, g)

inductive Step (code : M → List E) :
    Pool M X R F G → PoolAction E M F G → Pool M X R F G → Prop
  | start {p : Pool M X R F G} {m : M} {f : F} :
      Step code p .start ⟨p.threads ++ [.running ⟨m, 0, f⟩ []], p.memory⟩
  | thread {p : Pool M X R F G} {i : ℕ} {th th' : Thread M X R F} {g' : G}
      {ex : Option (Executed E M F G)} :
      p.threads[i]? = some th → K.ThreadStep code (th, p.memory) ex (th', g') →
      Step code p (.thread i ex) ⟨p.threads.set i th', g'⟩

end Machine

/-- An agent serves the events that are calls of it. Threads begin calls, and go on after they have
returned. -/
structure Agent (E A α : Type) where
  isCall : E → Bool
  begins : ℕ → E → A → A → Prop
  internal : A → α → A → Prop
  returned : ℕ → A → Prop

structure Hosted (M X R F G A : Type) where
  pool : Pool M X R F G
  agent : A
  calling : ℕ → Bool

inductive HostedAction (E M F G α : Type) where
  | start
  | thread (i : ℕ) (executed : Option (Executed E M F G))
  | begins (i : ℕ) (event : E)
  | ends (i : ℕ)
  | agent (a : α)

namespace HostedAction

variable {E M F G α : Type}

/-- What is left of an action when the calls of the agent are not looked at. -/
def visible : HostedAction E M F G α → Option (PoolAction E M F G)
  | start => some .start
  | thread i ex => some (.thread i ex)
  | begins _ _ | ends _ | agent _ => none

def begun (i : ℕ) : HostedAction E M F G α → Option E
  | begins j e => if j = i then some e else none
  | _ => none

def executedBy (i : ℕ) : HostedAction E M F G α → Option (Executed E M F G)
  | thread j ex => if j = i then ex else none
  | _ => none

end HostedAction

namespace Machine

variable {E L T M X R F G A α : Type} [DecidableEq L] (K : Machine E L T M X R F G)
  (N : Agent E A α)

inductive HostedStep (code : M → List E) :
    Hosted M X R F G A → HostedAction E M F G α → Hosted M X R F G A → Prop
  | start {h : Hosted M X R F G A} {m : M} {f : F} :
      HostedStep code h .start
        { h with pool := ⟨h.pool.threads ++ [.running ⟨m, 0, f⟩ []], h.pool.memory⟩ }
  | thread {h : Hosted M X R F G A} {i : ℕ} {th th' : Thread M X R F} {g' : G}
      {ex : Option (Executed E M F G)} :
      h.pool.threads[i]? = some th → h.calling i = false →
      K.ThreadStep code (th, h.pool.memory) ex (th', g') →
      (∀ x, ex = some x → N.isCall x.event = false) →
      HostedStep code h (.thread i ex) { h with pool := ⟨h.pool.threads.set i th', g'⟩ }
  | begins {h : Hosted M X R F G A} {i : ℕ} {top : Activation M F} {cs : List (Activation M F)}
      {e : E} {a : A} :
      h.pool.threads[i]? = some (.running top cs) → h.calling i = false →
      (code top.method)[top.pc]? = some e → N.isCall e = true → N.begins i e h.agent a →
      HostedStep code h (.begins i e)
        { h with agent := a, calling := Function.update h.calling i true }
  -- the frame is as it was
  | ends {h : Hosted M X R F G A} {i : ℕ} {top : Activation M F} {cs : List (Activation M F)} :
      h.pool.threads[i]? = some (.running top cs) → h.calling i = true → N.returned i h.agent →
      HostedStep code h (.ends i)
        { h with
          pool := ⟨h.pool.threads.set i (.running { top with pc := top.pc + 1 } cs),
            h.pool.memory⟩
          calling := Function.update h.calling i false }
  | agent {h : Hosted M X R F G A} {x : α} {a : A} :
      N.internal h.agent x a → HostedStep code h (.agent x) { h with agent := a }

end Machine

end PhasicJ.Code
