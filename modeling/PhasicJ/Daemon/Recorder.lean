import PhasicJ.Sync.Primitives
import PhasicJ.Transitions.LabelledRuns

/-! The daemon: requests of its clients, and the table that their handlers record events in. -/

namespace PhasicJ.Daemon

open Sync Transitions

/-- A row of the table `rtevents`, with the number of the request that it was inserted for. -/
structure Row where
  id : ℕ
  description : String
  request : ℕ
  deriving DecidableEq

/-- What SQLite assigns to an `INTEGER PRIMARY KEY` that is not given. -/
def nextId (rows : List Row) : ℕ := (rows.map Row.id).foldr max 0 + 1

/-- How far a request has come: its handler waits for the connection, holds it before or after the
`INSERT`, or has let go of it. -/
inductive Stage where
  | sent | waiting | locked | inserted | unlocked | acked | delivered
  | panicked
  deriving DecidableEq

namespace Stage

def holdsConnection : Stage → Bool
  | locked | inserted => true
  | _ => false

def isRecorded : Stage → Bool
  | inserted | unlocked | acked | delivered => true
  | _ => false

def isAcked : Stage → Bool
  | acked | delivered => true
  | _ => false

end Stage

structure Request where
  description : String
  stage : Stage
  deriving DecidableEq

structure State where
  request : ℕ → Option Request
  databaseConnection : Mutex ℕ (List Row)

def State.rows (s : State) : List Row := s.databaseConnection.data

def State.fresh : State := ⟨fun _ => none, .new []⟩

def State.put (s : State) (r : ℕ) (q : Request) : State :=
  { s with request := Function.update s.request r (some q) }

def State.setConnection (s : State) (m : Mutex ℕ (List Row)) : State :=
  { s with databaseConnection := m }

inductive Action where
  | send (client r : ℕ) | arrive (r : ℕ) | lock (r : ℕ) | insert (r : ℕ) | unlock (r : ℕ)
  | sendAck (r : ℕ) | deliver (r : ℕ)
  | insertFails (r : ℕ) | lockPanics (r : ℕ)
  deriving DecidableEq

inductive Step : State → Action → State → Prop
  | send {s : State} {r client : ℕ} {description : String} :
      s.request r = none → Step s (.send client r) (s.put r ⟨description, .sent⟩)
  | arrive {s : State} {r : ℕ} {q : Request} :
      s.request r = some q → q.stage = .sent →
      Step s (.arrive r) (s.put r { q with stage := .waiting })
  | lock {s : State} {r : ℕ} {q : Request} {m : Mutex ℕ (List Row)} :
      s.request r = some q → q.stage = .waiting → s.databaseConnection.Locks r m →
      Step s (.lock r) ((s.put r { q with stage := .locked }).setConnection m)
  | insert {s : State} {r : ℕ} {q : Request} :
      s.request r = some q → q.stage = .locked →
      Step s (.insert r)
        ((s.put r { q with stage := .inserted }).setConnection
          (s.databaseConnection.write (s.rows ++ [⟨nextId s.rows, q.description, r⟩])))
  | unlock {s : State} {r : ℕ} {q : Request} :
      s.request r = some q → q.stage = .inserted →
      Step s (.unlock r)
        ((s.put r { q with stage := .unlocked }).setConnection s.databaseConnection.unlock)
  | sendAck {s : State} {r : ℕ} {q : Request} :
      s.request r = some q → q.stage = .unlocked →
      Step s (.sendAck r) (s.put r { q with stage := .acked })
  | deliver {s : State} {r : ℕ} {q : Request} :
      s.request r = some q → q.stage = .acked →
      Step s (.deliver r) (s.put r { q with stage := .delivered })
  -- the `unwrap` of a failed `INSERT` panics while the mutex is held
  | insertFails {s : State} {r : ℕ} {q : Request} :
      s.request r = some q → q.stage = .locked →
      Step s (.insertFails r)
        ((s.put r { q with stage := .panicked }).setConnection s.databaseConnection.poison)
  -- and then so does the `unwrap` of the next `lock`
  | lockPanics {s : State} {r : ℕ} {q : Request} :
      s.request r = some q → q.stage = .waiting → s.databaseConnection.LockFails →
      Step s (.lockPanics r) (s.put r { q with stage := .panicked })

def Action.locks : Action → Option ℕ
  | lock r => some r
  | _ => none

def holders (t : List Action) : List ℕ := t.filterMap Action.locks

/-- Before a client sends a request, it has got the acks of all that it sent before. -/
def Waits (client : ℕ) (t : List Action) : Prop :=
  ∀ t₁ t₂ r₁ r₂, t = t₁ ++ .send client r₂ :: t₂ → .send client r₁ ∈ t₁ → .deliver r₁ ∈ t₁

end PhasicJ.Daemon
