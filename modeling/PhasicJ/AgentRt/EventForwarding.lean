import PhasicJ.Sync.Primitives
import PhasicJ.Transitions.LabelledRuns

/-! The way of an event from instrumented code to the agent's worker: `Agent_OnLoad`, `VMStart`,
the calls that the threads of the application make, and the worker. -/

namespace PhasicJ.AgentRt

open Sync Transitions

inductive OnLoad where
  | configuring | creatingChannel | locking | installing | unlocking | spawning | returned
  | panicked
  deriving DecidableEq

inductive VmStart where
  | pending | enabling | returned
  deriving DecidableEq

inductive Worker where
  | notStarted | receiving | logging | panicked
  deriving DecidableEq

inductive Kind where
  | monitorEnter | monitorExit
  deriving DecidableEq

/-- Where an inserted call is: before it reads the flag, in the method of `ApplicationEvents` before
and after the counter, or in the native method. -/
inductive Pc where
  | entered | counting | native | locked | borrowed | sent | unlocked
  | returned (sawEnabled : Bool)
  | panicked
  deriving DecidableEq

structure Call where
  thread : ℕ
  kind : Kind
  pc : Pc
  deriving DecidableEq

namespace Call

def isSending (c : Call) : Bool :=
  match c.pc with
  | .locked | .borrowed | .sent | .unlocked => true
  | _ => false

def reachedEvents (c : Call) : Bool :=
  match c.pc with
  | .entered | .returned false => false
  | _ => true

def passedSend (c : Call) : Bool :=
  match c.kind, c.pc with
  | .monitorEnter, .sent | .monitorEnter, .unlocked | .monitorEnter, .returned true => true
  | _, _ => false

end Call

inductive Task where
  | main
  | call (k : ℕ)
  deriving DecidableEq

structure Sender where
  deriving DecidableEq

structure State where
  onLoad : OnLoad
  objectLoaded : Bool
  vmStart : VmStart
  instrumentationIsEnabled : Bool
  monitorEnterCounter : ℕ
  monitorExitCounter : ℕ
  eventForwardingChannel : Mutex Task (Option Sender)
  channel : Channel Unit
  worker : Worker
  received : ℕ
  calls : List Call

def State.initial : State where
  onLoad := .configuring
  objectLoaded := false
  vmStart := .pending
  instrumentationIsEnabled := false
  monitorEnterCounter := 0
  monitorExitCounter := 0
  eventForwardingChannel := .new none
  channel := .new
  worker := .notStarted
  received := 0
  calls := []

def State.moveTo (s : State) (k : ℕ) (c : Call) (pc : Pc) : State :=
  { s with calls := s.calls.set k { c with pc := pc } }

inductive Action where
  | configure | createChannel | lockChannel | installSender | unlockChannel | spawnWorker
  | loadObject | vmStart | enableInstrumentation
  | call (thread : ℕ) (kind : Kind)
  | readFlag (k : ℕ) | count (k : ℕ) | lock (k : ℕ) | borrow (k : ℕ) | send (k : ℕ)
  | unlock (k : ℕ) | ret (k : ℕ)
  | recv | log
  | onLoadPanics | lockPanics (k : ℕ) | borrowPanics (k : ℕ) | sendPanics (k : ℕ) | recvPanics
  deriving DecidableEq

def Action.isPanic : Action → Bool
  | onLoadPanics | lockPanics _ | borrowPanics _ | sendPanics _ | recvPanics => true
  | _ => false

def Action.isSend : Action → Bool
  | send _ => true
  | _ => false

inductive Step : State → Action → State → Prop
  | configure {s : State} :
      s.onLoad = .configuring → Step s .configure { s with onLoad := .creatingChannel }
  | createChannel {s : State} :
      s.onLoad = .creatingChannel →
      Step s .createChannel { s with onLoad := .locking, channel := .new }
  | lockChannel {s : State} {m : Mutex Task (Option Sender)} :
      s.onLoad = .locking → s.eventForwardingChannel.Locks .main m →
      Step s .lockChannel { s with onLoad := .installing, eventForwardingChannel := m }
  | onLoadPanics {s : State} :
      s.onLoad = .locking → s.eventForwardingChannel.LockFails →
      Step s .onLoadPanics { s with onLoad := .panicked }
  | installSender {s : State} :
      s.onLoad = .installing →
      Step s .installSender
        { s with
          onLoad := .unlocking
          eventForwardingChannel := s.eventForwardingChannel.write (some ⟨⟩) }
  | unlockChannel {s : State} :
      s.onLoad = .unlocking →
      Step s .unlockChannel
        { s with
          onLoad := .spawning
          eventForwardingChannel := s.eventForwardingChannel.unlock }
  | spawnWorker {s : State} :
      s.onLoad = .spawning →
      Step s .spawnWorker { s with onLoad := .returned, worker := .receiving }
  | loadObject {s : State} :
      s.objectLoaded = false → Step s .loadObject { s with objectLoaded := true }
  -- the virtual machine starts after `Agent_OnLoad` has returned
  | vmStart {s : State} :
      s.onLoad = .returned → s.objectLoaded = true → s.vmStart = .pending →
      Step s .vmStart { s with vmStart := .enabling }
  | enableInstrumentation {s : State} :
      s.vmStart = .enabling →
      Step s .enableInstrumentation
        { s with vmStart := .returned, instrumentationIsEnabled := true }
  -- a thread makes one call at a time
  | call {s : State} {thread : ℕ} {kind : Kind} :
      s.objectLoaded = true → (∀ c ∈ s.calls, c.thread = thread → ∃ b, c.pc = .returned b) →
      Step s (.call thread kind) { s with calls := s.calls ++ [⟨thread, kind, .entered⟩] }
  | readEnabled {s : State} {k : ℕ} {c : Call} :
      s.calls[k]? = some c → c.pc = .entered → s.instrumentationIsEnabled = true →
      Step s (.readFlag k) (s.moveTo k c .counting)
  | readDisabled {s : State} {k : ℕ} {c : Call} :
      s.calls[k]? = some c → c.pc = .entered → s.instrumentationIsEnabled = false →
      Step s (.readFlag k) (s.moveTo k c (.returned false))
  | countEnter {s : State} {k : ℕ} {c : Call} :
      s.calls[k]? = some c → c.pc = .counting → c.kind = .monitorEnter →
      Step s (.count k)
        { s.moveTo k c .native with monitorEnterCounter := s.monitorEnterCounter + 1 }
  | countExit {s : State} {k : ℕ} {c : Call} :
      s.calls[k]? = some c → c.pc = .counting → c.kind = .monitorExit →
      Step s (.count k)
        { s.moveTo k c .native with monitorExitCounter := s.monitorExitCounter + 1 }
  -- the native `monitorExit` only logs
  | returnExit {s : State} {k : ℕ} {c : Call} :
      s.calls[k]? = some c → c.pc = .native → c.kind = .monitorExit →
      Step s (.ret k) (s.moveTo k c (.returned true))
  | lock {s : State} {k : ℕ} {c : Call} {m : Mutex Task (Option Sender)} :
      s.calls[k]? = some c → c.pc = .native → c.kind = .monitorEnter →
      s.eventForwardingChannel.Locks (.call k) m →
      Step s (.lock k) { s.moveTo k c .locked with eventForwardingChannel := m }
  | lockPanics {s : State} {k : ℕ} {c : Call} :
      s.calls[k]? = some c → c.pc = .native → c.kind = .monitorEnter →
      s.eventForwardingChannel.LockFails → Step s (.lockPanics k) (s.moveTo k c .panicked)
  | borrow {s : State} {k : ℕ} {c : Call} {tx : Sender} :
      s.calls[k]? = some c → c.pc = .locked → s.eventForwardingChannel.data = some tx →
      Step s (.borrow k) (s.moveTo k c .borrowed)
  | borrowPanics {s : State} {k : ℕ} {c : Call} :
      s.calls[k]? = some c → c.pc = .locked → s.eventForwardingChannel.data = none →
      Step s (.borrowPanics k)
        { s.moveTo k c .panicked with eventForwardingChannel := s.eventForwardingChannel.poison }
  | send {s : State} {k : ℕ} {c : Call} {channel : Channel Unit} :
      s.calls[k]? = some c → c.pc = .borrowed → s.channel.Sends () channel →
      Step s (.send k) { s.moveTo k c .sent with channel := channel }
  | sendPanics {s : State} {k : ℕ} {c : Call} :
      s.calls[k]? = some c → c.pc = .borrowed → s.channel.receiverAlive = false →
      Step s (.sendPanics k)
        { s.moveTo k c .panicked with eventForwardingChannel := s.eventForwardingChannel.poison }
  | unlock {s : State} {k : ℕ} {c : Call} :
      s.calls[k]? = some c → c.pc = .sent →
      Step s (.unlock k)
        { s.moveTo k c .unlocked with eventForwardingChannel := s.eventForwardingChannel.unlock }
  | returnEnter {s : State} {k : ℕ} {c : Call} :
      s.calls[k]? = some c → c.pc = .unlocked → Step s (.ret k) (s.moveTo k c (.returned true))
  | recv {s : State} {channel : Channel Unit} :
      s.worker = .receiving → s.channel.Receives () channel →
      Step s .recv
        { s with worker := .logging, channel := channel, received := s.received + 1 }
  | log {s : State} : s.worker = .logging → Step s .log { s with worker := .receiving }
  -- the worker's panic drops the receiver
  | recvPanics {s : State} :
      s.worker = .receiving → s.channel.ReceiveFails s.eventForwardingChannel.data.isSome →
      Step s .recvPanics { s with worker := .panicked, channel := s.channel.dropReceiver }

end PhasicJ.AgentRt
