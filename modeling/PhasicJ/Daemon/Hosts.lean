import PhasicJ.Daemon.Recorder

/-! The daemons of a host: how each starts on a socket and a database, serves and ends. -/

namespace PhasicJ.Daemon

open Sync Transitions

structure Opts where
  database : String
  socket : String

/-- What a database file holds. Without a table it may be empty or not be there. -/
inductive Database where
  | noTable
  | rtevents (rows : List Row)

/-- How far `record_pj_rt_events_from_uds` has come. -/
inductive Progress where
  | started | directoryCreated | bound | opened
  | serving (recorder : State)
  | exited

namespace Progress

def recorder? : Progress → Option State
  | serving s => some s
  | _ => none

def isStarting : Progress → Bool
  | started | directoryCreated | bound | opened => true
  | _ => false

end Progress

structure Process where
  opts : Opts
  progress : Progress

structure Host where
  process : ℕ → Option Process
  listener : String → Option ℕ
  database : String → Database

def State.withRows (s : State) (rows : List Row) : State :=
  s.setConnection (s.databaseConnection.write rows)

namespace Host

def move (h : Host) (n : ℕ) (p : Process) (progress : Progress) : Host :=
  { h with process := Function.update h.process n (some { p with progress }) }

def databaseOf (h : Host) (n : ℕ) : Option String := (h.process n).map fun p => p.opts.database

def recorder? (h : Host) (n : ℕ) : Option State :=
  (h.process n).bind fun p => p.progress.recorder?

def store (h : Host) (path : String) (rows : List Row) : Host :=
  { h with database := Function.update h.database path (.rtevents rows) }

end Host

inductive HostAction where
  | start (n : ℕ) | createDirAll (n : ℕ) | bind (n : ℕ) | openDatabase (n : ℕ)
  | createTable (n : ℕ)
  | serve (n : ℕ) (a : Action)
  | exit (n : ℕ)
  | removeSocket (path : String)
  deriving DecidableEq

def HostAction.served (n : ℕ) : HostAction → Option Action
  | serve m a => if m = n then some a else none
  | _ => none

def served (n : ℕ) (t : List HostAction) : List Action := t.filterMap (HostAction.served n)

/-- Databases are not removed. -/
inductive HostStep : Host → HostAction → Host → Prop
  | start {h : Host} {n : ℕ} {opts : Opts} :
      h.process n = none →
      HostStep h (.start n)
        { h with process := Function.update h.process n (some ⟨opts, .started⟩) }
  | createDirAll {h : Host} {n : ℕ} {p : Process} :
      h.process n = some p → p.progress = .started →
      HostStep h (.createDirAll n) (h.move n p .directoryCreated)
  -- there must be no file at the path, not even the socket of a daemon that has exited
  | bind {h : Host} {n : ℕ} {p : Process} :
      h.process n = some p → p.progress = .directoryCreated → h.listener p.opts.socket = none →
      HostStep h (.bind n)
        { h.move n p .bound with listener := Function.update h.listener p.opts.socket (some n) }
  | openDatabase {h : Host} {n : ℕ} {p : Process} :
      h.process n = some p → p.progress = .bound →
      HostStep h (.openDatabase n) (h.move n p .opened)
  -- `CREATE TABLE` fails if there is one
  | createTable {h : Host} {n : ℕ} {p : Process} :
      h.process n = some p → p.progress = .opened → h.database p.opts.database = .noTable →
      HostStep h (.createTable n) ((h.move n p (.serving .fresh)).store p.opts.database [])
  -- a handler sees the rows that the file has then
  | serve {h : Host} {n : ℕ} {p : Process} {s u : State} {rows : List Row} {a : Action} :
      h.process n = some p → p.progress = .serving s →
      h.database p.opts.database = .rtevents rows → Step (s.withRows rows) a u →
      HostStep h (.serve n a) ((h.move n p (.serving u)).store p.opts.database u.rows)
  -- an `unwrap` fails, or somebody kills the daemon
  | exit {h : Host} {n : ℕ} {p : Process} :
      h.process n = some p → HostStep h (.exit n) (h.move n p .exited)
  | removeSocket {h : Host} {path : String} :
      HostStep h (.removeSocket path)
        { h with listener := Function.update h.listener path none }

end PhasicJ.Daemon
