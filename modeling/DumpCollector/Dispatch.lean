import DumpCollector.Lib.Runs
import DumpCollector.State

namespace DumpCollector.Dispatch

open Std Lib.Directory Lib.Effects Lib.Maps Entries Inotify Requests State

/-- What a manager adds to the code that all managers share. The types of its requests
and of the events of its watches carry the outcomes that the environment decides. A request
returns the id of the entry whose path it returns, if it is that of an entry. -/
structure Ops (E X C R I : Type) where
  createDump : R → Op E X C (Option Nat)
  fork : R → Fork
  createEntry : I → Path → Op E X C Unit
  watchInstalled : I → Bool
  childEnded : C → X → X

inductive FileStep
  | mkdir (dir : Path) (name : String)
  | openFile (dir : Path) (name : String)
  | writeFile (dir : Path) (name : String) (content : Content)
  | closeFile (dir : Path) (name : String)
  | removeAll (p : Path)

inductive Event (R I : Type)
  | createDump (r : R)
  | delete (id : Nat)
  | deleteAll
  | files (f : FileStep)
  | exits (pid status : Nat)
  | stops (pid signal : Nat)
  | continues (pid : Nat)
  | watchReady (p : Path)
  | handle (io : I)
  | childNotification (pid : Nat)

variable {E X C R I : Type} [DumpEntry E] (ops : Ops E X C R I)

def watchItem (io : I) (path : Path) (mask : Nat) : Op E X C Unit := do
  let s ← get
  if mask = IN_CLOSE_WRITE then
    if s.disk.isDirectory path = false then do
      removeWatch path.dropLast
      ops.createEntry io path
    else removeWatch path
  else if mask = IN_CREATE ∧ s.disk.isDirectory path = true then do
    throwIf (!ops.watchInstalled io) .internalFailure
    emplaceWatch path
  else pure ()

def childCallback (pid siStatus : Nat) (c : Collector C) : Op E X C Unit := do
  whenever (siStatus ≠ 0) (createDumpFailed c.entryId)
  modify fun s => { s with own := ops.childEnded c.kind s.own, childPtrMap := s.childPtrMap.erase pid }

/-- An exception that leaves a method call is reported to the caller, and the daemon
goes on; the dereference of an empty pointer ends it. -/
def reply {α : Type} : EStateM.Result Exn (Daemon E X C) α → Option (Daemon E X C)
  | .ok _ t => some t
  | .error .nullDereference _ => none
  | .error _ t => some t

/-- An exception that leaves a callback of the event loop ends the daemon. -/
def dispatched {α : Type} : EStateM.Result Exn (Daemon E X C) α → Option (Daemon E X C)
  | .ok _ t => some t
  | .error _ _ => none

def files (s : Daemon E X C) : FileStep → Daemon E X C
  | .mkdir dir name => s.mkdir dir name
  | .openFile dir name => s.openFile dir name
  | .writeFile dir name content => s.writeFile dir name content
  | .closeFile dir name => s.closeFile dir name
  | .removeAll p => s.removeAll p

def changeState (s : Daemon E X C) (pid : Nat) (p : Process C) (state : ProcessState) : Daemon E X C :=
  { s with procs := s.procs.insert pid { p with state := state } }

def siStatus : ProcessState → Option Nat
  | .running => none
  | .stopped signal => some signal
  | .exited status => some status

/-- A child that has exited is reaped after its callback. -/
def reap (pid : Nat) (state : ProcessState) (s : Daemon E X C) : Daemon E X C :=
  match state with
  | .exited _ => { s with procs := s.procs.erase pid }
  | _ => s

def watchAt (s : Daemon E X C) (p : Path) : Option Watch :=
  if p = [] then some s.dumpWatch else s.childWatchMap[p]?

def setWatch (s : Daemon E X C) (p : Path) (w : Watch) : Daemon E X C :=
  if p = [] then { s with dumpWatch := w } else { s with childWatchMap := s.childWatchMap.insert p w }

/-- One step of the daemon or of a process around it. While the daemon goes through
the map of a watch callback it handles no other event, but the other processes run. -/
def step (s : Daemon E X C) : Event R I → Option (Daemon E X C)
  | .createDump r =>
      if s.todo = [] ∧ (ops.fork r).fresh s = true then reply (ops.createDump r s) else none
  | .delete id =>
      if s.todo = [] ∧ (s.entries[id]?.getD none).isSome then reply (deleteAt id s) else none
  | .deleteAll => if s.todo = [] then reply (deleteAll s) else none
  | .files f => some (files s f)
  | .exits pid status =>
      match s.procs[pid]? with
      | some ⟨_, .exited _⟩ => none
      | some p => some (changeState s pid p (.exited status))
      | none => none
  | .stops pid signal =>
      match s.procs[pid]? with
      | some ⟨c, .running⟩ => if signal = 0 then none else some (changeState s pid ⟨c, .running⟩ (.stopped signal))
      | _ => none
  | .continues pid =>
      match s.procs[pid]? with
      | some ⟨c, .stopped signal⟩ => some (changeState s pid ⟨c, .stopped signal⟩ .running)
      | _ => none
  | .watchReady p =>
      if s.todo = [] then
        (watchAt s p).map fun w => { setWatch s p w.callback.1 with todo := w.callback.2.toList }
      else none
  | .handle io =>
      match s.todo with
      | [] => none
      | (path, mask) :: rest => dispatched (watchItem ops io path mask { s with todo := rest })
  | .childNotification pid =>
      if s.todo = [] then
        match s.childPtrMap[pid]?, s.procs[pid]? with
        | some c, some p =>
            match siStatus p.state with
            | some status => (dispatched (childCallback ops pid status c s)).map (reap pid p.state)
            | none => none
        | _, _ => none
      else none

end DumpCollector.Dispatch
