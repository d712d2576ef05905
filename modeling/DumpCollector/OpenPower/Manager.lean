import DumpCollector.Lib.Runs
import DumpCollector.State

namespace DumpCollector.OpenPower.Manager

open Std Lib.Effects Lib.Maps Lib.Directory FileNames Entries Requests
open State (Construction)

def INVALID_SOURCE_ID : Nat := 0xFFFFFFFF

structure SystemEntry where
  base : Entries.Entry
  sourceDumpId : Nat
  offloadUri : String
  deriving DecidableEq

/-- The entries of the manager, the source ids of the dumps that the host was asked to delete,
and the errors that were reported but not thrown. -/
structure SystemDumps where
  entries : ExtTreeMap Nat SystemEntry
  lastEntryId : Nat
  deleteRequests : List Nat
  reported : List Exn

/-- What can leave a function; a read of an entry that has been erased is undefined, and
what follows it is not looked at. -/
inductive Failure
  | error (e : Exn)
  | notAllowed
  | freedEntry
  deriving DecidableEq

/-- Whether the requests for a source id can be sent to the host. -/
structure Transport where
  requestOffload : Nat → Bool
  requestDelete : Nat → Bool

abbrev SystemOp (α : Type) := EStateM Failure SystemDumps α

section Entries

variable (running : Bool) (transport : Transport)

def newEntry (id timeStamp size sourceId : Nat) (status : OperationStatus) (originatorId : String)
    (originatorType : OriginatorTypes) : SystemEntry :=
  ⟨.new id timeStamp size none status originatorId originatorType, sourceId, ""⟩

def updated (timeStamp size sourceId : Nat) (e : SystemEntry) : SystemEntry :=
  { e with
    base := { e.base with elapsed := timeStamp, size := size, status := .Completed, completedTime := timeStamp }
    sourceDumpId := sourceId }

def erase (id : Nat) : SystemOp Unit := modify fun s => { s with entries := s.entries.erase id }

def report (e : Exn) : SystemOp Unit := modify fun s => { s with reported := s.reported ++ [e] }

def requestDelete (sourceId : Nat) : SystemOp Unit := do
  modify fun s => { s with deleteRequests := s.deleteRequests ++ [sourceId] }
  throwIf (!transport.requestDelete sourceId) (.error .unavailable)

def delete_ (e : SystemEntry) : SystemOp Unit := do
  throwIf (e.offloadUri ≠ "" && running) (.error .unavailable)
  whenever (running && e.sourceDumpId ≠ INVALID_SOURCE_ID) (requestDelete transport e.sourceDumpId)
  erase e.base.id

def initiateOffload (id : Nat) (e : SystemEntry) (uri : String) : SystemOp Unit := do
  modify fun s => { s with entries := s.entries.insert id { e with offloadUri := uri } }
  throwIf (!transport.requestOffload e.sourceDumpId) (.error .sdBusError)

end Entries

section Notify

variable (originators : OriginatorTable) (running : Bool) (transport : Transport) (dumpId size : Nat)

/-- How the loop over the entries ends: with a return, or with the entry to update. -/
inductive Looked
  | returned
  | finished (upEntry : Option Nat)

/-- The loop of notify. A stale entry is deleted, which frees it; the loop then reads its
source id and goes on from it to the next entry. -/
def look : Option Nat → List (Nat × SystemEntry) → SystemOp Looked
  | upEntry, [] => pure (.finished upEntry)
  | upEntry, (key, e) :: rest =>
      if e.sourceDumpId = dumpId ∧ e.base.size = size then
        if e.base.status = .Completed then pure .returned else pure (.finished (some key))
      else if e.sourceDumpId = dumpId then do
        delete_ running transport e
        throw .freedEntry
      else if e.sourceDumpId = INVALID_SOURCE_ID ∧ upEntry = none then look (some key) rest
      else look upEntry rest

def nextId (s : SystemDumps) : Nat := uint32 (s.lastEntryId + 1)

def addEntry (e : Nat → SystemEntry) : SystemOp Unit :=
  modify fun s => { s with entries := s.entries.insertIfNew (nextId s) (e (nextId s)), lastEntryId := nextId s }

def notify (timeStamp : Nat) (construction : Construction) : SystemOp Unit := do
  let s ← get
  match ← look running transport dumpId size none s.entries.toList with
  | .returned => pure ()
  | .finished (some key) =>
      modify fun s => { s with entries := s.entries.alter key (Option.map (updated timeStamp size dumpId)) }
  | .finished none =>
      match construction with
      | .done => addEntry fun id => newEntry id timeStamp size dumpId .Completed "" originators.Internal
      | .invalidArgument => report .internalFailure
      | .failed => throw (.error .sdBusError)

end Notify

section Run

variable (originators : OriginatorTable) (running : Bool)

/-- What createDump meets: whether a dump is in progress, whether the state of the host
allows one, if it can be determined, and whether the unit is started. -/
structure Request where
  params : DumpCreateParams
  dumpInProgress : Bool
  allowed : Option Bool
  unitStarted : Bool
  timeStamp : Nat
  construction : Construction

def createDump (r : Request) : SystemOp Unit := do
  throwIf r.dumpInProgress (.error .unavailable)
  match r.allowed with
  | none => pure ()
  | some false => throw .notAllowed
  | some true => do
      let (originatorId, originatorType) ←
        fromExcept ((extractOriginatorProperties originators r.params).mapError Failure.error)
      throwIf (!r.unitStarted) (.error .sdBusError)
      match r.construction with
      | .done => addEntry fun id =>
          newEntry id r.timeStamp 0 INVALID_SOURCE_ID .InProgress originatorId originatorType
      | .invalidArgument => throw (.error .internalFailure)
      | .failed => throw (.error .sdBusError)

def deleteAll (transport : Transport) : SystemOp Unit := do
  let s ← get
  forM s.entries.toList fun x => delete_ running transport x.2

inductive Event
  | notify (transport : Transport) (dumpId size timeStamp : Nat) (construction : Construction)
  | createDump (r : Request)
  | delete (transport : Transport) (id : Nat)
  | deleteAll (transport : Transport)
  | initiateOffload (transport : Transport) (id : Nat) (uri : String)

/-- An exception is reported to the caller; nothing is known after a read of a freed entry. -/
def reply : EStateM.Result Failure SystemDumps Unit → Option SystemDumps
  | .ok _ t => some t
  | .error .freedEntry _ => none
  | .error _ t => some t

def step (s : SystemDumps) : Event → Option SystemDumps
  | .notify transport dumpId size timeStamp construction =>
      reply (notify originators running transport dumpId size timeStamp construction s)
  | .createDump r => reply (createDump originators r s)
  | .delete transport id => s.entries[id]?.bind fun e => reply (delete_ running transport e s)
  | .deleteAll transport => reply (deleteAll running transport s)
  | .initiateOffload transport id uri =>
      s.entries[id]?.bind fun e => reply (initiateOffload transport id e uri s)

end Run

section Loop

variable {originators : OriginatorTable} {running : Bool} {transport : Transport} {dumpId size : Nat}

def sourceIs (sourceId : Nat) (x : Nat × SystemEntry) : Bool := x.2.sourceDumpId = sourceId

/-- The outcome of the loop is decided by the first entry with the source id; without one
it is the first pending entry. -/
theorem look_eq (upEntry : Option Nat) (xs : List (Nat × SystemEntry)) (s : SystemDumps) :
    look running transport dumpId size upEntry xs s =
      match xs.find? (sourceIs dumpId) with
      | some (key, e) =>
          if e.base.size = size then
            if e.base.status = .Completed then .ok .returned s else .ok (.finished (some key)) s
          else (do delete_ running transport e; throw .freedEntry : SystemOp Looked) s
      | none => .ok (.finished (upEntry.or ((xs.find? (sourceIs INVALID_SOURCE_ID)).map Prod.fst))) s := by
  induction xs generalizing upEntry with
  | nil => cases upEntry <;> rfl
  | cons x rest ih =>
      obtain ⟨key, e⟩ := x
      by_cases hsource : e.sourceDumpId = dumpId
      · rw [List.find?_cons_of_pos (by simp [sourceIs, hsource]), look]
        by_cases hsize : e.base.size = size
        · simp only [hsource, hsize, true_and, if_true]
          split <;> rfl
        · simp only [hsource, hsize, and_false, if_false, if_true]
      · rw [List.find?_cons_of_neg (by simp [sourceIs, hsource]), look]
        simp only [hsource, false_and, if_false]
        by_cases hpending : e.sourceDumpId = INVALID_SOURCE_ID
        · rw [List.find?_cons_of_pos (p := sourceIs INVALID_SOURCE_ID) (by simp [sourceIs, hpending])]
          cases upEntry with
          | none => rw [if_pos ⟨hpending, rfl⟩, ih]; rfl
          | some up => rw [if_neg (by simp), ih]; rfl
        · rw [List.find?_cons_of_neg (p := sourceIs INVALID_SOURCE_ID) (by simp [sourceIs, hpending]),
            if_neg fun h => hpending h.1, ih]

end Loop

end DumpCollector.OpenPower.Manager
