import DumpCollector.OpenPower.Manager

namespace DumpCollector.OpenPower.Resource

open Std Lib.Effects Lib.Maps Lib.Runs FileNames Entries Requests Manager
open State (Construction)

structure ResourceEntry where
  base : Entries.Entry
  sourceDumpId : Nat
  vspString : String
  userChallenge : String
  offloadUri : String

structure ResourceDumps where
  entries : ExtTreeMap Nat ResourceEntry
  lastEntryId : Nat
  deleteRequests : List Nat
  reported : List Exn

abbrev ResourceOp (α : Type) := EStateM Failure ResourceDumps α

section Entries

def newResource (id timeStamp size sourceId : Nat) (vspStr usrChallenge : String) (status : OperationStatus)
    (originatorId : String) (originatorType : OriginatorTypes) : ResourceEntry :=
  ⟨.new id timeStamp size none status originatorId originatorType, sourceId, vspStr, usrChallenge, ""⟩

def update (timeStamp size sourceId : Nat) (e : ResourceEntry) : ResourceEntry :=
  { e with
    base := { e.base with elapsed := timeStamp, size := size, status := .Completed, completedTime := timeStamp }
    sourceDumpId := sourceId }

/-- The state of the host is read over D-Bus, which can fail. -/
def isHostRunning (reading : Option Bool) : ResourceOp Bool :=
  match reading with
  | some running => pure running
  | none => throw (.error .sdBusError)

/-- The host can be read twice while an entry is deleted. -/
structure Readings where
  first : Option Bool
  second : Option Bool

def requestDelete (transport : Transport) (sourceId : Nat) : ResourceOp Unit := do
  modify fun s => { s with deleteRequests := s.deleteRequests ++ [sourceId] }
  throwIf (!transport.requestDelete sourceId) (.error .unavailable)

/-- The first reading is made only if the dump is being offloaded. -/
def offloading (readings : Readings) (e : ResourceEntry) : ResourceOp Bool :=
  if e.offloadUri = "" then pure false else isHostRunning readings.first

def delete_ (readings : Readings) (transport : Transport) (e : ResourceEntry) : ResourceOp Unit := do
  let offloadInProgress ← offloading readings e
  throwIf offloadInProgress (.error .unavailable)
  let running ← isHostRunning readings.second
  whenever (running && e.sourceDumpId ≠ INVALID_SOURCE_ID) (requestDelete transport e.sourceDumpId)
  modify fun s => { s with entries := s.entries.erase e.base.id }

def initiateOffload (reading : Option Bool) (transport : Transport) (id : Nat) (e : ResourceEntry) (uri : String) :
    ResourceOp Unit := do
  let running ← isHostRunning reading
  throwIf (!running) .notAllowed
  modify fun s => { s with entries := s.entries.insert id { e with offloadUri := uri } }
  throwIf (!transport.requestOffload e.sourceDumpId) (.error .sdBusError)

end Entries

section Notify

variable (originators : OriginatorTable) (dumpId size : Nat)

def pending (e : ResourceEntry) : Prop := e.base.status = .InProgress ∧ e.sourceDumpId = INVALID_SOURCE_ID

instance decidablePending (e : ResourceEntry) : Decidable (pending e) := inferInstanceAs (Decidable (_ ∧ _))

def announced (e : ResourceEntry) : Prop := e.sourceDumpId = dumpId ∧ e.base.status = .Completed

instance decidableAnnounced (e : ResourceEntry) : Decidable (announced dumpId e) :=
  inferInstanceAs (Decidable (_ ∧ _))

/-- The loop of notify: it returns at a completed entry of the dump, and otherwise hands on
the first pending entry. -/
def look : Option Nat → List (Nat × ResourceEntry) → Looked
  | upEntry, [] => .finished upEntry
  | upEntry, (key, e) :: rest =>
      if announced dumpId e then .returned
      else if pending e ∧ upEntry = none then look (some key) rest
      else look upEntry rest

def nextId (s : ResourceDumps) : Nat := uint32 (s.lastEntryId + 1)

def addEntry (e : Nat → ResourceEntry) : ResourceOp Unit :=
  modify fun s => { s with entries := s.entries.insertIfNew (nextId s) (e (nextId s)), lastEntryId := nextId s }

def notify (timeStamp : Nat) (construction : Construction) : ResourceOp Unit := do
  let s ← get
  match look dumpId none s.entries.toList with
  | .returned => pure ()
  | .finished (some key) =>
      modify fun s => { s with entries := s.entries.alter key (Option.map (update timeStamp size dumpId)) }
  | .finished none =>
      match construction with
      | .done => addEntry fun id => newResource id timeStamp size dumpId "" "" .Completed "" originators.Internal
      | .invalidArgument => modify fun s => { s with reported := s.reported ++ [.internalFailure] }
      | .failed => throw (.error .sdBusError)

end Notify

section CreateDump

variable (originators : OriginatorTable)

inductive ResourceParameters
  | VSPString
  | Password

def convertCreateParametersToString : ResourceParameters → String
  | .VSPString => "com.ibm.Dump.Create.CreateParameters.VSPString"
  | .Password => "com.ibm.Dump.Create.CreateParameters.Password"

def textParameter (params : DumpCreateParams) (parameter : ResourceParameters) (argumentName : String) :
    ResourceOp String :=
  match params[convertCreateParametersToString parameter]? with
  | some (.str value) => pure value
  | some (.num _) => throw (.error (.invalidArgument argumentName "INVALID INPUT"))
  | none => pure ""

structure Request where
  params : DumpCreateParams
  running : Option Bool
  timeStamp : Nat
  construction : Construction

def createDump (r : Request) : ResourceOp Unit := do
  let running ← isHostRunning r.running
  throwIf (!running) .notAllowed
  let vspString ← textParameter r.params .VSPString "VSP_STRING"
  let pwd ← textParameter r.params .Password "PASSWORD"
  let (originatorId, originatorType) ←
    fromExcept ((extractOriginatorProperties originators r.params).mapError Failure.error)
  match r.construction with
  | .done => addEntry fun id =>
      newResource id r.timeStamp 0 INVALID_SOURCE_ID vspString pwd .InProgress originatorId originatorType
  | .invalidArgument => throw (.error .internalFailure)
  | .failed => throw (.error .sdBusError)

end CreateDump

section Run

variable (originators : OriginatorTable)

def deleteAll (readings : Nat → Readings) (transport : Transport) : ResourceOp Unit := do
  let s ← get
  forM s.entries.toList fun x => delete_ (readings x.1) transport x.2

inductive Event
  | notify (dumpId size timeStamp : Nat) (construction : Construction)
  | createDump (r : Request)
  | delete (readings : Readings) (transport : Transport) (id : Nat)
  | deleteAll (readings : Nat → Readings) (transport : Transport)
  | initiateOffload (running : Option Bool) (transport : Transport) (id : Nat) (uri : String)

/-- An exception is reported to the caller. A method of an entry is called only while the
entry exists. -/
def step (s : ResourceDumps) : Event → Option ResourceDumps
  | .notify dumpId size timeStamp construction =>
      some (final (notify originators dumpId size timeStamp construction s))
  | .createDump r => some (final (createDump originators r s))
  | .delete readings transport id => s.entries[id]?.map fun e => final (delete_ readings transport e s)
  | .deleteAll readings transport => some (final (deleteAll readings transport s))
  | .initiateOffload running transport id uri =>
      s.entries[id]?.map fun e => final (initiateOffload running transport id e uri s)

def started : ResourceDumps := ⟨∅, 0, [], []⟩

end Run

end DumpCollector.OpenPower.Resource
