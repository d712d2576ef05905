import DumpCollector.Lib.Effects

namespace DumpCollector.Nsm.NetDump

open Lib.Effects

def MAX_IN_PROGRESS_COUNT : Nat := 1000

def MAX_ERROR_COUNT : Nat := 3

inductive OperationStatus
  | Success
  | InProgress
  | Error
  deriving DecidableEq

inductive DeviceTypeData
  | NVSwitch
  | NVLinkMgmtNIC_Dump
  | NVLinkMgmtNIC_Log
  | GPU_SXM
  deriving DecidableEq

structure Target where
  dataType : DeviceTypeData
  index : UInt8
  deriving DecidableEq

/-- What reading a descriptor to its end returns, one read after the other; a read that
returns bytes returns at least one. -/
inductive Reads
  | bytes (first : UInt8) (others : List UInt8) (rest : Reads)
  | endOfFile
  | failed
  deriving DecidableEq

def Reads.content : Reads → List UInt8
  | .bytes first others rest => first :: others ++ rest.content
  | .endOfFile | .failed => []

def Reads.toEndOfFile : Reads → Bool
  | .bytes _ _ rest => rest.toEndOfFile
  | .endOfFile => true
  | .failed => false

/-- What comes of a call: its reply, an error that is caught where the call is made, or
no connection to the bus, which nothing catches. -/
inductive Reply (α : Type)
  | answered (a : α)
  | failed
  | noBus

/-- A device, by what it answers to each call after a number of calls. -/
structure Device where
  requestRecord : Nat → Reply Unit
  status : Nat → Reply String
  fd : Nat → Reply Reads
  nextRecordHandle : Nat → Reply UInt64
  eraseDebugInfo : Nat → Reply Unit
  eraseDebugInfoStatus : Nat → Reply (String × String)

inductive Exchange
  | requestRecord (target : Target) (nextRecord : UInt64) (reply : Option Unit)
  | status (target : Target) (reply : Option String)
  | fd (target : Target) (reply : Option Reads)
  | nextRecordHandle (target : Target) (reply : Option UInt64)
  | eraseDebugInfo (target : Target) (reply : Option Unit)
  | eraseDebugInfoStatus (target : Target) (reply : Option (String × String))

def Exchange.target : Exchange → Target
  | .requestRecord target _ _ | .status target _ | .fd target _ | .nextRecordHandle target _
  | .eraseDebugInfo target _ | .eraseDebugInfoStatus target _ => target

structure Session where
  history : List Exchange
  output : List UInt8

def start : Session := ⟨[], []⟩

/-- What keeps a function from returning: an exception that nothing catches, or the
bound that is put on the number of records. -/
inductive Stop
  | noBus
  | unfinished

abbrev ToolM (α : Type) := EStateM Stop Session α

section Calls

def call {α : Type} (answer : Nat → Reply α) (exchange : Option α → Exchange) : ToolM (Option α) := do
  let s ← get
  match answer s.history.length with
  | .answered a => do
      modify fun s => { s with history := s.history ++ [exchange (some a)] }
      pure (some a)
  | .failed => do
      modify fun s => { s with history := s.history ++ [exchange none] }
      pure none
  | .noBus => throw .noBus

variable (dev : Device) (target : Target)

def sendRequestRecordCommand (nextRecord : UInt64) : ToolM OperationStatus := do
  let reply ← call dev.requestRecord (.requestRecord target nextRecord)
  pure (if reply.isSome then .Success else .Error)

def statusPrefix : DeviceTypeData → String
  | .NVLinkMgmtNIC_Log => "com.nvidia.Dump.LogInfo.OperationStatus."
  | .NVSwitch | .NVLinkMgmtNIC_Dump | .GPU_SXM => "com.nvidia.Dump.DebugInfo.OperationStatus."

def commandStatus (dataType : DeviceTypeData) (response : String) : OperationStatus :=
  if response = statusPrefix dataType ++ "Success" then .Success
  else if response = statusPrefix dataType ++ "InProgress" then .InProgress
  else .Error

def getRequestRecordCommandStatus : ToolM OperationStatus := do
  let reply ← call dev.status (.status target)
  pure ((reply.map (commandStatus target.dataType)).getD .Error)

/-- A failed query gives the value that also stands for the end of the chain. -/
def getNextRecord : ToolM UInt64 := do
  let reply ← call dev.nextRecordHandle (.nextRecordHandle target)
  pure (reply.getD 0)

/-- The loop over the reads ends alike at the end of the file and at an error. -/
def saveRecord : ToolM OperationStatus := do
  let reply ← call dev.fd (.fd target)
  match reply with
  | some reads => do
      modify fun s => { s with output := s.output ++ reads.content }
      pure .Success
  | none => pure .Error

def sendSwitchEraseCommand : ToolM OperationStatus := do
  let reply ← call dev.eraseDebugInfo (.eraseDebugInfo target)
  pure (if reply.isSome then .Success else .Error)

def eraseStatus (response : String × String) : OperationStatus :=
  if response.1 ≠ "com.nvidia.Dump.Erase.OperationStatus.Success" then .Error
  else if response.2 = "com.nvidia.Dump.Erase.EraseStatus.DataEraseInProgress" then .InProgress
  else if response.2 = "com.nvidia.Dump.Erase.EraseStatus.DataErased" then .Success
  else .Error

def getSwitchEraseStatus : ToolM OperationStatus := do
  let reply ← call dev.eraseDebugInfoStatus (.eraseDebugInfoStatus target)
  pure ((reply.map eraseStatus).getD .Error)

end Calls

section Retrieval

variable (dev : Device) (target : Target)

def requestRecord (nextRecord : UInt64) : Nat → OperationStatus → ToolM OperationStatus
  | 0, res => pure res
  | errors + 1, _ => do
      let res ← sendRequestRecordCommand dev target nextRecord
      if res = .Success then pure res else requestRecord nextRecord errors res

/-- The loop around the status of the request, with its counters of errors and of busy
replies. Each round but the last counts one, which bounds the number of rounds. -/
def awaitRecord : Nat → Nat → Nat → ToolM (Nat × Nat)
  | 0, errorCounter, busyCounter => pure (errorCounter, busyCounter)
  | rounds + 1, errorCounter, busyCounter =>
      if errorCounter < MAX_ERROR_COUNT ∧ busyCounter < MAX_IN_PROGRESS_COUNT then do
        let res ← getRequestRecordCommandStatus dev target
        match res with
        | .Success => pure (errorCounter, busyCounter)
        | .InProgress => awaitRecord rounds errorCounter (busyCounter + 1)
        | .Error => awaitRecord rounds (errorCounter + 1) busyCounter
      else pure (errorCounter, busyCounter)

def maxRounds : Nat := MAX_ERROR_COUNT + MAX_IN_PROGRESS_COUNT

def saveRequested : ToolM OperationStatus := do
  let counters ← awaitRecord dev target maxRounds 0 0
  if counters.1 = MAX_ERROR_COUNT then pure .InProgress
  else if counters.2 = MAX_IN_PROGRESS_COUNT then pure .InProgress
  else do
    let res ← saveRecord dev target
    pure (if res = .Success then .Success else .InProgress)

/-- The loop over the records, which all four functions share, for as many records as
the bound allows. -/
def retrieve : Nat → UInt64 → ToolM OperationStatus
  | 0, _ => throw .unfinished
  | records + 1, currentRecord => do
      let res ← requestRecord dev target currentRecord MAX_ERROR_COUNT .InProgress
      if res ≠ .Success then pure res
      else do
        let res ← saveRequested dev target
        if res ≠ .Success then pure res
        else do
          let currentRecord ← getNextRecord dev target
          if currentRecord ≠ 0 then retrieve records currentRecord else pure .Success

def erase : Nat → OperationStatus → Nat → Nat → ToolM OperationStatus
  | 0, res, _, _ => pure res
  | rounds + 1, res, errorCounter, busyCounter =>
      if errorCounter < MAX_ERROR_COUNT ∧ busyCounter < MAX_IN_PROGRESS_COUNT ∧ res ≠ .Success then do
        let res ← sendSwitchEraseCommand dev target
        if res ≠ .Success then erase rounds res (errorCounter + 1) busyCounter
        else do
          let res ← getSwitchEraseStatus dev target
          erase rounds res (errorCounter + if res = .Error then 1 else 0)
            (busyCounter + if res = .InProgress then 1 else 0)
      else pure res

end Retrieval

section Dumps

variable (dev : Device) (records : Nat)

def getSwitchDump (switchIndex : UInt8) : ToolM OperationStatus := do
  let res ← retrieve dev ⟨.NVSwitch, switchIndex⟩ records 0
  if res ≠ .Success then pure res
  else erase dev ⟨.NVSwitch, switchIndex⟩ maxRounds .InProgress 0 0

def getLinkMgmtNICDump : ToolM OperationStatus := retrieve dev ⟨.NVLinkMgmtNIC_Dump, 0⟩ records 0

def getLinkMgmtNICLog : ToolM OperationStatus := retrieve dev ⟨.NVLinkMgmtNIC_Log, 0⟩ records 0

def getGPUDump (GPUIndex : UInt8) : ToolM OperationStatus := retrieve dev ⟨.GPU_SXM, GPUIndex⟩ records 0

end Dumps

end DumpCollector.Nsm.NetDump
