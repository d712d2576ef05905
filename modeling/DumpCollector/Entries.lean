import DumpCollector.Lib.Directory
import DumpCollector.Requests

namespace DumpCollector.Entries

open Lib.Directory Requests

inductive OperationStatus
  | InProgress
  | Completed
  | Failed
  | Aborted
  deriving DecidableEq

/-- The data of the base class. The path of the dump file is relative to the dump
directory of the manager, and absent where the source stores an empty path. -/
structure Entry where
  id : Nat
  originatorId : String
  originatorType : OriginatorTypes
  size : Nat
  status : OperationStatus
  elapsed : Nat
  startTime : Nat
  completedTime : Nat
  file : Option Path
  deriving DecidableEq

def Entry.new (dumpId timeStamp dumpSize : Nat) (file : Option Path) (dumpStatus : OperationStatus)
    (originId : String) (originType : OriginatorTypes) : Entry :=
  { id := dumpId
    originatorId := originId
    originatorType := originType
    size := dumpSize
    status := dumpStatus
    elapsed := if dumpStatus = .Completed then timeStamp else 0
    startTime := timeStamp
    completedTime := if dumpStatus = .Completed then timeStamp else 0
    file := file }

@[simp] theorem new_id (dumpId timeStamp dumpSize : Nat) (file : Option Path) (dumpStatus : OperationStatus)
    (originId : String) (originType : OriginatorTypes) :
    (Entry.new dumpId timeStamp dumpSize file dumpStatus originId originType).id = dumpId := rfl

@[simp] theorem new_status (dumpId timeStamp dumpSize : Nat) (file : Option Path)
    (dumpStatus : OperationStatus) (originId : String) (originType : OriginatorTypes) :
    (Entry.new dumpId timeStamp dumpSize file dumpStatus originId originType).status = dumpStatus := rfl

@[simp] theorem new_file (dumpId timeStamp dumpSize : Nat) (file : Option Path)
    (dumpStatus : OperationStatus) (originId : String) (originType : OriginatorTypes) :
    (Entry.new dumpId timeStamp dumpSize file dumpStatus originId originType).file = file := rfl

/-- What the managers use of an entry class: the data of the base class, the member
`file` that the class's own functions act on, and the setter of the failed status. -/
class DumpEntry (E : Type) where
  base : E → Entry
  file : E → Option Path
  setFailedStatus : E → E
  base_setFailedStatus : ∀ e, base (setFailedStatus e) = { base e with status := .Failed }
  file_setFailedStatus : ∀ e, file (setFailedStatus e) = file e

attribute [simp] DumpEntry.base_setFailedStatus DumpEntry.file_setFailedStatus

end DumpCollector.Entries
