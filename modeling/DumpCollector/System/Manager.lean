import DumpCollector.Dispatch

namespace DumpCollector.System.Manager

open Std Lib.Directory Lib.Effects Entries FileNames Requests State Dispatch

structure SystemEntry where
  base : Entries.Entry
  dumpType : String
  progress : Nat
  progressTimer : Option Bool
  entryProcessGroupID : Int

instance dumpEntry : DumpEntry SystemEntry where
  base e := e.base
  file e := e.base.file
  setFailedStatus e := { e with base := { e.base with status := .Failed } }
  base_setFailedStatus _ := rfl
  file_setFailedStatus _ := rfl

/-- The object that shows the state of the retimer; the debug mode is kept only where
the command reached the device. -/
structure RetimerState where
  enabled : Bool
  debugMode : Bool

def RetimerState.setDebugMode (value written : Bool) (s : RetimerState) : RetimerState :=
  { enabled := value, debugMode := if written then value else s.debugMode }

structure Own where
  dumpInProgress : ExtTreeSet String
  retimerState : RetimerState

def setDebugMode (value written : Bool) (own : Own) : Own :=
  { own with retimerState := own.retimerState.setDebugMode value written }

def insertType (dumpType : String) (own : Own) : Own :=
  { own with dumpInProgress := own.dumpInProgress.insert dumpType }

def eraseType (dumpType : String) (own : Own) : Own :=
  { own with dumpInProgress := own.dumpInProgress.erase dumpType }

structure Config where
  plat : Platform
  originators : OriginatorTable
  SYSTEM_DUMP_MAX_LIMIT : Nat
  SYSTEM_DUMP_TOTAL_SIZE : Int
  SYSTEM_DUMP_MAX_SIZE : Int
  SYSTEM_DUMP_MIN_SPACE_REQD : Nat
  JFFS_SPACE_CALC_INACCURACY_OFFSET_WORKAROUND_PERCENT : Nat
  FAULTLOG_DUMP_EXTENSION : Bool

def defaultConfig : Config where
  plat := .bits32
  originators := ⟨[], 0⟩
  SYSTEM_DUMP_MAX_LIMIT := 10
  SYSTEM_DUMP_TOTAL_SIZE := 1024
  SYSTEM_DUMP_MAX_SIZE := 500
  SYSTEM_DUMP_MIN_SPACE_REQD := 50
  JFFS_SPACE_CALC_INACCURACY_OFFSET_WORKAROUND_PERCENT := 2
  FAULTLOG_DUMP_EXTENSION := false

abbrev SystemOp (α : Type) := Op SystemEntry Own String α

abbrev SystemDaemon := Daemon SystemEntry Own String

/-- The space of the partition is asked for twice, and either call can fail. -/
structure Space where
  capacity : Option Nat
  available : Option Nat

structure Request where
  params : DumpCreateParams
  space : Space
  retimerWritten : Bool
  fork : Fork
  timeStamp : Nat
  entryProcessGroupID : Int
  construction : Construction

structure FileEvent where
  watchInstalled : Bool
  construction : Construction
  retimerWritten : Bool
  originatorType : OriginatorTypes
  entryProcessGroupID : Int

def diagnosticRequest (diagnosticType : String) (pid : Nat) : Request where
  params := (∅ : DumpCreateParams).insert "DiagnosticType" (.str diagnosticType)
  space := ⟨some (2 ^ 30), some (2 ^ 30)⟩
  retimerWritten := true
  fork := ⟨some pid, true⟩
  timeStamp := 1000000
  entryProcessGroupID := 0
  construction := .done

variable (cfg : Config)

def create (id timeStamp fileSize : Nat) (file : Option Path) (status : OperationStatus)
    (originatorId : String) (originatorType : OriginatorTypes) (entryProcessGroupID : Int) : SystemEntry :=
  { base := .new id timeStamp fileSize file status originatorId originatorType
    dumpType := ""
    progress := 0
    progressTimer := none
    entryProcessGroupID := entryProcessGroupID }

def createWithType (id timeStamp fileSize : Nat) (file : Option Path) (status : OperationStatus)
    (originatorId : String) (originatorType : OriginatorTypes) (entryProcessGroupID : Int)
    (diagnosticType : String) : SystemEntry :=
  { create id timeStamp fileSize file status originatorId originatorType entryProcessGroupID with
    dumpType := diagnosticType
    progressTimer := if status = .InProgress then some true else none }

def update (e : SystemEntry) (timeStamp fileSize : Nat) (filePath : Path) : SystemEntry :=
  { e with
    base := { e.base with
      elapsed := timeStamp
      size := fileSize
      status := .Completed
      file := some filePath
      completedTime := timeStamp } }

section CreateDump

/-- The guard of createDump: the same dump is running, or the other one of the two
retimer dumps. -/
def running (dumpInProgress : ExtTreeSet String) (dumpType : String) : Bool :=
  dumpInProgress.contains dumpType ||
    (dumpInProgress.contains "RetLTSSM" && dumpType = "RetRegister") ||
    (dumpInProgress.contains "RetRegister" && dumpType = "RetLTSSM")

def uintmaxFailed : Nat := 2 ^ 64 - 1

/-- The free kilobytes of the partition, with a share of its capacity taken off. Only
the error code of the last call is looked at. -/
def spaceLeft (percent : Nat) (space : Space) : Except Exn Nat :=
  let available := space.available.getD uintmaxFailed
  let sizeLeftKb :=
    if percent = 0 then available / 1024
    else
      let offset := uint64 (space.capacity.getD uintmaxFailed * percent) / 100
      if offset ≤ available then (available - offset) / 1024 else 0
  match space.available with
  | some _ => .ok sizeLeftKb
  | none => .error .internalFailure

def checkSpace (percent required : Nat) (space : Space) : Except Exn Unit := do
  let sizeLeftKb ← spaceLeft percent space
  if sizeLeftKb < required then .error (.quotaExceeded "Not enough space: Delete old dumps")
  else .ok ()

def int32 (n : Int) : Int := n.bmod (2 ^ 32)

/-- The accumulator is an int, to which each size of a file is added. -/
def directorySize (disk : FileTree Content) : Int :=
  disk.nodes.toList.foldl (fun size node =>
    match node.2 with
    | .file content => int32 (size + content.size)
    | .dir => size) 0

/-- The constant is an int if its value is in the range of one and a long otherwise, and
so is the difference. -/
def sizeLeft (totalSize used : Int) : Except Exn Int :=
  if totalSize < used then .ok 0
  else if totalSize - used < (if totalSize < 2 ^ 31 then 2 ^ 31 else 2 ^ 63) then .ok (totalSize - used)
  else .error .signedOverflow

def allowedSize (totalSize maxSize : Int) (required : Nat) (disk : FileTree Content) : Except Exn Int := do
  if disk.isDirectory [] = false then .error .filesystemError
  else
    let left ← sizeLeft totalSize ((directorySize disk).tdiv 1024)
    -- the result of the conditional is assigned to the int again
    let size := int32 left
    if size < required then .error (.quotaExceeded "Not enough space: Delete old dumps")
    else .ok (min size maxSize)

def getAllowedSize (disk : FileTree Content) : Except Exn Int :=
  allowedSize cfg.SYSTEM_DUMP_TOTAL_SIZE cfg.SYSTEM_DUMP_MAX_SIZE cfg.SYSTEM_DUMP_MIN_SPACE_REQD disk

def recognized : List String :=
  ["SelfTest", "FPGA", "EROT", "ROT", "RetLTSSM", "MCU", "RetRegister", "FirmwareAttributes",
    "HardwareCheckout", "Net_NVLinkManagementNIC", "Net_NVSwitch", "Net_GPU_SXM"]

def checkCapture (r : Request) (disk : FileTree Content) : Except Exn String := do
  checkSpace cfg.JFFS_SPACE_CALC_INACCURACY_OFFSET_WORKAROUND_PERCENT cfg.SYSTEM_DUMP_MIN_SPACE_REQD r.space
  let _ ← getAllowedSize cfg disk
  let diagnosticType ← getString r.params "DiagnosticType"
  let _ ← getString r.params "DeviceID"
  if diagnosticType ≠ "" ∧ diagnosticType ∉ recognized then
    .error (.invalidArgument "DiagnosticType" diagnosticType)
  else if cfg.FAULTLOG_DUMP_EXTENSION = true ∧ diagnosticType = "SelfTest" then
    .error (.invalidArgument "DiagnosticType" diagnosticType)
  else .ok diagnosticType

def checkRunning (r : Request) (own : Own) : Except Exn String := do
  let dumpType ← getString r.params "DiagnosticType"
  if running own.dumpInProgress dumpType then .error .unavailable else .ok dumpType

def captureDump (r : Request) : SystemOp Nat := do
  let s ← get
  let diagnosticType ← fromExcept (checkCapture cfg r s.disk)
  whenever (diagnosticType = "RetLTSSM") (modifyOwn (setDebugMode true r.retimerWritten))
  modifyOwn (insertType diagnosticType)
  forkCollector r.fork diagnosticType (eraseType diagnosticType)

def construct (r : Request) (id : Nat) : Except Exn SystemEntry := do
  let (originatorId, originatorType) ← extractOriginatorProperties cfg.originators r.params
  let diagnosticType ← getString r.params "DiagnosticType"
  match r.construction with
  | .done => .ok (createWithType id r.timeStamp 0 none .InProgress originatorId originatorType
      r.entryProcessGroupID diagnosticType)
  | .invalidArgument => .error .internalFailure
  | .failed => .error .sdBusError

def createDump (r : Request) : SystemOp Nat := do
  limitDumpEntries cfg.SYSTEM_DUMP_MAX_LIMIT
  let s ← get
  let _ ← fromExcept (checkRunning r s.own)
  let id ← captureDump cfg r
  let e ← fromExcept (construct cfg r id)
  insertEntry id e
  pure id

def childEnded (diagnosticType : String) (own : Own) : Own := eraseType diagnosticType own

end CreateDump

section Files

def insertConstructed (id : Nat) (construction : Construction) (e : SystemEntry) : SystemOp Unit :=
  match construction with
  | .done => insertEntry id e
  | .invalidArgument => pure ()
  | .failed => throw .sdBusError

def completed (io : FileEvent) (dumpType : String) (own : Own) : Own :=
  if dumpType = "RetLTSSM" then eraseType dumpType (setDebugMode false io.retimerWritten own)
  else eraseType dumpType own

def completeEntry (io : FileEvent) (id timestamp fileSize : Nat) (file : Path) (e : SystemEntry) : SystemOp Unit := do
  modify fun s => { s with entries := s.entries.insert id (some (update e timestamp fileSize file)) }
  modifyOwn (completed io e.dumpType)

/-- An empty slot is passed over here, but the insertion then finds its key taken. -/
def createEntry (io : FileEvent) (file : Path) : SystemOp Unit := do
  let details ← fromExcept (parseName cfg.plat (filename file))
  match details with
  | none => pure ()
  | some (id, timestamp) => do
      let s ← get
      let size ← fileSize file
      match s.entries[uint32 id]? with
      | some (some e) => completeEntry io (uint32 id) timestamp size file e
      | _ =>
          insertConstructed (uint32 id) io.construction
            (create (uint32 id) timestamp size (some file) .Completed "" io.originatorType io.entryProcessGroupID)

def systemOps : Ops SystemEntry Own String Request FileEvent where
  createDump r := some <$> createDump cfg r
  fork r := r.fork
  createEntry := createEntry cfg
  watchInstalled io := io.watchInstalled
  childEnded := childEnded

end Files

section Restore

structure Listing where
  names : Path → List String
  events : Path → FileEvent

/-- Only the file that a directory lists first is looked at. -/
def restoreDirectory (listing : Listing) (idStr : String) : SystemOp Unit := do
  let s ← get
  if s.disk.isDirectory [idStr] = true ∧ idStr.toList.all Char.isDigit = true then do
    let id ← fromExcept (stoul cfg.plat idStr.toList)
    modify fun s => { s with lastEntryId := max s.lastEntryId (uint32 id) }
    match listing.names [idStr] with
    | name :: _ => createEntry cfg (listing.events [idStr, name]) [idStr, name]
    | [] => pure ()
  else pure ()

def restore (listing : Listing) : SystemOp Unit := do
  let s ← get
  if s.disk.isDirectory [] = true then forM (listing.names []) (restoreDirectory cfg listing) else pure ()

def Started (s : SystemDaemon) : Prop :=
  ∃ disk listing u, disk.isDirectory [] = true ∧ (∀ p, (listing.names p).Perm (disk.children p)) ∧
    restore cfg listing (bare ⟨∅, ⟨false, false⟩⟩ disk) = .ok u s

theorem started_root : Started cfg (bare ⟨∅, ⟨false, false⟩⟩ .root) :=
  ⟨.root, ⟨FileTree.children .root, fun _ => ⟨true, .done, false, 0, 0⟩⟩, (), rfl, fun _ => .rfl, rfl⟩

end Restore

end DumpCollector.System.Manager
