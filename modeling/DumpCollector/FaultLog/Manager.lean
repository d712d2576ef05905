import DumpCollector.Dispatch

namespace DumpCollector.FaultLog.Manager

open Std Lib.Directory Lib.Effects Entries FileNames JsonText Requests State Dispatch

inductive CperField
  | notificationType
  | sectionType
  | fruid
  | severity
  | nvipSignature
  | nvSeverity
  | nvSocketNumber
  | pcieVendorID
  | pcieDeviceID
  | pcieClassCode
  | pcieFunctionNumber
  | pcieDeviceNumber
  | pcieSegmentNumber
  | pcieDeviceBusNumber
  | pcieSecondaryBusNumber
  | pcieSlotNumber
  deriving DecidableEq

abbrev CperDecode := CperField → String

def notDecoded : CperDecode := fun _ => "NA"

abbrev FaultDataType := Nat

/-- The class has a member `file` of its own, next to that of the base class, which is
constructed empty. -/
structure FaultLogEntry where
  base : Entries.Entry
  type : FaultDataType
  additionalTypeName : String
  primaryLogId : String
  decode : CperDecode
  file : Option Path

instance dumpEntry : DumpEntry FaultLogEntry where
  base e := e.base
  file e := e.file
  setFailedStatus e := { e with base := { e.base with status := .Failed } }
  base_setFailedStatus _ := rfl
  file_setFailedStatus _ := rfl

structure Own where
  lastCperId : Nat

structure Config where
  plat : Platform
  originators : OriginatorTable
  CPER : FaultDataType
  FAULTLOG_DUMP_MAX_LIMIT : Nat
  FAULTLOG_DUMP_TOTAL_SIZE : Nat
  FAULTLOG_DUMP_MAX_SIZE : Nat
  FAULTLOG_DUMP_MIN_SPACE_REQD : Nat
  FAULTLOG_DUMP_ROTATION : Bool

def defaultConfig : Config where
  plat := .bits32
  originators := ⟨[], 0⟩
  CPER := 1
  FAULTLOG_DUMP_MAX_LIMIT := 10
  FAULTLOG_DUMP_TOTAL_SIZE := 1024
  FAULTLOG_DUMP_MAX_SIZE := 500
  FAULTLOG_DUMP_MIN_SPACE_REQD := 50
  FAULTLOG_DUMP_ROTATION := false

abbrev FaultLogOp (α : Type) := Op FaultLogEntry Own Unit α

abbrev FaultLogDaemon := Daemon FaultLogEntry Own Unit

/-- The size of the directory is computed any number of times, and each computation may
fail on its own. -/
structure Request where
  params : DumpCreateParams
  sizeFailed : Nat → Bool
  fork : Fork
  timeStamp : Nat
  construction : Construction

structure FileEvent where
  watchInstalled : Bool
  construction : Construction
  decoded : Option (Option Json)
  originatorType : OriginatorTypes

variable (cfg : Config)

def create (id timeStamp : Nat) (type : FaultDataType) (additionalTypeName primaryLogId : String)
    (fileSize : Nat) (file : Option Path) (status : OperationStatus) (decode : CperDecode)
    (originatorId : String) (originatorType : OriginatorTypes) : FaultLogEntry :=
  { base := .new id timeStamp fileSize none status originatorId originatorType
    type := type
    additionalTypeName := additionalTypeName
    primaryLogId := primaryLogId
    decode := decode
    file := file }

section Decode

abbrev Assignments := List (CperField × Except Exn String)

def member (j : Json) (key : String) (field : CperField) : Assignments :=
  if j.contains key then [(field, j.at key >>= Json.getString)] else []

def memberText (j : Json) (key : String) (field : CperField) : Assignments :=
  if j.contains key then [(field, Json.dump <$> j.at key)] else []

def whereMember (j : Json) (key : String) (k : Json → Assignments) : Assignments :=
  match j.at key with
  | .ok value => k value
  | .error _ => []

def deviceAssignments (devID : Json) : Assignments :=
  member devID "VendorID" .pcieVendorID ++ member devID "DeviceID" .pcieDeviceID ++
    member devID "ClassCode" .pcieClassCode ++ member devID "FunctionNumber" .pcieFunctionNumber ++
    member devID "DeviceNumber" .pcieDeviceNumber ++ member devID "SegmentNumber" .pcieSegmentNumber ++
    member devID "DeviceBusNumber" .pcieDeviceBusNumber ++
    member devID "SecondaryBusNumber" .pcieSecondaryBusNumber ++ memberText devID "SlotNumber" .pcieSlotNumber

def sectionAssignments (sectionToLog : Json) : Assignments :=
  member sectionToLog "IPSignature" .nvipSignature ++ member sectionToLog "Severity" .nvSeverity ++
    memberText sectionToLog "SocketNumber" .nvSocketNumber ++
    whereMember sectionToLog "DeviceID" deviceAssignments

def descriptorAssignments (toLog : Json) : Assignments :=
  whereMember toLog "SectionDescriptor" fun descToLog =>
    member descToLog "SectionType" .sectionType ++ member descToLog "FRUId" .fruid ++
      member descToLog "SectionSeverity" .severity ++ whereMember toLog "Section" sectionAssignments

/-- The assignments that the decoding makes, in order; only the first section is decoded. -/
def assignments (jsonData : Json) : Assignments :=
  whereMember jsonData "Header" fun hdr =>
    member hdr "NotificationType" .notificationType ++
      whereMember hdr "SectionCount" fun _ =>
        whereMember jsonData "Sections" fun
          | .array (toLog :: _) => descriptorAssignments toLog
          | _ => []

/-- The fields after the assignments up to the first that throws, with its exception. -/
def assign : Assignments → CperDecode → CperDecode × Option Exn
  | [], decode => (decode, none)
  | (field, .ok value) :: rest, decode => assign rest (Function.update decode field value)
  | (_, .error e) :: _, decode => (decode, some e)

def decodeFile (decoded : Option (Option Json)) (decode : CperDecode) : CperDecode × Option Exn :=
  match decoded with
  | some (some jsonData) => assign (assignments jsonData) decode
  | _ => (decode, none)

end Decode

def update (e : FaultLogEntry) (timeStamp fileSize : Nat) (filePath : Path) (decode : CperDecode) : FaultLogEntry :=
  { e with
    base := { e.base with
      elapsed := timeStamp
      size := fileSize
      status := .Completed
      completedTime := timeStamp }
    decode := decode
    file := some filePath }

section CreateDump

/-- The sum is kept in a size_t, which is as wide as unsigned long. -/
def calculate_directory_size (disk : FileTree Content) (failed : Bool) : Option Nat :=
  if failed = true ∨ disk.isDirectory [] = false then none
  else some ((disk.nodes.toList.map fun
    | (_, .file content) => content.size
    | (_, .dir) => 0).sum % (cfg.plat.ulongMax + 1))

def allowedSize (disk : FileTree Content) (failed : Bool) : Nat :=
  match calculate_directory_size cfg disk failed with
  | none => 0
  | some size => min (cfg.FAULTLOG_DUMP_TOTAL_SIZE - size / 1024) cfg.FAULTLOG_DUMP_MAX_SIZE

def getAllowedSize (failed : Bool) : FaultLogOp Nat := do
  let s ← get
  pure (allowedSize cfg s.disk failed)

def rotate (failed : Nat → Bool) : List Nat → Nat → FaultLogOp Nat
  | [], calls => pure calls
  | key :: keys, calls => do
      deleteAt key
      let size ← getAllowedSize cfg (failed calls)
      if cfg.FAULTLOG_DUMP_MIN_SPACE_REQD ≤ size then pure (calls + 1) else rotate failed keys (calls + 1)

def limitTotalDumpSize (failed : Nat → Bool) : FaultLogOp Unit := do
  let s ← get
  if cfg.FAULTLOG_DUMP_MIN_SPACE_REQD ≤ allowedSize cfg s.disk (failed 0) then pure ()
  else if cfg.FAULTLOG_DUMP_ROTATION = true then do
    let calls ← rotate cfg failed s.entries.keys 1
    let s ← get
    throwIf (s.entries.isEmpty && allowedSize cfg s.disk (failed calls) = 0)
      (.quotaExceeded "Not enough space: Delete old dumps")
  else throw (.quotaExceeded "Not enough space: Delete old dumps")

structure FaultLogEntryInfo where
  id : Nat
  type : FaultDataType
  additionalTypeName : String
  primaryLogId : String

/-- The fault data of a request; a path of the wrong type is found only after the number
of the log has been taken. -/
def faultData (params : DumpCreateParams) : FaultLogOp (FaultDataType × String × String) :=
  match params["CPER_TYPE"]?, params["CPER_PATH"]? with
  | some _, some _ => do
      let additionalTypeName ← fromExcept (getString params "CPER_TYPE")
      modify fun s => { s with own := ⟨uint32 (s.own.lastCperId + 1)⟩ }
      let s ← get
      let _ ← fromExcept (getString params "CPER_PATH")
      pure (cfg.CPER, additionalTypeName, toString s.own.lastCperId)
  | _, _ => pure (0, "", "")

def captureDump (r : Request) : FaultLogOp FaultLogEntryInfo := do
  let (type, additionalTypeName, primaryLogId) ← faultData cfg r.params
  let id ← forkCollector r.fork () id
  pure ⟨id, type, additionalTypeName, primaryLogId⟩

def construct (r : Request) (info : FaultLogEntryInfo) : Except Exn FaultLogEntry := do
  let (originatorId, originatorType) ← extractOriginatorProperties cfg.originators r.params
  match r.construction with
  | .done => .ok (create info.id r.timeStamp info.type info.additionalTypeName info.primaryLogId 0 none
      .InProgress notDecoded originatorId originatorType)
  | .invalidArgument => .error .internalFailure
  | .failed => .error .sdBusError

def createDump (r : Request) : FaultLogOp Nat := do
  limitDumpEntries cfg.FAULTLOG_DUMP_MAX_LIMIT
  limitTotalDumpSize cfg r.sizeFailed
  let info ← captureDump cfg r
  let e ← fromExcept (construct cfg r info)
  insertEntry info.id e
  pure info.id

end CreateDump

section Files

def insertConstructed (id : Nat) (construction : Construction) (e : FaultLogEntry) : FaultLogOp Unit :=
  match construction with
  | .done => insertEntry id e
  | .invalidArgument => pure ()
  | .failed => throw .sdBusError

def throwLeft (e : Option Exn) : FaultLogOp Unit :=
  match e with
  | some exn => throw exn
  | none => pure ()

/-- The cast of an empty slot gives a null pointer, which is not checked. The fields
that were decoded before an exception stay set. -/
def createEntry (io : FileEvent) (file : Path) : FaultLogOp Unit := do
  let details ← fromExcept (parseName cfg.plat (filename file))
  match details with
  | none => pure ()
  | some (id, timestamp) => do
      let s ← get
      match s.entries[uint32 id]? with
      | some (some e) => do
          let size ← fileSize file
          modify fun s => { s with
            entries := s.entries.insert (uint32 id)
              (some (update e timestamp size file (decodeFile io.decoded e.decode).1)) }
          throwLeft (decodeFile io.decoded e.decode).2
      | some none => throw .nullDereference
      | none => do
          throwLeft (decodeFile io.decoded notDecoded).2
          let size ← fileSize file
          insertConstructed (uint32 id) io.construction
            (create (uint32 id) timestamp cfg.CPER "CPER" "0" size (some file) .Completed
              (decodeFile io.decoded notDecoded).1 "" io.originatorType)

def faultLogOps : Ops FaultLogEntry Own Unit Request FileEvent where
  createDump r := some <$> createDump cfg r
  fork r := r.fork
  createEntry := createEntry cfg
  watchInstalled io := io.watchInstalled
  childEnded _ own := own

end Files

section Restore

structure Listing where
  names : Path → List String
  events : Path → FileEvent

def restoreFile (listing : Listing) (file : Path) : FaultLogOp Unit := do
  let s ← get
  if (s.disk.content file).isSome then createEntry cfg (listing.events file) file else pure ()

def restoreDirectory (listing : Listing) (idStr : String) : FaultLogOp Unit := do
  let s ← get
  if s.disk.isDirectory [idStr] = true ∧ idStr.toList.all Char.isDigit = true then do
    let id ← fromExcept (stoul cfg.plat idStr.toList)
    modify fun s => { s with lastEntryId := max s.lastEntryId (uint32 id) }
    forM (listing.names [idStr]) fun name => restoreFile cfg listing [idStr, name]
  else pure ()

def restore (listing : Listing) : FaultLogOp Unit := do
  let s ← get
  if s.disk.isDirectory [] = true then forM (listing.names []) (restoreDirectory cfg listing) else pure ()

def Started (s : FaultLogDaemon) : Prop :=
  ∃ disk listing u, disk.isDirectory [] = true ∧ (∀ p, (listing.names p).Perm (disk.children p)) ∧
    restore cfg listing (bare ⟨0⟩ disk) = .ok u s

theorem started_root : Started cfg (bare ⟨0⟩ .root) :=
  ⟨.root, ⟨FileTree.children .root, fun _ => ⟨true, .done, none, 0⟩⟩, (), rfl, fun _ => .rfl, rfl⟩

end Restore

end DumpCollector.FaultLog.Manager
