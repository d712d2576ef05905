import DumpCollector.Dispatch

namespace DumpCollector.Bmc.Manager

open Std Lib.Directory Lib.Effects Entries FileNames JsonText Requests State Dispatch

def PRESERVE : String := ".preserve"

def SERIAL_FILE : String := "serialized_entry.json"

def CLASS_SERIALIZATION_VERSION : Nat := 1

/-- The timer is absent, stopped or running; no constructor sets the process group. -/
structure BmcEntry where
  base : Entries.Entry
  progress : Nat
  progressTimer : Option Bool
  entryProcessGroupID : Int

instance dumpEntry : DumpEntry BmcEntry where
  base e := e.base
  file e := e.base.file
  setFailedStatus e := { e with base := { e.base with status := .Failed } }
  base_setFailedStatus _ := rfl
  file_setFailedStatus _ := rfl

structure Own where
  fUserDumpInProgress : Bool

structure Config where
  plat : Platform
  originators : OriginatorTable
  tables : DumpTypeTables
  BMC_DUMP_TOTAL_SIZE : Nat
  BMC_DUMP_MAX_SIZE : Nat
  BMC_DUMP_MIN_SPACE_REQD : Nat
  BMC_DUMP_ROTATE_CONFIG : Bool

def defaultConfig : Config where
  plat := .bits32
  originators := ⟨[], 0⟩
  tables := exampleTables
  BMC_DUMP_TOTAL_SIZE := 1024
  BMC_DUMP_MAX_SIZE := 200
  BMC_DUMP_MIN_SPACE_REQD := 20
  BMC_DUMP_ROTATE_CONFIG := false

abbrev BmcOp (α : Type) := Op BmcEntry Own DumpTypes α

abbrev BmcDaemon := Daemon BmcEntry Own DumpTypes

structure Request where
  params : DumpCreateParams
  fork : Fork
  timeStamp : Nat
  entryProcessGroupID : Int
  construction : Construction

/-- How far serialize comes: an exception before the file is open, a file that does not
open, an exception from the encoder, or the whole document. -/
inductive Serialization
  | notCreated
  | notOpened
  | notEncoded
  | written

structure FileEvent where
  watchInstalled : Bool
  construction : Construction
  entryProcessGroupID : Int
  serialization : Serialization

def plainRequest (pid : Nat) : Request := ⟨∅, ⟨some pid, true⟩, 1000000, 0, .done⟩

def plainEvent : FileEvent := ⟨true, .done, 0, .notCreated⟩

variable (cfg : Config)

section Entry

def create (id timeStamp fileSize : Nat) (file : Option Path) (status : OperationStatus)
    (originatorId : String) (originatorType : OriginatorTypes) (entryProcessGroupID : Int) : BmcEntry :=
  { base := .new id timeStamp fileSize file status originatorId originatorType
    progress := 0
    progressTimer := if status = .InProgress then some true else none
    entryProcessGroupID := entryProcessGroupID }

def serialized (e : BmcEntry) : Json :=
  .object [("dumpId", .integer e.base.id), ("originatorId", .string e.base.originatorId),
    ("originatorType", .integer e.base.originatorType.toInt), ("startTime", .integer e.base.startTime),
    ("version", .integer CLASS_SERIALIZATION_VERSION)]

def writeDocument (s : BmcDaemon) (dir : Path) (doc : Json) : BmcDaemon :=
  ((s.openFile dir SERIAL_FILE).writeFile dir SERIAL_FILE ⟨doc.dump.utf8ByteSize, some doc⟩).closeFile dir
    SERIAL_FILE

def serialize (e : BmcEntry) (outcome : Serialization) (s : BmcDaemon) : BmcDaemon :=
  let parent := (e.base.file.getD []).dropLast
  let dir := parent ++ [PRESERVE]
  match outcome with
  | .notCreated => s.removeAll dir
  | .notOpened => s.mkdir parent PRESERVE
  | .notEncoded => (((s.mkdir parent PRESERVE).openFile dir SERIAL_FILE).closeFile dir SERIAL_FILE).removeAll dir
  | .written => writeDocument (s.mkdir parent PRESERVE) dir (serialized e)

def updated (e : BmcEntry) (timeStamp fileSize : Nat) (filePath : Path) : BmcEntry :=
  { e with
    base := { e.base with
      elapsed := timeStamp
      size := fileSize
      status := .Completed
      file := some filePath
      completedTime := timeStamp }
    progress := 100
    progressTimer := e.progressTimer.map fun _ => false }

def update (id : Nat) (e : BmcEntry) (timeStamp fileSize : Nat) (filePath : Path) (outcome : Serialization) :
    BmcOp Unit :=
  modify fun s => serialize (updated e timeStamp fileSize filePath) outcome
    { s with entries := s.entries.insert id (some (updated e timeStamp fileSize filePath)) }

end Entry

section CreateDump

def value {α : Type} : Option α → Except Exn α
  | some a => .ok a
  | none => .error .badOptionalAccess

def getDirectorySize (dir : Path) : BmcOp Nat := do
  let s ← get
  throwIf (!s.disk.isDirectory dir) .filesystemError
  pure ((s.disk.nodes.toList.map fun
    | (p, .file content) => if dir <+: p then (content.size + 1023) / 1024 else 0
    | (_, .dir) => 0).sum)

def minElement : BmcOp Nat := do
  let s ← get
  match s.entries.minKey? with
  | some key => pure key
  | none => throw .nullDereference

/-- The rotation loop. Each round takes an entry out of the map, so it runs no oftener
than there are entries, and the end of the empty map is what it would dereference then. -/
def rotate : Nat → Nat → BmcOp Nat
  | 0, size => do
      throwIf (size < cfg.BMC_DUMP_MIN_SPACE_REQD) .nullDereference
      pure size
  | rounds + 1, size =>
      if cfg.BMC_DUMP_MIN_SPACE_REQD ≤ size then pure size
      else do
        let delEntry ← minElement
        let freed ← getDirectorySize [toString delEntry]
        deleteAt delEntry
        rotate rounds (size + freed)

def makeRoom (size : Nat) : BmcOp Nat := do
  let s ← get
  if cfg.BMC_DUMP_ROTATE_CONFIG then rotate cfg s.entries.size size
  else if size < cfg.BMC_DUMP_MIN_SPACE_REQD then throw (.quotaExceeded "Not enough space: Delete old dumps")
  else pure size

def getAllowedSize : BmcOp Nat := do
  let used ← getDirectorySize []
  let size ← makeRoom cfg (cfg.BMC_DUMP_TOTAL_SIZE - used)
  pure (min size cfg.BMC_DUMP_MAX_SIZE)

def requestedType (params : DumpCreateParams) : Except Exn DumpTypes := do
  let type ← extractParameter (convertCreateParametersToString .DumpType) params
  let dumpType ← if type = "" then .ok .USER else validateDumpType cfg.tables type "BMC_DUMP"
  let dumpType ← if dumpType = .ELOG then getErrorDumpType cfg.tables params else .ok dumpType
  let _ ← extractParameter (convertCreateParametersToString .FilePath) params
  return dumpType

def captureDump (r : Request) (type : DumpTypes) : BmcOp Nat := do
  let _ ← getAllowedSize cfg
  let _ ← fromExcept (value (dumpTypeToString cfg.tables type))
  forkCollector r.fork type id

def construct {α : Type} (construction : Construction) (e : α) : Except Exn α :=
  match construction with
  | .done => .ok e
  | .invalidArgument => .error .internalFailure
  | .failed => .error .sdBusError

def checkRequest (r : Request) : BmcOp (String × OriginatorTypes × DumpTypes) := do
  let originator ← fromExcept (extractOriginatorProperties cfg.originators r.params)
  let dumpType ← fromExcept (requestedType cfg r.params)
  let s ← get
  throwIf (s.own.fUserDumpInProgress && dumpType = .USER) .unavailable
  let _ ← fromExcept (value (dumpTypeToString cfg.tables dumpType))
  pure (originator.1, originator.2, dumpType)

def createDump (r : Request) : BmcOp Nat := do
  let (originatorId, originatorType, dumpType) ← checkRequest cfg r
  let id ← captureDump cfg r dumpType
  let e ← fromExcept (construct r.construction
    (create id r.timeStamp 0 none .InProgress originatorId originatorType r.entryProcessGroupID))
  insertEntry id e
  whenever (dumpType = .USER) (modify fun s => { s with own := ⟨true⟩ })
  pure id

def childEnded (type : DumpTypes) (own : Own) : Own := if type = .USER then ⟨false⟩ else own

end CreateDump

section Files

def extractDumpDetails (file : Path) : BmcOp (Option (Nat × Nat × Nat)) := do
  let details ← fromExcept (parseName cfg.plat (filename file))
  match details with
  | none => pure none
  | some (id, timestamp) => do
      let size ← fileSize file
      pure (some (uint32 id, timestamp, size))

def insertConstructed (id : Nat) (construction : Construction) (e : BmcEntry) : BmcOp Unit :=
  match construction with
  | .done => insertEntry id e
  | .invalidArgument => pure ()
  | .failed => throw .sdBusError

def createOrUpdate (io : FileEvent) (file : Path) (id timestamp : Nat) : BmcOp Unit := do
  let s ← get
  let size ← fileSize file
  match s.entries[id]? with
  | some (some e) => update id e timestamp size file io.serialization
  | some none => pure ()
  | none =>
      insertConstructed id io.construction
        (create id timestamp size (some file) .Completed "" cfg.originators.Internal io.entryProcessGroupID)

def createEntry (io : FileEvent) (file : Path) : BmcOp Unit := do
  let dumpDetails ← extractDumpDetails cfg file
  match dumpDetails with
  | none => pure ()
  | some (id, timestamp, _) => createOrUpdate cfg io file id timestamp

def bmcOps : Ops BmcEntry Own DumpTypes Request FileEvent where
  createDump r := some <$> createDump cfg r
  fork r := r.fork
  createEntry := createEntry cfg
  watchInstalled io := io.watchInstalled
  childEnded := childEnded

end Files

section Restore

/-- The order in which directories are listed, and the outcome of constructing the
entry of a file. -/
structure Listing where
  names : Path → List String
  constructed : Path → Bool
  entryProcessGroupID : Int

/-- The properties that are read back, one after the other, until one is ill-typed. -/
def deserializeFrom (j : Json) (e : BmcEntry) : BmcEntry :=
  match j.subscript "originatorId" >>= Json.getString with
  | .error _ => e
  | .ok originatorId =>
      let e := { e with base := { e.base with originatorId := originatorId } }
      match j.subscript "originatorType" >>= Json.getEnum with
      | .error _ => e
      | .ok originatorType =>
          let e := { e with base := { e.base with originatorType := originatorType } }
          match j.subscript "startTime" >>= Json.getNumberUnsigned with
          | .error _ => e
          | .ok startTime => { e with base := { e.base with startTime := startTime } }

def deserializeDocument (j : Json) (dir : Path) (e : BmcEntry) (s : BmcDaemon) : BmcEntry × BmcDaemon :=
  match j.at "version" >>= Json.getUnsigned 32 with
  | .error _ => (e, s)
  | .ok version =>
      if version = CLASS_SERIALIZATION_VERSION then
        match j.at "dumpId" >>= Json.getUnsigned 32 with
        | .error _ => (e, s)
        | .ok storedId => if storedId = e.base.id then (deserializeFrom j e, s) else (e, s.removeAll dir)
      else (e, s)

def deserialize (dumpPath : Path) (e : BmcEntry) : BmcOp BmcEntry := do
  let s ← get
  match s.disk.content (dumpPath ++ [PRESERVE, SERIAL_FILE]) with
  | some ⟨_, some j⟩ => do
      let (e, s) := deserializeDocument j (dumpPath ++ [PRESERVE]) e s
      set s
      pure e
  | _ => pure e

/-- An entry is made only of a file whose name gives the id of its directory; every
exception on the way is caught, and no entry is made. -/
def deserializeEntry (listing : Listing) (id : Nat) (file : Path) : BmcOp (Option BmcEntry) := do
  let s ← get
  match parseName cfg.plat (filename file), s.disk.content file with
  | .ok (some (extractedId, timestamp)), some content =>
      if listing.constructed file = true ∧ id = uint32 extractedId then do
        let e := create id 0 0 (some file) .InProgress "" cfg.originators.Internal listing.entryProcessGroupID
        let e ← deserialize file.dropLast { e with
          progressTimer := none
          base := { e.base with
            startTime := timestamp
            elapsed := timestamp
            completedTime := timestamp
            size := content.size
            status := .Completed } }
        pure (some e)
      else pure none
  | _, _ => pure none

def restoreFile (listing : Listing) (id : Nat) (file : Path) : BmcOp Unit := do
  if filename file = PRESERVE then pure ()
  else do
    let entry ← deserializeEntry cfg listing (uint32 id) file
    match entry with
    | some e => insertEntry e.base.id e
    | none => pure ()

def restoreDirectory (listing : Listing) (idStr : String) : BmcOp Unit := do
  let s ← get
  if s.disk.isDirectory [idStr] = true ∧ idStr.toList.all Char.isDigit = true then do
    let id ← fromExcept (stoul cfg.plat idStr.toList)
    modify fun s => { s with lastEntryId := max s.lastEntryId (uint32 id) }
    forM (listing.names [idStr]) fun name => restoreFile cfg listing id [idStr, name]
  else pure ()

def restore (listing : Listing) : BmcOp Unit := do
  let s ← get
  if s.disk.isDirectory [] = true then forM (listing.names []) (restoreDirectory cfg listing) else pure ()

def Started (s : BmcDaemon) : Prop :=
  ∃ disk listing u, disk.isDirectory [] = true ∧ (∀ p, (listing.names p).Perm (disk.children p)) ∧
    restore cfg listing (bare ⟨false⟩ disk) = .ok u s

theorem started_root : Started cfg (bare ⟨false⟩ .root) :=
  ⟨.root, ⟨FileTree.children .root, fun _ => true, 0⟩, (), rfl, fun _ => .rfl, rfl⟩

end Restore

end DumpCollector.Bmc.Manager
