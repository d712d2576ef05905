import DumpCollector.System.Manager

namespace DumpCollector.Fdr.Manager

open Std Lib.Directory Lib.Effects Entries FileNames Requests State Dispatch
open System.Manager (Space checkSpace)

structure FdrEntry where
  base : Entries.Entry

instance dumpEntry : DumpEntry FdrEntry where
  base e := e.base
  file e := e.base.file
  setFailedStatus e := { e with base := { e.base with status := .Failed } }
  base_setFailedStatus _ := rfl
  file_setFailedStatus _ := rfl

structure Config where
  plat : Platform
  originators : OriginatorTable
  FDR_DUMP_MAX_LIMIT : Nat
  FDR_DUMP_MIN_SPACE_REQD : Nat
  JFFS_SPACE_CALC_INACCURACY_OFFSET_WORKAROUND_PERCENT : Nat

def defaultConfig : Config where
  plat := .bits32
  originators := ⟨[], 0⟩
  FDR_DUMP_MAX_LIMIT := 1
  FDR_DUMP_MIN_SPACE_REQD := 50
  JFFS_SPACE_CALC_INACCURACY_OFFSET_WORKAROUND_PERCENT := 2

abbrev FdrOp (α : Type) := Op FdrEntry Unit Unit α

abbrev FdrDaemon := Daemon FdrEntry Unit Unit

structure Request where
  params : DumpCreateParams
  space : Space
  fork : Fork
  timeStamp : Nat
  construction : Construction

structure FileEvent where
  watchInstalled : Bool
  construction : Construction
  originatorType : OriginatorTypes

variable (cfg : Config)

def create (id timeStamp fileSize : Nat) (file : Option Path) (status : OperationStatus)
    (originatorId : String) (originatorType : OriginatorTypes) : FdrEntry :=
  ⟨.new id timeStamp fileSize file status originatorId originatorType⟩

def update (e : FdrEntry) (timeStamp fileSize : Nat) (filePath : Path) : FdrEntry :=
  { e with
    base := { e.base with
      elapsed := timeStamp
      size := fileSize
      status := .Completed
      file := some filePath
      completedTime := timeStamp } }

section CreateDump

def withAction (params : DumpCreateParams) : DumpCreateParams := params.insertIfNew "Action" (.str "Collect")

def checkTrigger (r : Request) : Except Exn Unit := do
  let dumpAction ← getString (withAction r.params) "Action"
  if dumpAction = "Collect" then
    checkSpace cfg.JFFS_SPACE_CALC_INACCURACY_OFFSET_WORKAROUND_PERCENT cfg.FDR_DUMP_MIN_SPACE_REQD r.space
  else .ok ()
  let diagnosticType ← getString (withAction r.params) "DiagnosticType"
  if diagnosticType ≠ "FDR" then .error (.invalidArgument "DiagnosticType" diagnosticType) else .ok ()

def triggerFDRDumpScript (r : Request) : FdrOp Nat := do
  let _ ← fromExcept (checkTrigger cfg r)
  forkCollector r.fork () id

def construct (r : Request) (id : Nat) : Except Exn FdrEntry := do
  let (originatorId, originatorType) ← extractOriginatorProperties cfg.originators r.params
  match r.construction with
  | .done => .ok (create id r.timeStamp 0 none .InProgress originatorId originatorType)
  | .invalidArgument => .error .internalFailure
  | .failed => .error .sdBusError

def collect (r : Request) : FdrOp Nat := do
  limitDumpEntries cfg.FDR_DUMP_MAX_LIMIT
  let id ← triggerFDRDumpScript cfg r
  let e ← fromExcept (construct cfg r id)
  insertEntry id e
  pure id

/-- The path returned ends in an id only where a dump is collected. -/
def createDump (r : Request) : FdrOp (Option Nat) := do
  let dumpAction ← fromExcept (getString (withAction r.params) "Action")
  if dumpAction ≠ "Collect" then do
    let _ ← triggerFDRDumpScript cfg r
    pure none
  else do
    let id ← collect cfg r
    pure (some id)

end CreateDump

section Files

def insertConstructed (id : Nat) (construction : Construction) (e : FdrEntry) : FdrOp Unit :=
  match construction with
  | .done => insertEntry id e
  | .invalidArgument => pure ()
  | .failed => throw .sdBusError

/-- The cast of an empty slot gives a null pointer, which is not checked. -/
def createEntry (io : FileEvent) (file : Path) : FdrOp Unit := do
  let details ← fromExcept (parseName cfg.plat (filename file))
  match details with
  | none => pure ()
  | some (id, timestamp) => do
      let s ← get
      let size ← fileSize file
      match s.entries[uint32 id]? with
      | some (some e) =>
          modify fun s => { s with
            entries := s.entries.insert (uint32 id) (some (update e timestamp size file)) }
      | some none => throw .nullDereference
      | none =>
          insertConstructed (uint32 id) io.construction
            (create (uint32 id) timestamp size (some file) .Completed "" io.originatorType)

def fdrOps : Ops FdrEntry Unit Unit Request FileEvent where
  createDump := createDump cfg
  fork r := r.fork
  createEntry := createEntry cfg
  watchInstalled io := io.watchInstalled
  childEnded _ own := own

end Files

section Restore

structure Listing where
  names : Path → List String
  events : Path → FileEvent

def restoreDirectory (listing : Listing) (idStr : String) : FdrOp Unit := do
  let s ← get
  if s.disk.isDirectory [idStr] = true ∧ idStr.toList.all Char.isDigit = true then do
    let id ← fromExcept (stoul cfg.plat idStr.toList)
    modify fun s => { s with lastEntryId := max s.lastEntryId (uint32 id) }
    match listing.names [idStr] with
    | name :: _ => createEntry cfg (listing.events [idStr, name]) [idStr, name]
    | [] => pure ()
  else pure ()

def restore (listing : Listing) : FdrOp Unit := do
  let s ← get
  if s.disk.isDirectory [] = true then forM (listing.names []) (restoreDirectory cfg listing) else pure ()

def Started (s : FdrDaemon) : Prop :=
  ∃ disk listing u, disk.isDirectory [] = true ∧ (∀ p, (listing.names p).Perm (disk.children p)) ∧
    restore cfg listing (bare () disk) = .ok u s

theorem started_root : Started cfg (bare () .root) :=
  ⟨.root, ⟨FileTree.children .root, fun _ => ⟨true, .done, 0⟩⟩, (), rfl, fun _ => .rfl, rfl⟩

end Restore

end DumpCollector.Fdr.Manager
