import DumpCollector.CreateDump.Server
import DumpCollector.Lib.Loops
import DumpCollector.Lib.Maps

namespace DumpCollector.CreateDump.Processing

open Std Lib.Effects Lib.Loops Lib.Maps Call Server

/-- What leaves a function of the server other than a return. No loop of the server runs
without a bound; `unfinished` stands for a number of rounds that has been chosen too low. -/
inductive Exn
  | createDumpDbus (errorMsg : Message)
  | stdException
  | badVariantAccess
  | filesystemError
  | sdBusError
  | unfinished
  deriving DecidableEq

/-- A reply to CreateDump. Without a bus the exception is raised outside of the handler. -/
inductive Created
  | entry (path : Message)
  | refused (what : Message)
  | noBus

/-- A reply to the request for the status: a value without the type of a string is read as
none at all. -/
inductive Progress
  | inProgress
  | completed
  | another
  | refused
  | mistyped
  deriving DecidableEq

structure File where
  content : Nat
  time : Nat
  deriving DecidableEq

/-- What stands in a directory under a name, other than regular files. -/
abbrev Node := Option File

inductive Look
  | absent
  | listed (entries : List (Message × Node))
  | failed

/-- What the processes around the server answer: the D-Bus calls in the order in which they are made,
the looks at directories, the removal of files, their copying with the time of it, and the writing of
messages. -/
structure Environment where
  created : Nat → Created
  progress : Nat → Progress
  look : Message → Nat → Look
  order : List Message → List Message
  removed : Message → Bool
  copied : Message → Nat → Option Message
  clock : Nat → Nat
  written : Nat → Bool

structure World where
  tmp : ExtTreeMap Message Node
  sent : List Message
  calls : List Message
  polls : Nat
  looks : Nat
  slept : Nat

abbrev ServerM (α : Type) := EStateM Exn World α

def TIMEOUT : Nat := 1000 * 60 * 5

def TMP_DIR_PATH : Message := text "/tmp/"

def DUMP_COPY_PREFIX : Message := text "copy_"

structure Config where
  bmcDumpPath : Message
  systemDumpPath : Message

variable (cfg : Config) (env : Environment) (rounds : Nat)

def sleep (ms : Nat) : ServerM Unit := modify fun w => { w with slept := w.slept + ms }

def sendMsg (msg : Message) : ServerM Unit := do
  let w ← get
  if env.written w.sent.length then modify fun w => { w with sent := w.sent ++ [msg] } else throw .stdException

section Waiting

def getStatus : ServerM Progress := do
  let w ← get
  modify fun w => { w with polls := w.polls + 1 }
  pure (env.progress w.polls)

/-- The members of the loop are the failures so far and the time. -/
def waitRound (c : Nat × Nat) : ServerM (Unit ⊕ (Nat × Nat)) := do
  sleep 50
  if c.2 > 1000 * 60 * 30 then throw (.createDumpDbus (text "Dump creation timed out."))
  else
    match ← getStatus env with
    | .completed => pure (.inl ())
    | .another => throw (.createDumpDbus (text "Dump creation failed."))
    | .mistyped => throw .badVariantAccess
    | .inProgress => pure (.inr (c.1, c.2 + 50))
    | .refused =>
        if c.1 + 1 ≥ 3 then throw (.createDumpDbus (text "Failed to get progress."))
        else pure (.inr (c.1 + 1, c.2 + 50))

def waitForDumpCreation : ServerM Unit := loop .unfinished (waitRound env) rounds (0, 0)

end Waiting

section Copying

def slash : UInt8 := 0x2f

def filename (path : Message) : Message := (path.reverse.takeWhile (· ≠ slash)).reverse

def sourcePath (dPath : Message) : Option Message :=
  if text "/system/" <:+: dPath then some cfg.systemDumpPath
  else if text "/bmc/" <:+: dPath then some cfg.bmcDumpPath
  else none

/-- An existing file is replaced only by a newer one; a file goes into a directory under its own name. -/
def copyTo (w : World) (dest : Message) (file : File) : World :=
  let copied := { w with tmp := w.tmp.insert dest (some { file with time := env.clock w.looks }) }
  match w.tmp[dest]? with
  | none => copied
  | some none => w
  | some (some old) => if old.time < file.time then copied else w

def regular : Message × Node → Option (Message × File)
  | (name, some file) => some (name, file)
  | (_, none) => none

def copying (fPath name : Message) : Message :=
  text "Copying " ++ fPath ++ slash :: name ++ text " to " ++ TMP_DIR_PATH ++ text " directory."

def copyFile (fPath : Message) (file : Message × File) : ServerM (Int × Message) := do
  sleep 1000
  let w ← get
  match env.copied file.1 w.looks with
  | some what => pure (-1, what)
  | none => do
      modify fun w => copyTo env w (DUMP_COPY_PREFIX ++ file.1) file.2
      pure (0, copying fPath file.1)

def waitForFile (time_p : Nat) : ServerM ((Int × Message) ⊕ Nat) :=
  if time_p + 50 > TIMEOUT then pure (.inl (-1, text "Copying dump to tmp dir failed: timeout."))
  else pure (.inr (time_p + 50))

def copyRound (fPath : Message) (time_p : Nat) : ServerM ((Int × Message) ⊕ Nat) := do
  sleep 50
  let w ← get
  modify fun w => { w with looks := w.looks + 1 }
  match env.look fPath w.looks with
  | .failed => throw .filesystemError
  | .absent => waitForFile time_p
  | .listed entries =>
      match entries.findSome? regular with
      | some file => do
          let result ← copyFile env fPath file
          pure (.inl result)
      | none => waitForFile time_p

/-- The exception of the waiting is caught, and no other. -/
def waited : ServerM (Option Message) := fun w =>
  match waitForDumpCreation env rounds w with
  | .ok _ w' => .ok none w'
  | .error (.createDumpDbus errorMsg) w' => .ok (some errorMsg) w'
  | .error e w' => .error e w'

def copyDumpToTmpDir (dPath : Message) : ServerM (Int × Message) :=
  match sourcePath cfg dPath with
  | none => pure (-1, text "Unknown dump file path")
  | some sourcePath => do
      match ← waited env rounds with
      | some errorMsg => pure (-1, errorMsg)
      | none => loop .unfinished (copyRound env (sourcePath ++ slash :: filename dPath)) rounds 0

end Copying

section Requests

structure Call where
  path : Message
  params : List (Message × Message)
  deriving DecidableEq

def createCall (type : Message) : Call :=
  if type = [] ∨ type = text "BMC" then ⟨text "/xyz/openbmc_project/dump/bmc", [(text "DumpType", type)]⟩
  else ⟨text "/xyz/openbmc_project/dump/system", [(text "DumpType", type), (text "DiagnosticType", type)]⟩

def failure (type what : Message) : Message :=
  text "Failed to create dump: " ++ (text "path - '" ++ (createCall type).path ++ text "', ") ++
    (text "type - '" ++ type ++ text "', ") ++ (text "error - '" ++ what ++ text "'")

def createDump (type : Message) : ServerM (Int × Message) := do
  let w ← get
  modify fun w => { w with calls := w.calls ++ [type] }
  match env.created w.calls.length with
  | .entry path => pure (0, path)
  | .refused what => pure (-1, failure type what)
  | .noBus => throw .sdBusError

def successful (type path : Message) : Message :=
  text "CreateDump call successful for dump type '" ++ type ++ text "', received: " ++ path

def processSingleDump (type : Message) : ServerM Unit := do
  let (cDumpResult, response) ← createDump env type
  if cDumpResult = 0 then do
    sendMsg env (successful type response)
    sendMsg env (text "Waiting for dump creation to finish...")
    let (_, response) ← copyDumpToTmpDir cfg env rounds response
    sendMsg env response
  else sendMsg env response

def isCopy (name : Message) : Bool := DUMP_COPY_PREFIX <+: name ∧ text "dump" <:+: name

def deleteCopy (name : Message) : ServerM Unit := do
  let w ← get
  match w.tmp[name]? with
  | some (some _) =>
      if isCopy name then
        if env.removed name then modify fun w => { w with tmp := w.tmp.erase name }
        else sendMsg env (text "Failed to delete dump file: " ++ name)
      else pure ()
  | _ => pure ()

def deleteCopies : ServerM Unit := do
  let w ← get
  forM (env.order w.tmp.keys) (deleteCopy env)

def requestedTypes (type : Message) : List Message :=
  if type = text "all" then SUPPORTED_DUMP_TYPES.filter (· ≠ text "all") else [type]

def processDumpRequest (type : Message) : ServerM Unit := do
  sendMsg env (text "Deleting existing dump files...")
  deleteCopies env
  forM (requestedTypes type) (processSingleDump cfg env rounds)

def act : Action → ServerM Unit
  | .processDumpRequest type => processDumpRequest cfg env rounds type
  | .sendMsg message => sendMsg env message

/-- What the handler does with the message that it has read from a connection. -/
def serve (message : Message) : ServerM Unit := forM (handler message) (act cfg env rounds)

/-- What main sends in client mode: nothing, where the type is not supported. -/
def clientMessage (type : Message) : Option Message :=
  if type = [] then some (command (text "BMC"))
  else if type ∈ SUPPORTED_DUMP_TYPES then some (command type)
  else none

end Requests

end DumpCollector.CreateDump.Processing
