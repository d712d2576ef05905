import Std.Data.ExtTreeMap

namespace DumpCollector.Requests

open Std

/-- What can leave a function other than a return: the errors raised by elog, the
standard exceptions, and what no handler sees: the dereference of an empty pointer,
which ends the process, and the overflow of a signed integer, which has no meaning. -/
inductive Exn
  | unavailable
  | quotaExceeded (reason : String)
  | invalidArgument (argumentName argumentValue : String)
  | internalFailure
  | badVariantAccess
  | badOptionalAccess
  | invalidEnumString
  | stdInvalidArgument (what : String)
  | logicError (what : String)
  | outOfRange
  | filesystemError
  | jsonTypeError
  | sdBusError
  | nullDereference
  | signedOverflow
  deriving DecidableEq, Repr

inductive Variant
  | str (value : String)
  | num (value : Nat)
  deriving DecidableEq

abbrev DumpCreateParams := ExtTreeMap String Variant

/-- The expression std::get<std::string>(params[key]): a missing key is inserted
with the default variant, an empty string. -/
def getString (params : DumpCreateParams) (key : String) : Except Exn String :=
  match params.getD key (.str "") with
  | .str s => .ok s
  | .num _ => .error .badVariantAccess

theorem getString_eq_ok {params : DumpCreateParams} {key text : String} :
    getString params key = .ok text ↔ params[key]?.getD (.str "") = .str text := by
  rw [getString, ExtTreeMap.getD_eq_getD_getElem?]
  cases params[key]?.getD (.str "") <;> simp

def extractParameter (key : String) (params : DumpCreateParams) : Except Exn String :=
  match params[key]? with
  | some (.str s) => .ok s
  | some (.num _) => .error (.invalidArgument key "INVALID INPUT")
  | none => .ok ""

inductive CreateParameters
  | OriginatorId
  | OriginatorType
  | DumpType
  | ErrorType
  | FilePath

def convertCreateParametersToString : CreateParameters → String
  | .OriginatorId => "xyz.openbmc_project.Dump.Create.CreateParameters.OriginatorId"
  | .OriginatorType => "xyz.openbmc_project.Dump.Create.CreateParameters.OriginatorType"
  | .DumpType => "xyz.openbmc_project.Dump.Create.CreateParameters.DumpType"
  | .ErrorType => "xyz.openbmc_project.Dump.Create.CreateParameters.ErrorType"
  | .FilePath => "xyz.openbmc_project.Dump.Create.CreateParameters.FilePath"

abbrev OriginatorTypes := Int32

structure OriginatorTable where
  enumerators : List (String × OriginatorTypes)
  Internal : OriginatorTypes

/-- A string that is none of the enumerators is refused with an exception that is
none of the elog errors. -/
def convertOriginatorTypesFromString (table : OriginatorTable) (type : String) :
    Except Exn OriginatorTypes :=
  match table.enumerators.lookup type with
  | some value => .ok value
  | none => .error .invalidEnumString

def extractOriginatorProperties (table : OriginatorTable) (params : DumpCreateParams) :
    Except Exn (String × OriginatorTypes) := do
  let originatorId ← match params[convertCreateParametersToString .OriginatorId]? with
    | none => .ok ""
    | some (.str s) => .ok s
    | some (.num _) => .error (.invalidArgument "ORIGINATOR_ID" "INVALID INPUT")
  let originatorType ← match params[convertCreateParametersToString .OriginatorType]? with
    | none => .ok table.Internal
    | some (.str type) => convertOriginatorTypesFromString table type
    | some (.num _) => .error (.invalidArgument "ORIGINATOR_TYPE" "INVALID INPUT")
  return (originatorId, originatorType)

structure DumpTypes where
  enumerator : String
  deriving DecidableEq

def DumpTypes.USER : DumpTypes := ⟨"USER"⟩

def DumpTypes.ELOG : DumpTypes := ⟨"ELOG"⟩

structure DumpTypeTables where
  dumpTypeTable : List (String × DumpTypes × String)
  dumpTypeToStringMap : List (DumpTypes × String)
  errorMap : List (String × List String)

/-- The maps that the example tables of the repository are rendered to. -/
def exampleTables : DumpTypeTables where
  dumpTypeTable :=
    [("xyz.openbmc_project.Dump.Create.DumpType.UserRequested", .USER, "BMC_DUMP"),
      ("xyz.openbmc_project.Dump.Create.DumpType.ApplicationCored", ⟨"CORE"⟩, "BMC_DUMP"),
      ("xyz.openbmc_project.Dump.Create.DumpType.Ramoops", ⟨"RAMOOPS"⟩, "BMC_DUMP"),
      ("xyz.openbmc_project.Dump.Create.DumpType.ErrorLog", .ELOG, "BMC_DUMP")]
  dumpTypeToStringMap := [(.USER, "user"), (⟨"CORE"⟩, "core"), (⟨"RAMOOPS"⟩, "ramoops"), (.ELOG, "elog")]
  errorMap := [("elog", ["xyz.openbmc_project.Common.Error.InternalFailure"])]

variable (tables : DumpTypeTables)

def dumpTypeToString (dumpType : DumpTypes) : Option String :=
  (tables.dumpTypeToStringMap.find? fun pair => pair.1 = dumpType).map Prod.snd

def stringToDumpType (str : String) : Option DumpTypes :=
  (tables.dumpTypeToStringMap.find? fun pair => pair.2 = str).map Prod.fst

def validateDumpType (type category : String) : Except Exn DumpTypes :=
  if type = "" then .ok .USER
  else match tables.dumpTypeTable.find? fun pair => pair.1 = type ∧ pair.2.2 = category with
    | some pair => .ok pair.2.1
    | none => .error (.invalidArgument "BMC_DUMP_TYPE" type)

def isErrorTypeValid (errorType : String) : Bool := tables.errorMap.any fun pair => pair.1 = errorType

def findErrorType (errString : String) : Option String :=
  (tables.errorMap.find? fun pair => pair.2.contains errString).map Prod.fst

def getErrorDumpType (params : DumpCreateParams) : Except Exn DumpTypes := do
  let errorType ← extractParameter (convertCreateParametersToString .ErrorType) params
  if !isErrorTypeValid tables errorType then
    .error (.invalidArgument "ERROR_TYPE" errorType)
  else match stringToDumpType tables errorType with
    | some type => .ok type
    | none => .error (.stdInvalidArgument "Dump type not found")

end DumpCollector.Requests
