import DumpCollector.Elog.Histories
import DumpCollector.Templates

namespace DumpCollector.Elog.ErrorTypes

open Std Lib.Effects Lib.Firsts FileNames Requests ObjectPaths Bmc.Manager Templates Elog.Watch Elog.Histories

def ERROR_LOG : String := "xyz.openbmc_project.Dump.Create.DumpType.ErrorLog"

def messageOf (propertyMap : PropertyMap) : Option String :=
  propertyMap["xyz.openbmc_project.Logging.Entry"]? >>= fun attributes => attributes["Message"]?

/-- None of the names before has the same upper-case form in another spelling. -/
def FirstSpelled (upper : String → String) (yaml : Yaml) (key : String) : Prop :=
  (names yaml).find? (fun name => upper name = upper key) = some key

instance (upper : String → String) (yaml : Yaml) (key : String) : Decidable (FirstSpelled upper yaml key) :=
  inferInstanceAs (Decidable (_ = _))

section Requests

variable {A M R : Type} {watch : Elog.Watch.Config A M R} {propertyMap : PropertyMap} {message key : String}

theorem errorType_eq (hmessage : messageOf propertyMap = some message) (hne : message ≠ "") :
    errorType watch propertyMap = findErrorType watch.tables message := by
  obtain ⟨attributes, hattributes, hattr⟩ := Option.bind_eq_some_iff.mp hmessage
  simp only [errorType, hattributes, hattr, if_neg hne]

theorem addCallback_requests {objectPath : ObjectPath} {s : Elog.Watch.Daemon A M} {eId : Nat} {r : R}
    (hentry : isEntry objectPath = true) (hid : getEid watch objectPath = .ok eId) (hnew : eId ∉ s.elogList)
    (htype : errorType watch propertyMap = some key) :
    (final (addCallback watch objectPath (some propertyMap) r s)).calls =
      s.calls ++ [⟨objectPath, dumpParams objectPath key, some (watch.archive.save (s.elogList.insert eId))⟩] := by
  have houtcome : Outcome watch objectPath s (.interfacesAdded (some propertyMap) r)
      (addCallback watch objectPath (some propertyMap) r s) := addCallback_outcome (some propertyMap) r
  generalize addCallback watch objectPath (some propertyMap) r s = x at houtcome
  cases houtcome with
  | passed _ h =>
      rcases h with h | h | ⟨eId', hid', h⟩
      · cases h
      · simp [hentry] at h
      · cases hid.symm.trans hid'
        rcases h with h | h
        · exact absurd h hnew
        · simp [htype] at h
  | refused _ e _ hid' _ => cases hid.symm.trans hid'
  | called _ _ eId' type mgr _ _ hid' _ htype' hfinal =>
      cases hid.symm.trans hid'
      cases htype.symm.trans htype'
      rw [hfinal]

theorem extractParameter_insert_self (params : DumpCreateParams) (key str : String) :
    extractParameter key (params.insert key (.str str)) = .ok str := by
  rw [extractParameter, ExtTreeMap.getElem?_insert_self]

theorem extractParameter_insert_of_ne {key key' : String} (hne : key' ≠ key) (params : DumpCreateParams)
    (v : Variant) : extractParameter key (params.insert key' v) = extractParameter key params := by
  have hcompare : ¬compare key' key = .eq := fun heq => hne (LawfulEqOrd.eq_of_compare heq)
  rw [extractParameter, extractParameter, ExtTreeMap.getElem?_insert, if_neg hcompare]

theorem extract_errorType (objectPath : ObjectPath) (key : String) :
    extractParameter (convertCreateParametersToString .ErrorType) (dumpParams objectPath key) = .ok key :=
  extractParameter_insert_self _ _ key

theorem extract_dumpType (objectPath : ObjectPath) (key : String) :
    extractParameter (convertCreateParametersToString .DumpType) (dumpParams objectPath key) = .ok ERROR_LOG := by
  rw [dumpParams, extractParameter_insert_of_ne (by simp [convertCreateParametersToString])]
  exact extractParameter_insert_self _ _ ERROR_LOG

theorem extract_filePath (objectPath : ObjectPath) (key : String) :
    extractParameter (convertCreateParametersToString .FilePath) (dumpParams objectPath key) =
      .ok (.ofList objectPath.str) := by
  rw [dumpParams, extractParameter_insert_of_ne (by simp [convertCreateParametersToString]),
    extractParameter_insert_of_ne (by simp [convertCreateParametersToString])]
  exact extractParameter_insert_self _ _ _

end Requests

section Resolution

variable {upper : String → String} {yaml : Yaml} {cfg : Config} {message key category : String} {d : DumpTypes}

theorem firstSpelled_iff : FirstSpelled upper yaml key ↔ key ∈ spellings upper yaml := by
  rw [FirstSpelled, spellings, mem_firsts_iff]
  simp

theorem findErrorType_listed (h : Renders upper yaml cfg.tables)
    (hlisted : ∃ item ∈ yaml.ERROR_TYPE_DICT.items, message ∈ item.2) :
    ∃ key, findErrorType cfg.tables message = some key := by
  obtain ⟨item, hitem, hmem⟩ := hlisted
  have hperm := h.errorMap
  rw [firsts_of_nodup yaml.ERROR_TYPE_DICT.nodup (by simp)] at hperm
  have hfind : (cfg.tables.errorMap.find? fun pair => pair.2.contains message).isSome :=
    List.find?_isSome.mpr ⟨item, hperm.mem_iff.mpr hitem, List.contains_iff_mem.mpr hmem⟩
  obtain ⟨pair, hpair⟩ := Option.isSome_iff_exists.mp hfind
  exact ⟨pair.1, congrArg (Option.map Prod.fst) hpair⟩

theorem isErrorTypeValid_of_find {tables : DumpTypeTables} (hfind : findErrorType tables message = some key) :
    isErrorTypeValid tables key = true := by
  obtain ⟨pair, hpair, rfl⟩ := Option.map_eq_some_iff.mp hfind
  exact List.any_eq_true.mpr ⟨pair, List.mem_of_find?_eq_some hpair, by simp⟩

theorem requestedType_iff (h : Renders upper yaml cfg.tables)
    (herrorLog : (ERROR_LOG, .ELOG, category) ∈ cfg.tables.dumpTypeTable)
    (hvalid : isErrorTypeValid cfg.tables key = true) (objectPath : ObjectPath) :
    requestedType cfg (dumpParams objectPath key) = .ok d ↔
      category = "BMC_DUMP" ∧ stringToDumpType cfg.tables key = some d := by
  have hne : ERROR_LOG ≠ "" := by simp [ERROR_LOG]
  have herror : getErrorDumpType cfg.tables (dumpParams objectPath key) = .ok d ↔
      stringToDumpType cfg.tables key = some d := by
    simp only [getErrorDumpType_eq_ok, extract_errorType, Except.ok.injEq, exists_eq_left', hvalid, true_and]
  rw [requestedType_eq, except_bind_eq_ok]
  constructor
  · rintro ⟨type, htype, hok⟩
    cases (extract_dumpType objectPath key).symm.trans htype
    obtain ⟨d₀, hvalidate, hok⟩ := except_bind_eq_ok.mp hok
    have hmem := (h.validateDumpType_eq_ok hne).mp hvalidate
    cases List.inj_on_of_nodup_map h.nodup_dumpTypeTable herrorLog hmem rfl
    obtain ⟨d₁, helog, hok⟩ := except_bind_eq_ok.mp hok
    obtain ⟨path, -, hd⟩ := except_bind_eq_ok.mp hok
    cases hd
    rw [if_pos rfl] at helog
    exact ⟨rfl, herror.mp helog⟩
  · rintro ⟨rfl, hstring⟩
    refine ⟨ERROR_LOG, extract_dumpType objectPath key, except_bind_eq_ok.mpr ⟨.ELOG, ?_, ?_⟩⟩
    · exact (h.validateDumpType_eq_ok hne).mpr herrorLog
    · rw [if_pos rfl, herror.mpr hstring, extract_filePath]
      rfl

/-- The request for a listed message is resolved to the dump type of its error key exactly if the
error log type is one of the bmc dumps and the key is the name its enumerator was given. -/
theorem elogRequest_resolved_iff {A M R : Type} {watch : Elog.Watch.Config A M R} (h : Renders upper yaml cfg.tables)
    (htables : watch.tables = cfg.tables) (herrorLog : (ERROR_LOG, .ELOG, category) ∈ cfg.tables.dumpTypeTable)
    {propertyMap : PropertyMap} (hmessage : messageOf propertyMap = some message) (hne : message ≠ "")
    (hlisted : ∃ item ∈ yaml.ERROR_TYPE_DICT.items, message ∈ item.2) {objectPath : ObjectPath}
    {s : Elog.Watch.Daemon A M} {eId : Nat} (hentry : isEntry objectPath = true)
    (hid : getEid watch objectPath = .ok eId) (hnew : eId ∉ s.elogList) (r : R) :
    ∃ key, findErrorType cfg.tables message = some key ∧
      (final (addCallback watch objectPath (some propertyMap) r s)).calls =
        s.calls ++ [⟨objectPath, dumpParams objectPath key, some (watch.archive.save (s.elogList.insert eId))⟩] ∧
      ((∃ d, requestedType cfg (dumpParams objectPath key) = .ok d ∧ dumpTypeToString cfg.tables d = some key) ↔
        category = "BMC_DUMP" ∧ FirstSpelled upper yaml key) := by
  obtain ⟨key, hkey⟩ := findErrorType_listed h hlisted
  have htype : errorType watch propertyMap = some key := by
    rw [errorType_eq hmessage hne, htables, hkey]
  refine ⟨key, hkey, addCallback_requests hentry hid hnew htype, ?_⟩
  simp only [requestedType_iff h herrorLog (isErrorTypeValid_of_find hkey) objectPath, h.stringToDumpType_iff,
    h.dumpTypeToString_iff, firstSpelled_iff]
  constructor
  · rintro ⟨d, ⟨hcategory, hspelled, -⟩, -⟩
    exact ⟨hcategory, hspelled⟩
  · rintro ⟨hcategory, hspelled⟩
    exact ⟨enumerator upper key, ⟨hcategory, hspelled, rfl⟩, hspelled, rfl⟩

end Resolution

section Examples

def INTERNAL_FAILURE : String := "xyz.openbmc_project.Common.Error.InternalFailure"

def failureLog : PropertyMap :=
  (∅ : PropertyMap).insert "xyz.openbmc_project.Logging.Entry"
    ((∅ : ExtTreeMap String String).insert "Message" INTERNAL_FAILURE)

theorem elogRequest_resolved_example : ∃ d, requestedType defaultConfig (dumpParams (entryPath 5) "elog") = .ok d ∧
    dumpTypeToString defaultConfig.tables d = some "elog" := by
  let s : Elog.Watch.Daemon (List Nat) BmcDaemon := ⟨∅, none, State.bare ⟨false⟩ .root, true, []⟩
  have hrenders : Renders upperCase exampleYaml defaultConfig.tables := renders_exampleTables
  have htables : (bmcConfig defaultConfig).tables = defaultConfig.tables := rfl
  have herrorLog : (ERROR_LOG, .ELOG, "BMC_DUMP") ∈ defaultConfig.tables.dumpTypeTable := by decide
  have hmessage : messageOf failureLog = some INTERNAL_FAILURE := by decide +kernel
  have hid : getEid (bmcConfig defaultConfig) (entryPath 5) = .ok 5 := by decide +kernel
  have hnew : 5 ∉ s.elogList := by simp [s]
  obtain ⟨key, hkey, -, hiff⟩ := elogRequest_resolved_iff hrenders htables herrorLog hmessage (by decide) (by decide)
    (by decide +kernel) hid hnew (plainRequest 7)
  have hkey' : findErrorType defaultConfig.tables INTERNAL_FAILURE = some "elog" := by decide
  cases hkey.symm.trans hkey'
  exact hiff.mpr ⟨rfl, by decide⟩

def clashingYaml : Yaml where
  DUMP_TYPE_TABLE := exampleYaml.DUMP_TYPE_TABLE
  ERROR_TYPE_DICT := ⟨[("Core", [INTERNAL_FAILURE])], by decide⟩

def clashingTables : DumpTypeTables where
  dumpTypeTable := exampleTables.dumpTypeTable
  dumpTypeToStringMap := exampleTables.dumpTypeToStringMap
  errorMap := [("Core", [INTERNAL_FAILURE])]

theorem clashing_key_unresolved : Renders upperCase clashingYaml clashingTables ∧
    (ERROR_LOG, .ELOG, "BMC_DUMP") ∈ clashingTables.dumpTypeTable ∧
    (∃ item ∈ clashingYaml.ERROR_TYPE_DICT.items, INTERNAL_FAILURE ∈ item.2) ∧
    findErrorType clashingTables INTERNAL_FAILURE = some "Core" ∧
    requestedType { defaultConfig with tables := clashingTables } (dumpParams (entryPath 5) "Core") =
      .error (.stdInvalidArgument "Dump type not found") := by
  have hvalidate : validateDumpType clashingTables ERROR_LOG "BMC_DUMP" = .ok .ELOG := by decide
  have hstring : stringToDumpType clashingTables "Core" = none := by decide
  have herror : getErrorDumpType clashingTables (dumpParams (entryPath 5) "Core") =
      .error (.stdInvalidArgument "Dump type not found") := by
    rw [getErrorDumpType, extract_errorType]
    simp only [bind, Except.bind, hstring]
    rfl
  refine ⟨⟨.of_eq (by decide), .of_eq (by decide), .of_eq (by decide), by decide, by decide⟩, by decide,
    by decide, by decide, ?_⟩
  rw [requestedType_eq, extract_dumpType]
  simp only [bind, Except.bind, hvalidate, herror, if_true]

end Examples

end DumpCollector.Elog.ErrorTypes
