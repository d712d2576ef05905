import DumpCollector.Bmc.Manager
import DumpCollector.Lib.Firsts

namespace DumpCollector.Templates

open Requests Bmc.Manager Lib.Effects Lib.Firsts

/-- A dictionary of Python: its items in the order they were inserted. -/
structure Dict (β : Type) where
  items : List (String × β)
  nodup : (items.map Prod.fst).Nodup

/-- What the YAML files are loaded to, each text being the one that its literal in the rendered
file denotes. Of the list of values under a dump type the templates read the first two. -/
structure Yaml where
  DUMP_TYPE_TABLE : List (Dict (String × String))
  ERROR_TYPE_DICT : Dict (List String)

section Rendering

variable (upper : String → String) (yaml : Yaml)

def dumpTypes : List (String × String × String) := yaml.DUMP_TYPE_TABLE.flatMap Dict.items

def enumerator (name : String) : DumpTypes := ⟨upper name⟩

def renderName {β : Type} (line : String → β) (acc : List β × List String) (name : String) : List β × List String :=
  if upper name ∈ acc.2 then acc else (acc.1 ++ [line name], upper name :: acc.2)

def enumValues : List DumpTypes :=
  let acc := (dumpTypes yaml).foldl (fun acc (_, values) => renderName upper (enumerator upper) acc values.1) ([], [])
  (yaml.ERROR_TYPE_DICT.items.foldl (fun acc (key, _) => renderName upper (enumerator upper) acc key) acc).1

def dumpTypeItems : List (String × DumpTypes × String) :=
  (dumpTypes yaml).map fun (key, values) => (key, enumerator upper values.1, values.2)

def dumpTypeToStringItems : List (DumpTypes × String) :=
  let line (name : String) : DumpTypes × String := (enumerator upper name, name)
  let acc := (dumpTypes yaml).foldl (fun acc (_, values) => renderName upper line acc values.1) ([], [])
  (yaml.ERROR_TYPE_DICT.items.foldl (fun acc (key, _) => renderName upper line acc key) acc).1

/-- The maps hold the rendered items in an order that is not specified; of several with one key
the first is in the map. The sources name two of the enumerators, so without them the
rendered files do not compile. -/
structure Renders (tables : DumpTypeTables) : Prop where
  dumpTypeTable : tables.dumpTypeTable.Perm (firsts Prod.fst [] (dumpTypeItems upper yaml))
  dumpTypeToStringMap : tables.dumpTypeToStringMap.Perm (firsts Prod.fst [] (dumpTypeToStringItems upper yaml))
  errorMap : tables.errorMap.Perm (firsts Prod.fst [] yaml.ERROR_TYPE_DICT.items)
  USER : .USER ∈ enumValues upper yaml
  ELOG : .ELOG ∈ enumValues upper yaml

end Rendering

section Names

variable {upper : String → String} {yaml : Yaml} {d : DumpTypes} {name : String}

def names (yaml : Yaml) : List String :=
  (dumpTypes yaml).map (fun item => item.2.1) ++ yaml.ERROR_TYPE_DICT.items.map Prod.fst

def spellings (upper : String → String) (yaml : Yaml) : List String := firsts upper [] (names yaml)

theorem foldl_renderName (upper : String → String) {β : Type} (line : String → β) (l : List String)
    (acc : List β × List String) :
    (l.foldl (renderName upper line) acc).1 = acc.1 ++ (firsts upper acc.2 l).map line := by
  induction l generalizing acc with
  | nil => simp [firsts]
  | cons name l ih =>
      rw [List.foldl_cons, ih, renderName, firsts]
      by_cases hseen : upper name ∈ acc.2
      · simp [hseen]
      · simp [hseen]

theorem foldl_names {β : Type} (line : String → β) :
    (yaml.ERROR_TYPE_DICT.items.foldl (fun acc item => renderName upper line acc item.1)
      ((dumpTypes yaml).foldl (fun acc item => renderName upper line acc item.2.1) ([], []))).1 =
      (spellings upper yaml).map line := by
  have h := foldl_renderName upper line (names yaml) ([], [])
  rw [names, List.foldl_append, List.foldl_map, List.foldl_map] at h
  exact h.trans (List.nil_append _)

theorem enumValues_eq : enumValues upper yaml = (spellings upper yaml).map (enumerator upper) :=
  foldl_names (enumerator upper)

theorem dumpTypeToStringItems_eq :
    dumpTypeToStringItems upper yaml = (spellings upper yaml).map fun name => (enumerator upper name, name) :=
  foldl_names fun name => (enumerator upper name, name)

theorem enumerator_mem (hname : name ∈ names yaml) : enumerator upper name ∈ enumValues upper yaml := by
  obtain ⟨first, hfirst, hupper⟩ := exists_mem_firsts upper hname (List.not_mem_nil (a := upper name))
  rw [enumValues_eq]
  have heq : enumerator upper first = enumerator upper name := congrArg DumpTypes.mk hupper
  exact heq ▸ List.mem_map_of_mem hfirst

theorem nodup_enumerators : ((dumpTypeToStringItems upper yaml).map Prod.fst).Nodup := by
  have hupper : ((spellings upper yaml).map upper).Nodup := nodup_keys_firsts
  have hmk : Function.Injective DumpTypes.mk := fun a b h => congrArg DumpTypes.enumerator h
  rw [dumpTypeToStringItems_eq, List.map_map]
  have hmap := hupper.map hmk
  rwa [List.map_map] at hmap

theorem nodup_strings : ((dumpTypeToStringItems upper yaml).map Prod.snd).Nodup := by
  have hupper : ((spellings upper yaml).map upper).Nodup := nodup_keys_firsts
  rw [dumpTypeToStringItems_eq, List.map_map]
  have hid : (Prod.snd ∘ fun name => (enumerator upper name, name)) = id := rfl
  rw [hid, List.map_id]
  exact hupper.of_map

end Names

section Maps

variable {upper : String → String} {yaml : Yaml} {tables : DumpTypeTables} {d : DumpTypes} {str : String}

theorem Renders.perm_items (h : Renders upper yaml tables) :
    tables.dumpTypeToStringMap.Perm (dumpTypeToStringItems upper yaml) := by
  have hperm := h.dumpTypeToStringMap
  rwa [firsts_of_nodup nodup_enumerators (by simp)] at hperm

theorem Renders.mem_dumpTypeToStringMap (h : Renders upper yaml tables) :
    (d, str) ∈ tables.dumpTypeToStringMap ↔ str ∈ spellings upper yaml ∧ enumerator upper str = d := by
  rw [h.perm_items.mem_iff, dumpTypeToStringItems_eq]
  constructor
  · intro hmem
    obtain ⟨name, hname, heq⟩ := List.mem_map.mp hmem
    cases heq
    exact ⟨hname, rfl⟩
  · rintro ⟨hname, rfl⟩
    exact List.mem_map_of_mem hname

theorem Renders.nodup_dumpTypeTable (h : Renders upper yaml tables) : (tables.dumpTypeTable.map Prod.fst).Nodup :=
  (h.dumpTypeTable.map Prod.fst).nodup_iff.mpr nodup_keys_firsts

theorem Renders.dumpTypeToString_iff (h : Renders upper yaml tables) :
    dumpTypeToString tables d = some str ↔ str ∈ spellings upper yaml ∧ enumerator upper str = d := by
  have hnodup : (tables.dumpTypeToStringMap.map Prod.fst).Nodup :=
    (h.perm_items.map Prod.fst).nodup_iff.mpr nodup_enumerators
  rw [← h.mem_dumpTypeToStringMap, dumpTypeToString, find_map_iff_of_nodup hnodup]
  simp

theorem Renders.stringToDumpType_iff (h : Renders upper yaml tables) :
    stringToDumpType tables str = some d ↔ str ∈ spellings upper yaml ∧ enumerator upper str = d := by
  have hnodup : (tables.dumpTypeToStringMap.map Prod.snd).Nodup :=
    (h.perm_items.map Prod.snd).nodup_iff.mpr nodup_strings
  rw [← h.mem_dumpTypeToStringMap, stringToDumpType, find_map_iff_of_nodup hnodup]
  simp

theorem Renders.mem_enumValues_iff (h : Renders upper yaml tables) :
    d ∈ enumValues upper yaml ↔ ∃ str, dumpTypeToString tables d = some str := by
  rw [enumValues_eq, List.mem_map]
  simp only [h.dumpTypeToString_iff]

end Maps

section Requests

variable {upper : String → String} {yaml : Yaml} {tables : DumpTypeTables} {d : DumpTypes}

theorem Renders.dumpTypeTable_mem (h : Renders upper yaml tables) {item : String × DumpTypes × String}
    (hitem : item ∈ tables.dumpTypeTable) : item.2.1 ∈ enumValues upper yaml := by
  have hmem := mem_of_mem_firsts (h.dumpTypeTable.mem_iff.mp hitem)
  obtain ⟨⟨key, v0, v1⟩, hrow, rfl⟩ := List.mem_map.mp hmem
  apply enumerator_mem
  exact List.mem_append_left _ (List.mem_map_of_mem (f := fun item => item.2.1) hrow)

/-- Since the map has each key once, a type is accepted in exactly the category it stands in. -/
theorem Renders.validateDumpType_eq_ok (h : Renders upper yaml tables) {type category : String} (htype : type ≠ "") :
    validateDumpType tables type category = .ok d ↔ (type, d, category) ∈ tables.dumpTypeTable := by
  rw [validateDumpType, if_neg htype]
  cases hfind : tables.dumpTypeTable.find? fun pair => pair.1 = type ∧ pair.2.2 = category with
  | none =>
      simp only [reduceCtorEq, false_iff]
      intro hmem
      simpa using List.find?_eq_none.mp hfind _ hmem
  | some item =>
      have hitem := List.mem_of_find?_eq_some hfind
      obtain ⟨hkey, hcategory⟩ : item.1 = type ∧ item.2.2 = category := by simpa using List.find?_some hfind
      constructor
      · intro hok
        cases hok
        rw [← hkey, ← hcategory]
        exact hitem
      · intro hmem
        rw [List.inj_on_of_nodup_map h.nodup_dumpTypeTable hitem hmem hkey]

theorem Renders.validateDumpType_mem (h : Renders upper yaml tables) {type category : String}
    (hok : validateDumpType tables type category = .ok d) : d ∈ enumValues upper yaml := by
  by_cases htype : type = ""
  · rw [validateDumpType, if_pos htype] at hok
    exact Except.ok.inj hok ▸ h.USER
  · exact h.dumpTypeTable_mem ((h.validateDumpType_eq_ok htype).mp hok)

theorem getErrorDumpType_eq_ok {params : DumpCreateParams} :
    getErrorDumpType tables params = .ok d ↔
      ∃ errorType, extractParameter (convertCreateParametersToString .ErrorType) params = .ok errorType ∧
        isErrorTypeValid tables errorType = true ∧ stringToDumpType tables errorType = some d := by
  rw [getErrorDumpType, except_bind_eq_ok]
  apply exists_congr
  intro errorType
  apply and_congr_right
  intro _
  cases isErrorTypeValid tables errorType with
  | false => simp
  | true => cases stringToDumpType tables errorType <;> simp

theorem Renders.getErrorDumpType_mem (h : Renders upper yaml tables) {params : DumpCreateParams}
    (hok : getErrorDumpType tables params = .ok d) : d ∈ enumValues upper yaml := by
  obtain ⟨errorType, -, -, hstring⟩ := getErrorDumpType_eq_ok.mp hok
  exact h.mem_enumValues_iff.mpr ⟨errorType, h.dumpTypeToString_iff.mpr (h.stringToDumpType_iff.mp hstring)⟩

theorem requestedType_eq (cfg : Config) (params : DumpCreateParams) :
    requestedType cfg params =
      extractParameter (convertCreateParametersToString .DumpType) params >>= fun type =>
      validateDumpType cfg.tables type "BMC_DUMP" >>= fun d =>
      (if d = .ELOG then getErrorDumpType cfg.tables params else .ok d) >>= fun d =>
      extractParameter (convertCreateParametersToString .FilePath) params >>= fun _ => .ok d := by
  rw [requestedType]
  apply bind_congr
  intro type
  have helog (d : DumpTypes) (k : DumpTypes → Except Exn DumpTypes) :
      (if d = .ELOG then getErrorDumpType cfg.tables params >>= k else .ok d >>= k) =
        (if d = .ELOG then getErrorDumpType cfg.tables params else .ok d) >>= k := by
    by_cases hd : d = .ELOG
    · rw [if_pos hd, if_pos hd]
    · rw [if_neg hd, if_neg hd]
  simp only [helog]
  by_cases htype : type = ""
  · rw [if_pos htype, validateDumpType, if_pos htype]
    rfl
  · rw [if_neg htype]
    rfl

theorem Renders.requestedType_mem {cfg : Config} {params : DumpCreateParams} (h : Renders upper yaml cfg.tables)
    (hok : requestedType cfg params = .ok d) : d ∈ enumValues upper yaml := by
  rw [requestedType_eq] at hok
  obtain ⟨type, -, hok⟩ := except_bind_eq_ok.mp hok
  obtain ⟨d₀, hvalidate, hok⟩ := except_bind_eq_ok.mp hok
  obtain ⟨d₁, helog, hok⟩ := except_bind_eq_ok.mp hok
  obtain ⟨path, -, hd⟩ := except_bind_eq_ok.mp hok
  cases hd
  by_cases hd₀ : d₀ = .ELOG
  · rw [if_pos hd₀] at helog
    exact h.getErrorDumpType_mem helog
  · rw [if_neg hd₀] at helog
    cases helog
    exact h.validateDumpType_mem hvalidate

theorem Renders.value_ok (h : Renders upper yaml tables) (hd : d ∈ enumValues upper yaml) :
    ∃ str, value (dumpTypeToString tables d) = .ok str := by
  obtain ⟨str, hstr⟩ := h.mem_enumValues_iff.mp hd
  exact ⟨str, congrArg value hstr⟩

end Requests

/-- The header and the map are rendered by loops of their own, and still each enumerator has one
string and each string one enumerator. -/
theorem enumerators_convert {upper : String → String} {yaml : Yaml} {cfg : Config}
    (h : Renders upper yaml cfg.tables) :
    (∀ d ∈ enumValues upper yaml, ∃ str, dumpTypeToString cfg.tables d = some str) ∧
    (∀ d ∈ enumValues upper yaml, ∀ d' ∈ enumValues upper yaml,
      d ≠ d' → dumpTypeToString cfg.tables d ≠ dumpTypeToString cfg.tables d') ∧
    (∀ d ∈ enumValues upper yaml,
      (dumpTypeToString cfg.tables d).bind (stringToDumpType cfg.tables) = some d) ∧
    (∀ type category d, validateDumpType cfg.tables type category = .ok d →
      ∃ str, value (dumpTypeToString cfg.tables d) = .ok str) ∧
    (∀ params d, getErrorDumpType cfg.tables params = .ok d →
      ∃ str, value (dumpTypeToString cfg.tables d) = .ok str) ∧
    (∀ params d, requestedType cfg params = .ok d →
      ∃ str, value (dumpTypeToString cfg.tables d) = .ok str) := by
  have hback : ∀ d ∈ enumValues upper yaml,
      (dumpTypeToString cfg.tables d).bind (stringToDumpType cfg.tables) = some d := by
    intro d hd
    obtain ⟨str, hstr⟩ := h.mem_enumValues_iff.mp hd
    rw [hstr, Option.bind_some]
    exact h.stringToDumpType_iff.mpr (h.dumpTypeToString_iff.mp hstr)
  refine ⟨fun d => h.mem_enumValues_iff.mp, fun d hd d' hd' hne heq => hne ?_, hback, ?_, ?_, ?_⟩
  · have hd := hback d hd
    rw [heq, hback d' hd'] at hd
    exact (Option.some.inj hd).symm
  · intro type category d hok
    exact h.value_ok (h.validateDumpType_mem hok)
  · intro params d hok
    exact h.value_ok (h.getErrorDumpType_mem hok)
  · intro params d hok
    exact h.value_ok (h.requestedType_mem hok)

def upperCase (name : String) : String := .ofList (name.toList.map Char.toUpper)

def exampleYaml : Yaml where
  DUMP_TYPE_TABLE :=
    [⟨[("xyz.openbmc_project.Dump.Create.DumpType.UserRequested", "user", "BMC_DUMP")], by decide⟩,
      ⟨[("xyz.openbmc_project.Dump.Create.DumpType.ApplicationCored", "core", "BMC_DUMP")], by decide⟩,
      ⟨[("xyz.openbmc_project.Dump.Create.DumpType.Ramoops", "ramoops", "BMC_DUMP")], by decide⟩,
      ⟨[("xyz.openbmc_project.Dump.Create.DumpType.ErrorLog", "elog", "BMC_DUMP")], by decide⟩]
  ERROR_TYPE_DICT := ⟨[("elog", ["xyz.openbmc_project.Common.Error.InternalFailure"])], by decide⟩

theorem renders_exampleTables : Renders upperCase exampleYaml exampleTables where
  dumpTypeTable := .of_eq (by decide)
  dumpTypeToStringMap := .of_eq (by decide)
  errorMap := .of_eq (by decide)
  USER := by decide
  ELOG := by decide

theorem enumerators_convert_example :
    (dumpTypeToString defaultConfig.tables .ELOG).bind (stringToDumpType defaultConfig.tables) = some .ELOG :=
  (enumerators_convert (show Renders upperCase exampleYaml defaultConfig.tables from renders_exampleTables)).2.2.1
    .ELOG renders_exampleTables.ELOG

end DumpCollector.Templates
