import DumpCollector.Batches

namespace DumpCollector.Core.Manager

open Std Lib.Directory Lib.Maps Inotify Requests Batches

structure Config where
  JFFS_CORE_FILE_WORKAROUND : Bool
  CORE_FILE_DIR : Path
  BMC_DUMP_OBJPATH : String

abbrev MapperResponse := ExtTreeMap String (List String)

/-- What the bus answers to the calls for one batch: the reply of the mapper, unless its
call ends with an exception, and whether the second call can be sent. -/
structure Answers where
  mapper : Option MapperResponse
  sent : Bool

inductive Call
  | getObject (path : String) (interfaces : List String)
  | createDump (host path : String) (params : DumpCreateParams)

def DUMP_CREATE_IFACE : String := "xyz.openbmc_project.Dump.Create"

variable (cfg : Config)

def coreFileEvent : Nat := if cfg.JFFS_CORE_FILE_WORKAROUND then IN_CLOSE_WRITE else IN_CREATE

def coreWatch : Watch := .new cfg.CORE_FILE_DIR (coreFileEvent cfg)

def pathText (p : Path) : String := "/".intercalate ("" :: p)

def isCore (name : String) : Bool := name.toList.takeWhile (· ≠ '.') = "core".toList

def coreFiles (fileInfo : UserMap) : List String :=
  (fileInfo.keys.filter fun file => isCore (filename file)).map pathText

def params (file : String) : DumpCreateParams :=
  ((∅ : DumpCreateParams).insert (convertCreateParametersToString .DumpType)
    (.str "xyz.openbmc_project.Dump.Create.DumpType.ApplicationCored")).insert
    (convertCreateParametersToString .FilePath) (.str file)

def createHelper (answers : Answers) (files : List String) : List Call :=
  .getObject cfg.BMC_DUMP_OBJPATH [DUMP_CREATE_IFACE] ::
    match answers.mapper with
    | none => []
    | some mapperResponse =>
        match mapperResponse.keys.head? with
        | none => []
        | some host =>
            if answers.sent then [.createDump host cfg.BMC_DUMP_OBJPATH (params (files.headD ""))] else []

def watchCallback (answers : Answers) (fileInfo : UserMap) : List Call :=
  if (coreFiles fileInfo).isEmpty then [] else createHelper cfg answers (coreFiles fileInfo)

def watchCallbacks (answers : Nat → Answers) : Nat → List UserMap → List Call
  | _, [] => []
  | k, fileInfo :: rest => watchCallback cfg (answers k) fileInfo ++ watchCallbacks answers (k + 1) rest

def filePath : Call → Option Variant
  | .getObject _ _ => none
  | .createDump _ _ params => params[convertCreateParametersToString .FilePath]?

def filePaths (calls : List Call) : List Variant := calls.filterMap filePath

/-- The mapper knows an owner of the interface, and the request can be sent. -/
def Answers.Succeeds (answers : Answers) : Prop :=
  (∃ mapperResponse host, answers.mapper = some mapperResponse ∧ mapperResponse.keys.head? = some host) ∧
    answers.sent = true

section Requests

variable {cfg} {answers : Nat → Answers}

theorem filePaths_watchCallback {a : Answers} (h : a.Succeeds) (fileInfo : UserMap) :
    filePaths (watchCallback cfg a fileInfo) = ((coreFiles fileInfo).take 1).map Variant.str := by
  obtain ⟨⟨mapperResponse, host, hmapper, hhost⟩, hsent⟩ := h
  rw [watchCallback]
  cases hfiles : coreFiles fileInfo with
  | nil => rfl
  | cons file rest =>
      have hparam : filePath (.createDump host cfg.BMC_DUMP_OBJPATH (params file)) = some (.str file) := by
        rw [filePath, params, insert_get, if_pos rfl]
      have hcalls : createHelper cfg a (file :: rest) = [.getObject cfg.BMC_DUMP_OBJPATH [DUMP_CREATE_IFACE],
          .createDump host cfg.BMC_DUMP_OBJPATH (params file)] := by
        simp [createHelper, hmapper, hhost, hsent]
      rw [if_neg (by simp), hcalls, filePaths, List.filterMap_cons_none rfl, List.filterMap_cons_some hparam]
      rfl

theorem filePaths_watchCallbacks (h : ∀ k, (answers k).Succeeds) (k : Nat) (maps : List UserMap) :
    filePaths (watchCallbacks cfg answers k maps) =
      maps.flatMap fun fileInfo => ((coreFiles fileInfo).take 1).map Variant.str := by
  induction maps generalizing k with
  | nil => rfl
  | cons fileInfo rest ih =>
      rw [watchCallbacks, filePaths, List.filterMap_append, List.flatMap_cons]
      exact congrArg₂ (· ++ ·) (filePaths_watchCallback (h k) fileInfo) (ih (k + 1))

end Requests

section Reports

def reportsCore (e : InotifyEvent) : Bool := isReported (coreWatch cfg) e && isCore e.name

def eventPath (e : InotifyEvent) : Variant := .str (pathText (cfg.CORE_FILE_DIR ++ [e.name]))

def corePaths (events : List InotifyEvent) : List Variant := (events.filter (reportsCore cfg)).map (eventPath cfg)

variable {cfg} {b : List InotifyEvent}

theorem mem_coreKeys (p : Path) :
    p ∈ (userMap (coreWatch cfg) b).keys.filter (fun file => isCore (filename file)) ↔
      p ∈ (b.filter (reportsCore cfg)).map fun e => cfg.CORE_FILE_DIR ++ [e.name] := by
  rw [List.mem_filter, mem_keys_userMap, List.mem_map]
  constructor
  · rintro ⟨⟨e, he, hrep, rfl⟩, hcore⟩
    rw [filename_append] at hcore
    exact ⟨e, List.mem_filter.mpr ⟨he, by rw [reportsCore, hrep, hcore]; rfl⟩, rfl⟩
  · rintro ⟨e, he, rfl⟩
    obtain ⟨hmem, hrep⟩ := List.mem_filter.mp he
    rw [reportsCore, Bool.and_eq_true] at hrep
    refine ⟨⟨e, hmem, hrep.1, rfl⟩, ?_⟩
    rw [filename_append]
    exact hrep.2

theorem coreFiles_perm (h : (b.filter (reportsCore cfg)).length ≤ 1) :
    ((coreFiles (userMap (coreWatch cfg) b)).map Variant.str).Perm (corePaths cfg b) := by
  have hnodup : ((b.filter (reportsCore cfg)).map fun e => cfg.CORE_FILE_DIR ++ [e.name]).Nodup := by
    cases hb : b.filter (reportsCore cfg) with
    | nil => exact List.nodup_nil
    | cons e rest =>
        rw [hb, List.length_cons] at h
        rw [List.eq_nil_of_length_eq_zero (by omega : rest.length = 0)]
        exact List.nodup_singleton _
  have hperm := (List.perm_ext_iff_of_nodup (ExtTreeMap.nodup_keys.filter _) hnodup).mpr (mem_coreKeys (b := b))
  have hmap := (hperm.map pathText).map Variant.str
  rw [List.map_map (l := b.filter _), List.map_map (l := b.filter _)] at hmap
  exact hmap

theorem length_take_le (b : List InotifyEvent) :
    ((coreFiles (userMap (coreWatch cfg) b)).take 1).length ≤ (corePaths cfg b).length := by
  rw [List.length_take, coreFiles, corePaths, List.length_map, List.length_map]
  cases hkeys : (userMap (coreWatch cfg) b).keys.filter fun file => isCore (filename file) with
  | nil => simp
  | cons p rest =>
      have hmem : p ∈ (b.filter (reportsCore cfg)).map fun e => cfg.CORE_FILE_DIR ++ [e.name] :=
        (mem_coreKeys p).mp (by rw [hkeys]; exact List.mem_cons_self)
      have hpos : 0 < (b.filter (reportsCore cfg)).length := by
        obtain ⟨e, he, -⟩ := List.mem_map.mp hmem
        exact List.length_pos_of_mem he
      omega

end Reports

section Batches

variable {events : List InotifyEvent}

/-- Every core file that the watch reports is asked for, once for each report. -/
def Requested (bt : Batching events) (answers : Nat → Answers) : Prop :=
  (filePaths (watchCallbacks cfg answers 0 (userMaps (coreWatch cfg) bt.batches))).Perm (corePaths cfg events)

variable {cfg} {answers : Nat → Answers}

theorem flatMap_corePaths (batches : List (List InotifyEvent)) :
    batches.flatMap (corePaths cfg) = corePaths cfg batches.flatten := by
  rw [corePaths, List.filter_flatten, List.map_flatten, List.map_map]
  rfl

theorem forall_length_eq {α β : Type} {f g : β → List α} {xs : List β} (hle : ∀ x, (f x).length ≤ (g x).length)
    (heq : (xs.flatMap f).length = (xs.flatMap g).length) : ∀ x ∈ xs, (f x).length = (g x).length := by
  have hsum : ∀ ys : List β, (ys.flatMap f).length ≤ (ys.flatMap g).length := fun ys => by
    induction ys with
    | nil => exact Nat.le_refl _
    | cons y ys ih =>
        rw [List.flatMap_cons, List.flatMap_cons, List.length_append, List.length_append]
        exact Nat.add_le_add (hle y) ih
  induction xs with
  | nil => simp
  | cons x xs ih =>
      rw [List.flatMap_cons, List.flatMap_cons, List.length_append, List.length_append] at heq
      have hx := hle x
      have hxs := hsum xs
      intro y hy
      rcases List.mem_cons.mp hy with rfl | hy
      · omega
      · exact ih (by omega) y hy

theorem filePaths_eq (h : ∀ k, (answers k).Succeeds) (bt : Batching events) :
    filePaths (watchCallbacks cfg answers 0 (userMaps (coreWatch cfg) bt.batches)) =
      bt.batches.flatMap fun b => ((coreFiles (userMap (coreWatch cfg) b)).take 1).map Variant.str := by
  rw [filePaths_watchCallbacks h]
  exact flatMap_userMaps (f := fun fileInfo => ((coreFiles fileInfo).take 1).map Variant.str) rfl
    fun b hb => (bt.fits b hb).2

/-- The manager asks for all core files exactly if no read returns two of them. -/
theorem requested_iff_alone (h : ∀ k, (answers k).Succeeds) (bt : Batching events) :
    Requested cfg bt answers ↔ ∀ b ∈ bt.batches, (b.filter (reportsCore cfg)).length ≤ 1 := by
  have hcore : corePaths cfg events = bt.batches.flatMap (corePaths cfg) := by rw [flatMap_corePaths, bt.flatten]
  rw [Requested, filePaths_eq h, hcore]
  constructor
  · intro hperm b hb
    have hlength := forall_length_eq (fun b => by rw [List.length_map]; exact length_take_le b) hperm.length_eq b hb
    rw [List.length_map, corePaths, List.length_map, List.length_take] at hlength
    omega
  · intro hall
    refine List.Perm.flatMap_left _ fun b hb => ?_
    have hperm := coreFiles_perm (hall b hb)
    rw [List.take_of_length_le]
    · exact hperm
    · have hlength := hperm.length_eq
      rw [List.length_map, corePaths, List.length_map] at hlength
      have halone := hall b hb
      omega

end Batches

section Crashes

private def coreConfig : Config := ⟨false, ["var", "lib", "systemd", "coredump"], "/xyz/openbmc_project/dump/bmc"⟩

private def answering : Answers :=
  ⟨some ((∅ : MapperResponse).insert "xyz.openbmc_project.Dump.Manager" [DUMP_CREATE_IFACE]), true⟩

private theorem answering_succeeds : answering.Succeeds := ⟨⟨_, _, rfl, rfl⟩, rfl⟩

private def crashed : List InotifyEvent := [⟨IN_CREATE, "core.bmcweb.0"⟩, ⟨IN_CREATE, "core.ipmid.0"⟩]

private def readTogether : Batching crashed := ⟨[crashed], rfl, by decide +kernel⟩

private def readApart : Batching crashed :=
  ⟨[[⟨IN_CREATE, "core.bmcweb.0"⟩], [⟨IN_CREATE, "core.ipmid.0"⟩]], rfl, by decide +kernel⟩

/-- Of two programs that crash at the same time only one is dumped. -/
theorem second_core_not_requested : answering.Succeeds ∧
    corePaths coreConfig crashed = [.str "/var/lib/systemd/coredump/core.bmcweb.0",
      .str "/var/lib/systemd/coredump/core.ipmid.0"] ∧
    filePaths (watchCallbacks coreConfig (fun _ => answering) 0 (userMaps (coreWatch coreConfig) readTogether.batches)) =
      [.str "/var/lib/systemd/coredump/core.bmcweb.0"] ∧
    ¬ Requested coreConfig readTogether fun _ => answering := by
  have hcore : corePaths coreConfig crashed = [.str "/var/lib/systemd/coredump/core.bmcweb.0",
      .str "/var/lib/systemd/coredump/core.ipmid.0"] := by decide +kernel
  have hfile : filePaths (watchCallbacks coreConfig (fun _ => answering) 0
      (userMaps (coreWatch coreConfig) readTogether.batches)) =
        [.str "/var/lib/systemd/coredump/core.bmcweb.0"] := by decide +kernel
  refine ⟨answering_succeeds, hcore, hfile, fun h => ?_⟩
  have hlength := h.length_eq
  rw [hfile, hcore] at hlength
  cases hlength

theorem apart_requested : Requested coreConfig readApart fun _ => answering :=
  (requested_iff_alone (fun _ => answering_succeeds) readApart).mpr (by decide +kernel)

end Crashes

end DumpCollector.Core.Manager
