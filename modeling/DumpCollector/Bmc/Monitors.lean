import DumpCollector.Bmc.Launch
import DumpCollector.Core.Manager
import DumpCollector.Elog.ErrorTypes

namespace DumpCollector.Bmc.Monitors

open Std Lib.Effects Lib.Maps Lib.Runs Lib.Words FileNames Inotify Requests ObjectPaths Bmc.Manager Bmc.Launch
open DumpCollector.Templates Elog.ErrorTypes Dreport.Options Dreport.Invocation
open Batches (Batching userMaps flatMap_userMaps)

def APPLICATION_CORED : String := "xyz.openbmc_project.Dump.Create.DumpType.ApplicationCored"

section Requests

variable (cfg : Bmc.Manager.Config) (inst : Installed)

/-- Whenever the manager answers a request with a new id, dreport comes to work on a dump of the
type, on the path and under the id. -/
def WorksOn (params : DumpCreateParams) (type path : Word) : Prop :=
  ∀ (r : Request) (s t : BmcDaemon) (n : Nat), r.params = params → createDump cfg r s = .ok n t → n ∉ s.entries →
    ∀ (sh : Shell) (abbreviated : Word → Option Word) (EPOCHTIME : Nat),
      ∃ args u o report, launch cfg inst r s = .ok args u ∧ options sh.names abbreviated args = .ok o ∧
        initializeReport sh true EPOCHTIME o = some report ∧ report.dump_type = type ∧ o.optional_path = path ∧
        o.dump_id = decimal n ∧ o.dump_dir = cStr (joined inst.dumpDir (decimal n))

variable {cfg} {params : DumpCreateParams} {strType path : String}

theorem worksOn (htype : ∀ d, requestedType cfg params = .ok d → dumpTypeToString cfg.tables d = some strType)
    (hpath : extractParameter (convertCreateParametersToString .FilePath) params = .ok path) :
    WorksOn cfg inst params (reportedType (cStr strType.toList)) (cStr path.toList) := by
  rintro r s t n rfl h hunused sh abbreviated EPOCHTIME
  obtain ⟨o, u, hprepare, hn, -⟩ := createDump_ok h hunused
  obtain ⟨size, strType', path', -, hrequested, hstr, hpath', hlaunch⟩ := launch_of_prepare inst hprepare
  cases (htype o.2.2 hrequested).symm.trans hstr
  cases hpath.symm.trans hpath'
  rw [hn] at hlaunch
  exact ⟨_, u, _, _, hlaunch, options_bmcArgs sh.names abbreviated _ n size path.toList strType.toList
    inst.CompressionType, rfl, rfl, rfl, rfl, rfl⟩

end Requests

section Cores

open Core.Manager (coreWatch watchCallback watchCallbacks reportsCore coreFiles pathText isCore mem_coreKeys)

variable {upper : String → String} {yaml : Yaml} {cfg : Bmc.Manager.Config} {core : Core.Manager.Config}
  {answers : Nat → Core.Manager.Answers} {host objectPath category strType : String} {params : DumpCreateParams}
  {d : DumpTypes}

theorem extract_coreType (file : String) :
    extractParameter (convertCreateParametersToString .DumpType) (Core.Manager.params file) =
      .ok APPLICATION_CORED := by
  rw [Core.Manager.params, extractParameter_insert_of_ne (by simp [convertCreateParametersToString])]
  exact extractParameter_insert_self _ _ _

theorem extract_corePath (file : String) :
    extractParameter (convertCreateParametersToString .FilePath) (Core.Manager.params file) = .ok file :=
  extractParameter_insert_self _ _ _

theorem requestedType_core (h : Renders upper yaml cfg.tables)
    (hcored : (APPLICATION_CORED, d, category) ∈ cfg.tables.dumpTypeTable) (hne : d ≠ .ELOG) {file : String}
    {d' : DumpTypes} (hok : requestedType cfg (Core.Manager.params file) = .ok d') : d' = d := by
  have hname : APPLICATION_CORED ≠ "" := by simp [APPLICATION_CORED]
  rw [requestedType_eq] at hok
  obtain ⟨type, htype, hok⟩ := except_bind_eq_ok.mp hok
  cases (extract_coreType file).symm.trans htype
  obtain ⟨d₀, hvalidate, hok⟩ := except_bind_eq_ok.mp hok
  have hmem := (h.validateDumpType_eq_ok hname).mp hvalidate
  cases List.inj_on_of_nodup_map h.nodup_dumpTypeTable hcored hmem rfl
  rw [if_neg hne] at hok
  obtain ⟨_, hd, hok⟩ := except_bind_eq_ok.mp hok
  cases hd
  obtain ⟨_, -, hd⟩ := except_bind_eq_ok.mp hok
  cases hd
  rfl

theorem mem_watchCallback {a : Core.Manager.Answers} {fileInfo : UserMap}
    (h : .createDump host objectPath params ∈ watchCallback core a fileInfo) :
    ∃ file ∈ coreFiles fileInfo, params = Core.Manager.params file := by
  rw [watchCallback] at h
  cases hfiles : coreFiles fileInfo with
  | nil =>
      rw [hfiles] at h
      cases h
  | cons file rest =>
      rw [hfiles, if_neg (by simp), Core.Manager.createHelper] at h
      refine ⟨file, List.mem_cons_self, ?_⟩
      have hcall := (List.mem_cons.mp h).resolve_left (by simp)
      split at hcall
      · cases hcall
      · split at hcall
        · cases hcall
        · split at hcall
          · cases List.mem_singleton.mp hcall
            rfl
          · cases hcall

theorem mem_watchCallbacks {k : Nat} {maps : List UserMap}
    (h : .createDump host objectPath params ∈ watchCallbacks core answers k maps) :
    ∃ fileInfo ∈ maps, ∃ file ∈ coreFiles fileInfo, params = Core.Manager.params file := by
  induction maps generalizing k with
  | nil => cases h
  | cons fileInfo rest ih =>
      rw [watchCallbacks] at h
      rcases List.mem_append.mp h with h | h
      · exact ⟨fileInfo, List.mem_cons_self, mem_watchCallback h⟩
      · obtain ⟨fileInfo', hmem, hfile⟩ := ih h
        exact ⟨fileInfo', List.mem_cons_of_mem _ hmem, hfile⟩

theorem core_asked {events : List InotifyEvent} (bt : Batching events)
    (h : .createDump host objectPath params ∈ watchCallbacks core answers 0 (userMaps (coreWatch core) bt.batches)) :
    ∃ e ∈ events, reportsCore core e = true ∧
      params = Core.Manager.params (pathText (core.CORE_FILE_DIR ++ [e.name])) := by
  obtain ⟨fileInfo, hmem, file, hfile, rfl⟩ := mem_watchCallbacks h
  have hfiles : file ∈ (userMaps (coreWatch core) bt.batches).flatMap coreFiles := List.mem_flatMap.mpr ⟨_, hmem, hfile⟩
  rw [flatMap_userMaps (f := coreFiles) rfl fun b hb => (bt.fits b hb).2] at hfiles
  obtain ⟨b, hb, hfile⟩ := List.mem_flatMap.mp hfiles
  obtain ⟨p, hp, rfl⟩ := List.mem_map.mp hfile
  obtain ⟨e, he, rfl⟩ := List.mem_map.mp ((mem_coreKeys p).mp hp)
  obtain ⟨he, hreports⟩ := List.mem_filter.mp he
  refine ⟨e, ?_, hreports, rfl⟩
  rw [← bt.flatten]
  exact List.mem_flatten.mpr ⟨b, hb, he⟩

end Cores

section Errors

open Elog.Watch (isEntry dumpParams Outcome callback callback_outcome dispatched started started_calls errorType)

variable {A M R : Type} {watch : Elog.Watch.Config A M R} {s t : Elog.Watch.Daemon A M}

variable (watch) in
/-- The call is for an entry of the log whose message is listed, and names the entry and the
type of the error. -/
def Asked (c : Elog.Watch.Call A) : Prop :=
  isEntry c.objectPath = true ∧ ∃ message key, findErrorType watch.tables message = some key ∧
    c.params = dumpParams c.objectPath key

theorem errorType_listed {propertyMap : Elog.Watch.PropertyMap} {type : String}
    (h : errorType watch propertyMap = some type) : ∃ message, findErrorType watch.tables message = some type := by
  rw [errorType] at h
  split at h
  · cases h
  · split at h
    · cases h
    · split at h
      · cases h
      · exact ⟨_, h⟩

theorem step_asked {ev : Elog.Watch.Event M R} (hs : ∀ c ∈ s.calls, Asked watch c)
    (h : Elog.Watch.step watch s ev = some t) : ∀ c ∈ t.calls, Asked watch c := by
  cases ev with
  | restart mgr =>
      cases h
      rw [started_calls]
      exact hs
  | signal objectPath sig =>
      rw [Elog.Watch.step] at h
      split at h
      · have houtcome : Outcome watch objectPath s sig (callback watch objectPath sig s) := callback_outcome sig
        obtain ⟨-, -, hcalls⟩ := Elog.Histories.final_dispatched (callback watch objectPath sig s)
        rw [Option.some.inj h] at hcalls
        generalize callback watch objectPath sig s = x at houtcome hcalls
        cases houtcome with
        | passed _ _ => exact hcalls ▸ hs
        | refused _ e _ _ _ => exact hcalls ▸ hs
        | forgot eId _ _ _ => exact hcalls ▸ hs
        | called propertyMap r eId type mgr _ hentry _ _ htype hfinal =>
            rw [hcalls, hfinal]
            intro c hc
            rcases List.mem_append.mp hc with hc | hc
            · exact hs c hc
            · cases List.mem_singleton.mp hc
              obtain ⟨message, hmessage⟩ := errorType_listed htype
              exact ⟨hentry, message, type, hmessage, rfl⟩
      · cases h

theorem run_asked {file : Option A} {mgr : M} {es : List (Elog.Watch.Event M R)}
    (hrun : run (Elog.Watch.step watch) (started watch file mgr []) es = some s) : ∀ c ∈ s.calls, Asked watch c := by
  refine invariant_run (I := fun s => ∀ c ∈ s.calls, Asked watch c) (fun s ev t hs h => step_asked hs h) hrun ?_
  rw [started_calls]
  exact nofun

theorem cStr_objectPath (p : ObjectPath) : cStr p.str = p.str := by
  rw [cStr, List.takeWhile_eq_self_iff]
  intro c hc
  have hpath : c = '/' ∨ isPathChar c = true := by
    rw [ObjectPath.str] at hc
    cases hp : p.elements with
    | nil =>
        rw [hp] at hc
        exact .inl (List.mem_singleton.mp hc)
    | cons e rest =>
        rw [hp] at hc
        obtain ⟨element, helement, hc⟩ := List.mem_flatMap.mp hc
        rcases List.mem_cons.mp hc with rfl | hc
        · exact .inl rfl
        · exact .inr (List.all_eq_true.mp (p.valid element (hp ▸ helement)).2 c hc)
  rw [decide_eq_true_eq]
  rintro rfl
  rcases hpath with heq | hchar
  · exact absurd heq (by decide)
  · exact absurd hchar (by decide)

end Errors

section Monitors

open Elog.Watch (isEntry started)
open Core.Manager (coreWatch watchCallbacks reportsCore pathText)

variable {A M R : Type}

end Monitors

section Crashes

open Elog.Watch (isEntry started entryPath)
open Elog.Histories (bmcConfig)
open Core.Manager (coreWatch watchCallbacks filePath filePaths MapperResponse DUMP_CREATE_IFACE)

private def crashMonitor : Core.Manager.Config :=
  ⟨false, ["var", "lib", "systemd", "coredump"], "/xyz/openbmc_project/dump/bmc"⟩

private def reachable : Core.Manager.Answers :=
  ⟨some ((∅ : MapperResponse).insert "xyz.openbmc_project.Dump.Manager" [DUMP_CREATE_IFACE]), true⟩

private def crash : List InotifyEvent := [⟨IN_CREATE, "core.bmcweb.0"⟩]

private def readAtOnce : Batching crash := ⟨[crash], rfl, by decide +kernel⟩

private def internalFailure : Elog.Watch.Event BmcDaemon Request :=
  .signal (entryPath 5) (.interfacesAdded (some failureLog) (plainRequest 7))

end Crashes

end DumpCollector.Bmc.Monitors
