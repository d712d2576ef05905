import DumpCollector.Dreport.Invocation
import DumpCollector.FaultLog.Steps

namespace DumpCollector.FaultLog.Launch

open Std Lib.Effects Lib.Maps Lib.Words Lib.Getopt Entries FileNames Requests State Frames FaultLog.Manager
open Dreport.Invocation (cStr joined decimal)

section Collector

def cperDump (dumpId : Nat) (dumpPath cperPath : Word) : List Word :=
  ["-p".toList, cStr dumpPath, "-i".toList, decimal dumpId, "-s".toList, cStr cperPath]

/-- The path is read only where the request names both. -/
def cperPath (params : DumpCreateParams) : Word :=
  match params["CPER_TYPE"]?, params["CPER_PATH"]? with
  | some _, some (.str path) => path.toList
  | _, _ => []

variable (dumpDir : Word) (cfg : Config)

def launch (r : Request) : FaultLogOp (Option (List Word)) := do
  limitDumpEntries cfg.FAULTLOG_DUMP_MAX_LIMIT
  limitTotalDumpSize cfg r.sizeFailed
  let data ← faultData cfg r.params
  let s ← get
  if data.1 = cfg.CPER then
    pure (some (cperDump (nextEntryId s) (joined dumpDir (decimal (nextEntryId s))) (cperPath r.params)))
  else pure none

end Collector

section Requests

variable {cfg : Config} {dumpDir : Word} {r : Request} {s t u : FaultLogDaemon} {n : Nat} {params : DumpCreateParams}
  {data : FaultDataType × String × String}

theorem faultData_ok (h : faultData cfg params s = .ok data u) : u.entries = s.entries ∧
    ((∃ kind path, params["CPER_TYPE"]? = some (.str kind) ∧ params["CPER_PATH"]? = some (.str path) ∧
        data = (cfg.CPER, kind, toString u.own.lastCperId)) ∨
      ((params["CPER_TYPE"]? = none ∨ params["CPER_PATH"]? = none) ∧ data = (0, "", ""))) := by
  rw [faultData] at h
  cases htype : params["CPER_TYPE"]? with
  | none =>
      rw [htype] at h
      cases h
      exact ⟨rfl, .inr ⟨.inl rfl, rfl⟩⟩
  | some type =>
      cases hpath : params["CPER_PATH"]? with
      | none =>
          rw [htype, hpath] at h
          cases h
          exact ⟨rfl, .inr ⟨.inr rfl, rfl⟩⟩
      | some path =>
          rw [htype, hpath] at h
          obtain ⟨kind, _, hread, hk₁⟩ := bind_eq_ok.mp h
          obtain ⟨hkind, rfl⟩ := fromExcept_eq_ok.mp hread
          rw [modify_bind, get_bind] at hk₁
          obtain ⟨text, _, hfound, hk₂⟩ := bind_eq_ok.mp hk₁
          obtain ⟨htext, rfl⟩ := fromExcept_eq_ok.mp hfound
          cases hk₂
          rw [getString_eq_ok, htype] at hkind
          rw [getString_eq_ok, hpath] at htext
          exact ⟨rfl, .inl ⟨kind, text, congrArg some hkind, congrArg some htext, rfl⟩⟩

theorem createDump_ok (h : FaultLog.Manager.createDump cfg r s = .ok n t) (hunused : n ∉ s.entries) :
    ∃ u₁ u₂ data u, limitDumpEntries cfg.FAULTLOG_DUMP_MAX_LIMIT s = .ok () u₁ ∧
      limitTotalDumpSize cfg r.sizeFailed u₁ = .ok () u₂ ∧ faultData cfg r.params u₂ = .ok data u ∧
      n = nextEntryId u ∧ t.own = u.own ∧ ∃ e, construct cfg r ⟨n, data.1, data.2.1, data.2.2⟩ = .ok e ∧
        t.entries[n]? = some (some e) := by
  rw [FaultLog.Manager.createDump] at h
  obtain ⟨_, u₁, hlimit, hk₁⟩ := bind_eq_ok.mp h
  obtain ⟨_, u₂, htotal, hk₂⟩ := bind_eq_ok.mp hk₁
  obtain ⟨info, v, hcapture, hk₃⟩ := bind_eq_ok.mp hk₂
  obtain ⟨e, v', hmade, hk₄⟩ := bind_eq_ok.mp hk₃
  obtain ⟨hconstruct, hsame⟩ := fromExcept_eq_ok.mp hmade
  rw [hsame] at hk₄
  rw [captureDump] at hcapture
  obtain ⟨data, u, hdata, hk₅⟩ := bind_eq_ok.mp hcapture
  obtain ⟨m, w, hfork, hk₆⟩ := bind_eq_ok.mp hk₅
  cases hk₆
  cases hk₄
  have htrimmed : Trimmed s u := by
    have hkept₁ := keeps_limitDumpEntries (E := FaultLogEntry) (X := Own) (C := Unit) cfg.FAULTLOG_DUMP_MAX_LIMIT s
    have hkept₂ := FaultLog.Steps.keeps_limitTotalDumpSize cfg r.sizeFailed u₁
    have hkept₃ := FaultLog.Steps.keeps_faultData cfg r.params u₂
    rw [hlimit] at hkept₁
    rw [htotal] at hkept₂
    rw [hdata] at hkept₃
    exact transTrimmed.trans _ _ _ (transTrimmed.trans _ _ _ hkept₁ hkept₂) hkept₃
  rcases forkCollector_cases r.fork () id u with ⟨-, hf⟩ | ⟨_, -, -, hf⟩ | ⟨pid, -, -, hf⟩
  · cases hf.symm.trans hfork
  · cases hf.symm.trans hfork
  · cases hf.symm.trans hfork
    refine ⟨u₁, u₂, data, u, hlimit, htotal, hdata, rfl, rfl, e, hconstruct, ?_⟩
    exact insertIfNew_new (htrimmed.not_mem hunused) (some e)

/-- From a request to its collector: it is started for the requests that name a fault, and then it is
told the path and the id of the dump and the path of the fault, and the entry in progress tells the rest. Any other
request has its entry too, and a child that starts nothing. -/
theorem fault_to_collector (spec : Spec) (dumpDir : Word)
    (hspec : ∀ c ∈ ['p', 'i', 's'], spec.takesArgument c = some true) (hCPER : cfg.CPER ≠ 0)
    (h : FaultLog.Manager.createDump cfg r s = .ok n t) (hunused : n ∉ s.entries) :
    ∃ exec u e, launch dumpDir cfg r s = .ok exec u ∧ t.entries[n]? = some (some e) ∧ e.base.id = n ∧
      e.base.status = .InProgress ∧
      (exec = none ↔ r.params["CPER_TYPE"]? = none ∨ r.params["CPER_PATH"]? = none) ∧
      ∀ args ∈ exec, ∃ kind path, r.params["CPER_TYPE"]? = some (.str kind) ∧
        r.params["CPER_PATH"]? = some (.str path) ∧ e.type = cfg.CPER ∧ e.additionalTypeName = kind ∧
        e.primaryLogId = toString t.own.lastCperId ∧
        scan spec none args = ([.short 'p' (some (cStr (joined dumpDir (decimal n)))),
          .short 'i' (some (decimal n)), .short 's' (some (cStr path.toList))], []) := by
  obtain ⟨u₁, u₂, data, u, hlimit, htotal, hdata, rfl, hown, e, hconstruct, he⟩ := createDump_ok h hunused
  obtain ⟨originatorId, originatorType, rfl⟩ := FaultLog.Steps.construct_eq cfg hconstruct
  have hlaunch : launch dumpDir cfg r s = (if data.1 = cfg.CPER then .ok (some (cperDump (nextEntryId u)
      (joined dumpDir (decimal (nextEntryId u))) (cperPath r.params))) u else .ok none u) := by
    rw [launch, bind_of_ok hlimit, bind_of_ok htotal, bind_of_ok hdata, get_bind]
    split <;> rfl
  obtain ⟨-, ⟨kind, path, htype, hpath, rfl⟩ | ⟨hmissing, rfl⟩⟩ := faultData_ok hdata
  · rw [if_pos rfl] at hlaunch
    refine ⟨_, u, _, hlaunch, he, rfl, rfl, by simp [htype, hpath], fun args hargs => ?_⟩
    cases hargs
    refine ⟨kind, path, htype, hpath, rfl, rfl, by rw [hown]; rfl, ?_⟩
    have hcper : cperPath r.params = path.toList := by rw [cperPath, htype, hpath]
    rw [hcper]
    have hvalid : ∀ item ∈ [Item.short 'p' (some (cStr (joined dumpDir (decimal (nextEntryId u))))),
        .short 'i' (some (decimal (nextEntryId u))), .short 's' (some (cStr path.toList))], item.Valid spec := by
      intro item hitem
      simp only [List.mem_cons, List.not_mem_nil, or_false] at hitem
      rcases hitem with rfl | rfl | rfl <;> exact hspec _ (by decide)
    exact scan_words_only hvalid
  · rw [if_neg (Ne.symm hCPER)] at hlaunch
    refine ⟨_, u, _, hlaunch, he, rfl, rfl, iff_of_true rfl hmissing, fun args hargs => ?_⟩
    cases hargs

end Requests

section Faults

private def cperRequest : Request where
  params := ((∅ : DumpCreateParams).insert "CPER_TYPE" (.str "Processor")).insert "CPER_PATH" (.str "/tmp/cper.bin")
  sizeFailed _ := false
  fork := ⟨some 7, true⟩
  timeStamp := 1700000000
  construction := .done

theorem processor_fault_collected : ∃ args u t e,
    FaultLog.Manager.createDump defaultConfig cperRequest (bare ⟨0⟩ .root) = .ok 1 t ∧
    t.entries[1]? = some (some (e : FaultLogEntry)) ∧ e.additionalTypeName = "Processor" ∧
    launch "/var/lib/logging/dumps/faultlog".toList defaultConfig cperRequest (bare ⟨0⟩ .root) = .ok (some args) u ∧
    scan (lettersOnly ['p', 'i', 's'] rfl) none args = ([.short 'p' (some "/var/lib/logging/dumps/faultlog/1".toList),
      .short 'i' (some ['1']), .short 's' (some "/tmp/cper.bin".toList)], []) := by
  have hcreated : FaultLog.Manager.createDump defaultConfig cperRequest (bare ⟨0⟩ .root) =
      .ok 1 (final (FaultLog.Manager.createDump defaultConfig cperRequest (bare ⟨0⟩ .root))) :=
    eq_ok_of_run' (by decide +kernel)
  have hunused : 1 ∉ (bare ⟨0⟩ .root : FaultLogDaemon).entries := by decide
  obtain ⟨exec, u, e, hlaunch, he, -, -, hnone, hsome⟩ := fault_to_collector
    (lettersOnly ['p', 'i', 's'] rfl) "/var/lib/logging/dumps/faultlog".toList (fun c hc => lettersOnly_takes rfl hc)
    (by decide) hcreated hunused
  have htype : cperRequest.params["CPER_TYPE"]? = some (.str "Processor") := by decide +kernel
  have hpath : cperRequest.params["CPER_PATH"]? = some (.str "/tmp/cper.bin") := by decide +kernel
  cases exec with
  | none =>
      rcases hnone.mp rfl with habsent | habsent
      · cases htype.symm.trans habsent
      · cases hpath.symm.trans habsent
  | some args =>
      obtain ⟨kind, path, hkind, hfile, -, hname, -, hscan⟩ := hsome args rfl
      cases htype.symm.trans hkind
      cases hpath.symm.trans hfile
      exact ⟨args, u, _, e, hcreated, he, hname, hlaunch, hscan⟩

end Faults

end DumpCollector.FaultLog.Launch
