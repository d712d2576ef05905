import DumpCollector.Bmc.Capture
import DumpCollector.Dreport.Invocation
import DumpCollector.Lives
import DumpCollector.Templates

namespace DumpCollector.Bmc.Launch

open Std Lib.Directory Lib.Effects Lib.Maps Lib.Runs Lib.Words Entries FileNames Inotify Requests State Dispatch
open DumpCollector.Steps Lifecycle Lives Frames Bmc.Manager Bmc.Capture Dreport.Options Dreport.Invocation

structure Installed where
  dumpDir : Word
  CompressionType : Word

variable (cfg : Config) (inst : Installed)

def launch (r : Request) : BmcOp (List Word) := do
  let o ← checkRequest cfg r
  let size ← getAllowedSize cfg
  let strType ← fromExcept (value (dumpTypeToString cfg.tables o.2.2))
  let path ← fromExcept (extractParameter (convertCreateParametersToString .FilePath) r.params)
  let s ← get
  let dumpPath := joined inst.dumpDir (decimal (nextEntryId s))
  pure (bmcArgs dumpPath (nextEntryId s) size path.toList strType.toList inst.CompressionType)

section Requests

variable {cfg inst} {r : Request} {s t u : BmcDaemon} {n : Nat}

theorem requestedType_path {type : DumpTypes} (h : requestedType cfg r.params = .ok type) :
    ∃ path, extractParameter (convertCreateParametersToString .FilePath) r.params = .ok path := by
  rw [Templates.requestedType_eq] at h
  obtain ⟨_, -, hk₁⟩ := except_bind_eq_ok.mp h
  obtain ⟨_, -, hk₂⟩ := except_bind_eq_ok.mp hk₁
  obtain ⟨_, -, hk₃⟩ := except_bind_eq_ok.mp hk₂
  obtain ⟨path, hpath, -⟩ := except_bind_eq_ok.mp hk₃
  exact ⟨path, hpath⟩

theorem value_eq_ok {α : Type} {x : Option α} {a : α} : Manager.value x = .ok a ↔ x = some a := by
  cases x with
  | none => simp [Manager.value]
  | some b => simp [Manager.value]

theorem checkRequest_type {o : String × OriginatorTypes × DumpTypes} (h : checkRequest cfg r s = .ok o t) :
    requestedType cfg r.params = .ok o.2.2 := by
  rw [checkRequest] at h
  obtain ⟨originator, _, h₁, hk₁⟩ := bind_eq_ok.mp h
  obtain ⟨-, rfl⟩ := fromExcept_eq_ok.mp h₁
  obtain ⟨type, _, h₂, hk₂⟩ := bind_eq_ok.mp hk₁
  obtain ⟨htype, rfl⟩ := fromExcept_eq_ok.mp h₂
  rw [get_bind] at hk₂
  obtain ⟨_, _, -, hk₃⟩ := bind_eq_ok.mp hk₂
  obtain ⟨_, _, -, hk₄⟩ := bind_eq_ok.mp hk₃
  cases hk₄
  exact htype

theorem getAllowedSize_le {size : Nat} (h : getAllowedSize cfg s = .ok size t) : size ≤ cfg.BMC_DUMP_MAX_SIZE := by
  rw [getAllowedSize] at h
  obtain ⟨used, _, -, hk₁⟩ := bind_eq_ok.mp h
  obtain ⟨left, _, -, hk₂⟩ := bind_eq_ok.mp hk₁
  cases hk₂
  exact Nat.min_le_right _ _

variable (inst) in
theorem launch_of_prepare {o : String × OriginatorTypes × DumpTypes} (h : prepare cfg r s = .ok o u) :
    ∃ size strType path, size ≤ cfg.BMC_DUMP_MAX_SIZE ∧ requestedType cfg r.params = .ok o.2.2 ∧
      dumpTypeToString cfg.tables o.2.2 = some strType ∧
      extractParameter (convertCreateParametersToString .FilePath) r.params = .ok path ∧
      launch cfg inst r s = .ok (bmcArgs (joined inst.dumpDir (decimal (nextEntryId u))) (nextEntryId u) size
        path.toList strType.toList inst.CompressionType) u := by
  rw [prepare] at h
  obtain ⟨o', s₁, hcheck, hk₁⟩ := bind_eq_ok.mp h
  obtain ⟨size, s₂, hsize, hk₂⟩ := bind_eq_ok.mp hk₁
  obtain ⟨strType, s₃, hstr, hk₃⟩ := bind_eq_ok.mp hk₂
  obtain ⟨hstrType, rfl⟩ := fromExcept_eq_ok.mp hstr
  cases hk₃
  have htype := checkRequest_type hcheck
  obtain ⟨path, hpath⟩ := requestedType_path htype
  refine ⟨size, strType, path, getAllowedSize_le hsize, htype, value_eq_ok.mp hstrType, hpath, ?_⟩
  rw [launch, bind_of_ok hcheck, bind_of_ok hsize, bind_of_ok hstr, bind_of_ok (fromExcept_eq_ok.mpr ⟨hpath, rfl⟩),
    get_bind]
  rfl

theorem createDump_ok (h : createDump cfg r s = .ok n t) (hunused : n ∉ s.entries) :
    ∃ o u, prepare cfg r s = .ok o u ∧ nextEntryId u = n ∧
      t.entries[n]? = some (some (create n r.timeStamp 0 none .InProgress o.1 o.2.1 r.entryProcessGroupID)) := by
  rw [createDump_eq_finish] at h
  obtain ⟨o, u, hprepare, hk⟩ := bind_eq_ok.mp h
  obtain ⟨m, v, hfork, hfinish⟩ := bind_eq_ok.mp hk
  rcases forkCollector_cases r.fork o.2.2 (fun own => own) u with
    ⟨-, hf⟩ | ⟨_, -, -, hf⟩ | ⟨pid, -, -, hf⟩
  · cases hf.symm.trans hfork
  · cases hf.symm.trans hfork
  · cases hf.symm.trans hfork
    by_cases hconstruction : r.construction = .done
    · cases (finish_done hconstruction o (nextEntryId u) (registered pid o.2.2 u)).symm.trans hfinish
      have htrimmed : Trimmed s u := by
        have hkept := trimmed_prepare cfg r s
        rwa [hprepare] at hkept
      refine ⟨o, u, hprepare, rfl, ?_⟩
      exact insertIfNew_new (htrimmed.not_mem hunused) _
    · obtain ⟨e, he⟩ := finish_failed hconstruction o (nextEntryId u) (registered pid o.2.2 u)
      cases he.symm.trans hfinish

end Requests

section Archives

variable {cfg} {inst} {r : Request} {s t u v : BmcDaemon} {n : Nat} {es : List (Event Request FileEvent)}

theorem reportedType_exampleTables {type : DumpTypes} {strType : String}
    (h : dumpTypeToString exampleTables type = some strType) :
    reportedType (cStr strType.toList) = strType.toList := by
  rw [dumpTypeToString] at h
  obtain ⟨pair, hpair, rfl⟩ := Option.map_eq_some_iff.mp h
  have hmem := List.mem_of_find?_eq_some hpair
  simp only [exampleTables, List.mem_cons, List.not_mem_nil, or_false] at hmem
  rcases hmem with rfl | rfl | rfl | rfl <;> decide

variable (cfg inst r n) in
/-- What dreport works on is what was asked for, in the directory of the dump and within the
size allowed. -/
structure Reports (o : Settings) (report : Report) : Prop where
  type : ∃ type strType, requestedType cfg r.params = .ok type ∧ dumpTypeToString cfg.tables type = some strType ∧
    report.dump_type = reportedType (cStr strType.toList) ∧
    (cfg.tables = exampleTables → report.dump_type = strType.toList)
  path : ∃ path, extractParameter (convertCreateParametersToString .FilePath) r.params = .ok path ∧
    o.optional_path = cStr path.toList
  dir : o.dump_dir = cStr (joined inst.dumpDir (decimal n))
  size : ∃ size, size ≤ cfg.BMC_DUMP_MAX_SIZE ∧ report.dump_size = some (size * 1024 : Int)

variable (inst) in
/-- From a request to its dump: dreport, started with the arguments of the child, works on what
was asked for and leaves an archive whose name completes the entry of the request. -/
theorem request_to_entry (sh : Shell) (abbreviated : Word → Option Word) (EPOCHTIME : Nat)
    (hepoch : EPOCHTIME < 2 ^ 64) (hsize : cfg.BMC_DUMP_MAX_SIZE * 1024 < 2 ^ 63)
    (hulong : 2 ^ 32 - 1 ≤ cfg.plat.ulongMax) (h : createDump cfg r s = .ok n t) (hunused : n ∉ s.entries) :
    ∃ args u o report e, launch cfg inst r s = .ok args u ∧ options sh.names abbreviated args = .ok o ∧
      initializeReport sh true EPOCHTIME o = some report ∧ Reports cfg inst r n o report ∧
      t.entries[n]? = some (some e) ∧ e.base.status = .InProgress ∧
      CompletedBy (bmcOps cfg) n [toString n, .ofList (archive o report)] t e := by
  obtain ⟨o', u, hprepare, hn, he⟩ := createDump_ok h hunused
  obtain ⟨size, strType, path, hmax, htype, hstrType, hpath, hlaunch⟩ := launch_of_prepare inst hprepare
  rw [hn] at hlaunch
  have hbytes : readSize sh (decimal size) = some (size * 1024 : Int) :=
    readSize_decimal sh ((Nat.mul_le_mul_right 1024 hmax).trans_lt hsize)
  refine ⟨_, u, _, _, _, hlaunch, options_bmcArgs sh.names abbreviated _ n size path.toList strType.toList
    inst.CompressionType, initializeReport_made sh EPOCHTIME _, ?_, he, rfl, ?_⟩
  · refine ⟨⟨o'.2.2, strType, htype, hstrType, rfl, fun hexample => ?_⟩, ⟨path, hpath, rfl⟩, rfl, size, hmax, hbytes⟩
    rw [hexample] at hstrType
    exact reportedType_exampleTables hstrType
  · have hlt : n < 2 ^ 32 := by
      rw [← hn]
      exact Nat.mod_lt _ (by decide)
    apply completedBy (Bmc.Steps.sound cfg) (keepsOrigin_bmc cfg) (holds_collecting he rfl rfl) he
    exact namedId_archive sh rfl rfl hepoch hlt (by omega)

def plainShell : Shell := ⟨.none, fun _ => false, fun _ => none⟩

def defaultInstalled : Installed := ⟨"/var/lib/phosphor-debug-collector/dumps".toList, "xz".toList⟩

theorem user_request_to_entry : ∃ t args u o report e,
    createDump defaultConfig (plainRequest 7) (bare ⟨false⟩ .root) = .ok 1 t ∧
    launch defaultConfig defaultInstalled (plainRequest 7) (bare ⟨false⟩ .root) = .ok args u ∧
    options .none (fun _ => none) args = .ok o ∧ Reports defaultConfig defaultInstalled (plainRequest 7) 1 o report ∧
    CompletedBy (bmcOps defaultConfig) 1 [toString 1, .ofList (archive o report)] t (e : BmcEntry) := by
  have hrun : createDump defaultConfig (plainRequest 7) (bare ⟨false⟩ .root) =
      .ok 1 (final (createDump defaultConfig (plainRequest 7) (bare ⟨false⟩ .root))) :=
    eq_ok_of_run' (by decide +kernel)
  have hunused : 1 ∉ (bare ⟨false⟩ .root : BmcDaemon).entries := by decide
  obtain ⟨args, u, o, report, e, hlaunch, hoptions, -, hreports, -, -, hcompleted⟩ :=
    request_to_entry defaultInstalled plainShell (fun _ => none) 1700000000 (by decide) (by decide)
      (by decide) hrun hunused
  exact ⟨_, args, u, o, report, e, hrun, hlaunch, hoptions, hreports, hcompleted⟩

end Archives

end DumpCollector.Bmc.Launch
