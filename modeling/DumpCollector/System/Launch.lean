import DumpCollector.Dreport.Invocation
import DumpCollector.Lives
import DumpCollector.System.Collectors

namespace DumpCollector.System.Launch

open Std Lib.Directory Lib.Effects Lib.Maps Lib.Runs Lib.Words Entries FileNames Inotify Requests State Dispatch
open Lifecycle Lives Frames System.Manager System.Collectors Dreport.Args Dreport.Options Dreport.Invocation

/-- The programs that a dump can be collected by, as they are built in. -/
inductive Program
  | dreport
  | SELFTEST_BIN_PATH
  | FPGA_DUMP_BIN_PATH
  | MCU_DUMP_BIN_PATH
  | NET_DUMP_BIN_PATH
  | EROT_DUMP_BIN_PATH
  | RETIMER_LTSSM_DUMP_BIN_PATH
  | RETIMER_REGISTER_DUMP_BIN_PATH
  | FWATTRS_DUMP_BIN_PATH
  | HWCHECKOUT_DUMP_BIN_PATH
  deriving DecidableEq

structure Exec where
  program : Program
  args : List Word

structure Installed where
  dumpDir : Word
  NET_DUMP_TEMP_PATH : Word

section Child

variable (dumpPath : Word) (id : Nat)

def dumpArgs : List Word := ["-p".toList, cStr dumpPath, "-i".toList, decimal id]

/-- An option that is there unless its value is empty. -/
def optionalArg (option : String) (value : Word) : List Word := if value = [] then [] else [option.toList, cStr value]

def selfTest : Exec := ⟨.SELFTEST_BIN_PATH, dumpArgs dumpPath id ++ ["-v".toList]⟩

def fpgaRegDump : Exec := ⟨.FPGA_DUMP_BIN_PATH, dumpArgs dumpPath id⟩

def mcuRegDump : Exec := ⟨.MCU_DUMP_BIN_PATH, dumpArgs dumpPath id⟩

def netDump (tempPath targetDevice : Word) : Exec :=
  ⟨.NET_DUMP_BIN_PATH, dumpArgs dumpPath id ++ ["-t".toList, cStr tempPath, "-d".toList, cStr targetDevice]⟩

def erotDump : Exec := ⟨.EROT_DUMP_BIN_PATH, dumpArgs dumpPath id⟩

def retimerLtssmDump (vendorId : Word) : Exec :=
  ⟨.RETIMER_LTSSM_DUMP_BIN_PATH, dumpArgs dumpPath id ++ optionalArg "-v" vendorId⟩

def retimerRegisterDump (retimer_address vendorId : Word) : Exec :=
  ⟨.RETIMER_REGISTER_DUMP_BIN_PATH,
    dumpArgs dumpPath id ++ optionalArg "-a" retimer_address ++ optionalArg "-v" vendorId⟩

def fwAttrsDump : Exec := ⟨.FWATTRS_DUMP_BIN_PATH, dumpArgs dumpPath id ++ ["-v".toList]⟩

def hwCheckoutDump : Exec := ⟨.HWCHECKOUT_DUMP_BIN_PATH, dumpArgs dumpPath id ++ ["-v".toList]⟩

/-- What the retimer has announced as its vendor, if anything, and what is found in place of the
string of the size. -/
structure Surroundings where
  vendorId : Word
  dangling : Word

variable (inst : Installed) (env : Surroundings)

def targetDevice (diagnosticType deviceID : String) : Word :=
  diagnosticType.toList ++ '_' :: (if deviceID = "" then "0" else deviceID).toList

def additional (params : DumpCreateParams) : DumpCreateParams := (params.erase "DiagnosticType").erase "DeviceID"

/-- The chain of comparisons in the child of captureDump. -/
def collector (params : DumpCreateParams) (addArgs : List Word) (diagnosticType deviceID : String) :
    Except Exn Exec :=
  if diagnosticType = "" then .ok ⟨.dreport, systemArgs dumpPath id env.dangling addArgs⟩
  else if diagnosticType = "SelfTest" then .ok (selfTest dumpPath id)
  else if diagnosticType = "FPGA" then .ok (fpgaRegDump dumpPath id)
  else if diagnosticType = "MCU" then .ok (mcuRegDump dumpPath id)
  else if diagnosticType = "EROT" ∨ diagnosticType = "ROT" then .ok (erotDump dumpPath id)
  else if diagnosticType = "Net_NVSwitch" ∨ diagnosticType = "Net_NVLinkManagementNIC" ∨
      diagnosticType = "Net_GPU_SXM" then
    .ok (netDump dumpPath id inst.NET_DUMP_TEMP_PATH (targetDevice diagnosticType deviceID))
  else if diagnosticType = "RetLTSSM" then .ok (retimerLtssmDump dumpPath id env.vendorId)
  else if diagnosticType = "RetRegister" then do
    let retimer_address ← getString params "Address"
    .ok (retimerRegisterDump dumpPath id retimer_address.toList env.vendorId)
  else if diagnosticType = "FirmwareAttributes" then .ok (fwAttrsDump dumpPath id)
  else if diagnosticType = "HardwareCheckout" then .ok (hwCheckoutDump dumpPath id)
  else .error .internalFailure

def launch (params : DumpCreateParams) : Except Exn Exec := do
  let diagnosticType ← getString params "DiagnosticType"
  let deviceID ← getString params "DeviceID"
  let addArgs ← addArgs (additional params)
  collector (joined inst.dumpDir (decimal id)) id inst env (additional params) addArgs diagnosticType deviceID

end Child

section Parameters

variable {params : DumpCreateParams}

def OnlyStrings (params : DumpCreateParams) : Prop := ∀ (key : String) (n : Nat), params[key]? ≠ some (.num n)

theorem foldlM_addParam {xs : List (String × Variant)} (args : List Word) :
    (∃ args', xs.foldlM addParam args = .ok args') ↔ ∀ x ∈ xs, ∀ n, x.2 ≠ .num n := by
  induction xs generalizing args with
  | nil => exact iff_of_true ⟨args, rfl⟩ nofun
  | cons x xs ih =>
      obtain ⟨key, v⟩ := x
      rw [List.foldlM_cons, List.forall_mem_cons]
      cases v with
      | num n =>
          refine iff_of_false ?_ fun h => h.1 n rfl
          rintro ⟨args', h⟩
          cases h
      | str s =>
          refine (ih (setArg args key s)).trans ⟨fun h => ⟨nofun, h⟩, fun h => h.2⟩

theorem addArgs_iff : (∃ args, addArgs params = .ok args) ↔ OnlyStrings params := by
  rw [addArgs, foldlM_addParam]
  constructor
  · intro h key n hget
    exact h (key, .num n) (ExtTreeMap.mem_toList_iff_getElem?_eq_some.mpr hget) n rfl
  · rintro h ⟨key, v⟩ hmem n rfl
    exact h key n (ExtTreeMap.mem_toList_iff_getElem?_eq_some.mp hmem)

theorem getString_of_onlyStrings (h : OnlyStrings params) (key : String) : ∃ s, getString params key = .ok s := by
  rw [getString, ExtTreeMap.getD_eq_getD_getElem?]
  cases hget : params[key]? with
  | none => exact ⟨"", rfl⟩
  | some v =>
      cases v with
      | str s => exact ⟨s, rfl⟩
      | num n => exact absurd hget (h key n)

theorem additional_get (key : String) :
    (additional params)[key]? = if key = "DiagnosticType" ∨ key = "DeviceID" then none else params[key]? := by
  rw [additional, erase_get, erase_get]
  grind

end Parameters

section Programs

def programs : List (String × Program) :=
  [("", .dreport), ("SelfTest", .SELFTEST_BIN_PATH), ("FPGA", .FPGA_DUMP_BIN_PATH), ("EROT", .EROT_DUMP_BIN_PATH),
    ("ROT", .EROT_DUMP_BIN_PATH), ("RetLTSSM", .RETIMER_LTSSM_DUMP_BIN_PATH), ("MCU", .MCU_DUMP_BIN_PATH),
    ("RetRegister", .RETIMER_REGISTER_DUMP_BIN_PATH), ("FirmwareAttributes", .FWATTRS_DUMP_BIN_PATH),
    ("HardwareCheckout", .HWCHECKOUT_DUMP_BIN_PATH), ("Net_NVLinkManagementNIC", .NET_DUMP_BIN_PATH),
    ("Net_NVSwitch", .NET_DUMP_BIN_PATH), ("Net_GPU_SXM", .NET_DUMP_BIN_PATH)]

variable (dumpPath : Word) (id : Nat) (inst : Installed) (env : Surroundings) {params : DumpCreateParams}
  (addArgs : List Word) {type : String} (deviceID : String)

/-- A program is told the directory and the id of its dump. -/
def Told (exec : Exec) : Prop := dumpArgs dumpPath id <+: exec.args

/-- The chain in the child has a branch for every type that the check in front of the fork lets pass. -/
theorem collector_recognized (htype : type ∈ recognized) (hparams : OnlyStrings params) :
    ∃ exec, collector dumpPath id inst env params addArgs type deviceID = .ok exec ∧ (type, exec.program) ∈ programs ∧
      Told dumpPath id exec := by
  simp only [recognized, List.mem_cons, List.not_mem_nil, or_false] at htype
  rcases htype with rfl | rfl | rfl | rfl | rfl | rfl | rfl | rfl | rfl | rfl | rfl | rfl
  case inr.inr.inr.inr.inr.inr.inl =>
    obtain ⟨address, haddress⟩ := getString_of_onlyStrings hparams "Address"
    refine ⟨retimerRegisterDump dumpPath id address.toList env.vendorId, ?_, by simp [programs, retimerRegisterDump],
      ?_⟩
    · simp [collector, haddress, except_bind_eq_ok]
    · rw [Told, retimerRegisterDump, List.append_assoc]
      exact List.prefix_append _ _
  all_goals
    refine ⟨_, by simp [collector]; rfl, ?_, ?_⟩
    · simp [programs, selfTest, fpgaRegDump, mcuRegDump, netDump, erotDump, retimerLtssmDump, fwAttrsDump,
        hwCheckoutDump]
    · first
      | exact List.prefix_rfl
      | exact List.prefix_append _ _

theorem collector_empty : collector dumpPath id inst env params addArgs "" deviceID =
    .ok ⟨.dreport, systemArgs dumpPath id env.dangling addArgs⟩ := if_pos rfl

end Programs

section Requests

variable {cfg : Config} {inst : Installed} {env : Surroundings} {r : Request} {s t : SystemDaemon} {n : Nat}

theorem checkCapture_type {type : String} {disk : FileTree Content} (h : checkCapture cfg r disk = .ok type) :
    getString r.params "DiagnosticType" = .ok type ∧ (∃ deviceID, getString r.params "DeviceID" = .ok deviceID) ∧
      (type = "" ∨ type ∈ recognized) := by
  refine ⟨checkCapture_ok h, ?_⟩
  rw [checkCapture] at h
  obtain ⟨_, -, hk₁⟩ := except_bind_eq_ok.mp h
  obtain ⟨_, -, hk₂⟩ := except_bind_eq_ok.mp hk₁
  obtain ⟨diagnosticType, -, hk₃⟩ := except_bind_eq_ok.mp hk₂
  obtain ⟨deviceID, hdevice, hk₄⟩ := except_bind_eq_ok.mp hk₃
  refine ⟨⟨deviceID, hdevice⟩, ?_⟩
  split at hk₄
  · cases hk₄
  · rename_i hrecognized
    split at hk₄
    · cases hk₄
    · cases hk₄
      by_contra hno
      simp only [not_or] at hno
      exact hrecognized hno

theorem reaches_type {type : String} (h : reaches cfg r s = some type) :
    getString r.params "DiagnosticType" = .ok type ∧ (∃ deviceID, getString r.params "DeviceID" = .ok deviceID) ∧
      (type = "" ∨ type ∈ recognized) := by
  rw [reaches] at h
  split at h
  · rename_i u type' hlimit hrunning
    cases hcapture : checkCapture cfg r u.disk with
    | error e =>
        rw [hcapture] at h
        cases h
    | ok type'' =>
        rw [hcapture] at h
        cases h
        obtain ⟨htype, hdevice, hrecognized⟩ := checkCapture_type hcapture
        cases htype.symm.trans (checkRunning_ok hrunning).1
        exact ⟨htype, hdevice, hrecognized⟩
  · cases h

theorem construct_ok {e : SystemEntry} (h : construct cfg r n = .ok e) :
    getString r.params "DiagnosticType" = .ok e.dumpType ∧ e.base.status = .InProgress ∧ e.base.file = none := by
  rw [construct] at h
  obtain ⟨originator, -, hk₁⟩ := except_bind_eq_ok.mp h
  obtain ⟨diagnosticType, htype, hk₂⟩ := except_bind_eq_ok.mp hk₁
  cases hconstruction : r.construction with
  | done =>
      rw [hconstruction] at hk₂
      cases hk₂
      exact ⟨htype, rfl, rfl⟩
  | invalidArgument | failed =>
      rw [hconstruction] at hk₂
      cases hk₂

theorem collect_ok {type : String} {u : SystemDaemon} (h : collect cfg r type u = .ok n t) (hunused : n ∉ u.entries) :
    n < 2 ^ 32 ∧ ∃ e, construct cfg r n = .ok e ∧ t.entries[n]? = some (some e) := by
  obtain ⟨own, -, hcommand⟩ := whenever_setDebugMode (type = "RetLTSSM") true r.retimerWritten
    (fun _ => modifyOwn (insertType type) >>= fun _ => forkCollector r.fork type (eraseType type) >>= fun id =>
      fromExcept (construct cfg r id) >>= fun e => insertEntry id e >>= fun _ => pure id) u
  have hrun : (forkCollector r.fork type (eraseType type) >>= fun id => fromExcept (construct cfg r id) >>= fun e =>
      insertEntry id e >>= fun _ => pure id) { u with own := insertType type own } = .ok n t := hcommand.symm.trans h
  obtain ⟨m, v, hfork, hk₁⟩ := bind_eq_ok.mp hrun
  obtain ⟨e, w, hmade, hk₂⟩ := bind_eq_ok.mp hk₁
  obtain ⟨hconstruct, rfl⟩ := fromExcept_eq_ok.mp hmade
  cases hk₂
  rcases forkCollector_cases r.fork type (eraseType type) { u with own := insertType type own } with
    ⟨-, hf⟩ | ⟨_, -, -, hf⟩ | ⟨pid, -, -, hf⟩
  · cases hf.symm.trans hfork
  · cases hf.symm.trans hfork
  · cases hf.symm.trans hfork
    refine ⟨Nat.mod_lt _ (by decide), e, hconstruct, ?_⟩
    exact insertIfNew_new hunused (some e)

theorem createDump_ok (h : System.Manager.createDump cfg r s = .ok n t) (hunused : n ∉ s.entries) :
    ∃ deviceID e, getString r.params "DiagnosticType" = .ok e.dumpType ∧ getString r.params "DeviceID" = .ok deviceID ∧
      (e.dumpType = "" ∨ e.dumpType ∈ recognized) ∧ n < 2 ^ 32 ∧ t.entries[n]? = some (some e) ∧
      e.base.status = .InProgress ∧ e.base.file = none := by
  rcases createDump_split cfg r s with ⟨-, exn, hrun⟩ | ⟨type, hreaches, -, hrun⟩
  · cases hrun.symm.trans h
  · have htrim := keeps_limitDumpEntries (E := SystemEntry) (X := Own) (C := String) cfg.SYSTEM_DUMP_MAX_LIMIT s
    obtain ⟨htype, ⟨deviceID, hdevice⟩, hrecognized⟩ := reaches_type hreaches
    obtain ⟨hlt, e, hconstruct, he⟩ := collect_ok (hrun.symm.trans h) (htrim.not_mem hunused)
    obtain ⟨hdumpType, hst, hfile⟩ := construct_ok hconstruct
    cases htype.symm.trans hdumpType
    exact ⟨deviceID, e, htype, hdevice, hrecognized, hlt, he, hst, hfile⟩

theorem values_additional (params : DumpCreateParams) : values (additional params) = values params := by
  have hvalue : ∀ key ∈ argKeys, Dreport.Args.value (additional params) key = Dreport.Args.value params key := by
    intro key hkey
    have hne : ¬ (key = "DiagnosticType" ∨ key = "DeviceID") := by
      simp only [argKeys, List.mem_cons, List.not_mem_nil, or_false] at hkey
      rcases hkey with rfl | rfl | rfl <;> decide
    rw [Dreport.Args.value, Dreport.Args.value, additional_get, if_neg hne]
  exact List.map_congr_left hvalue

theorem onlyStrings_additional (params : DumpCreateParams) : OnlyStrings (additional params) ↔
    ∀ (key : String) (m : Nat), key ≠ "DiagnosticType" → key ≠ "DeviceID" → params[key]? ≠ some (.num m) := by
  simp only [OnlyStrings, additional_get]
  grind

variable (inst r n) in
/-- What dreport works on is a system dump in the directory of the dump, and its plugins get the
values of the request for their arguments, as long as these are plain. -/
structure Reports (sh : Shell) (o : Settings) (report : Report) : Prop where
  dir : o.dump_dir = cStr (joined inst.dumpDir (decimal n))
  type : report.dump_type = "system".toList
  arguments : Plain sh.names.locale (values r.params) → Matches (positional sh.names o.plugin_args) (values r.params)

variable (inst env) in
theorem launch_iff {type deviceID : String} (htype : getString r.params "DiagnosticType" = .ok type)
    (hdevice : getString r.params "DeviceID" = .ok deviceID) (exec : Exec) :
    launch n inst env r.params = .ok exec ↔ ∃ args, addArgs (additional r.params) = .ok args ∧
      collector (joined inst.dumpDir (decimal n)) n inst env (additional r.params) args type deviceID = .ok exec := by
  have hlaunch : launch n inst env r.params = addArgs (additional r.params) >>= fun args => collector
      (joined inst.dumpDir (decimal n)) n inst env (additional r.params) args type deviceID := by
    rw [launch, htype, hdevice]
    rfl
  rw [hlaunch]
  exact except_bind_eq_ok

variable (inst env) in
theorem launches {type deviceID : String} (htype : getString r.params "DiagnosticType" = .ok type)
    (hdevice : getString r.params "DeviceID" = .ok deviceID) (hrecognized : type = "" ∨ type ∈ recognized) :
    (∃ exec, launch n inst env r.params = .ok exec) ↔ OnlyStrings (additional r.params) := by
  simp only [launch_iff inst env htype hdevice]
  constructor
  · rintro ⟨exec, args, hargs, -⟩
    exact addArgs_iff.mp ⟨args, hargs⟩
  · intro honly
    obtain ⟨args, hargs⟩ := addArgs_iff.mpr honly
    rcases hrecognized with rfl | hmem
    · exact ⟨_, args, hargs, collector_empty _ n inst env args deviceID⟩
    · obtain ⟨exec, hexec, -⟩ := collector_recognized (joined inst.dumpDir (decimal n)) n inst env args deviceID hmem
        honly
      exact ⟨exec, args, hargs, hexec⟩

def defaultInstalled : Installed :=
  ⟨"/var/lib/phosphor-debug-collector/systemdumps".toList, "/tmp/NetDump".toList⟩

def unannounced : Surroundings := ⟨[], "unlimited".toList⟩

end Requests

end DumpCollector.System.Launch
