import DumpCollector.DumpNames
import DumpCollector.System.Manager
import DumpCollector.Nsm.Retrieval
import Mathlib.Data.List.Infix
import Mathlib.Data.List.TakeWhile

namespace DumpCollector.Nsm.Addressing

open Lib.Effects DumpNames FileNames System.Manager NetDump Retrieval

/-- A string of C++; each of its characters is a byte. -/
abbrev Text := List Char

section Program

variable (plat : Platform)

def isspace (c : Char) : Bool :=
  c = ' ' || c = '\t' || c = '\n' || c = '\x0b' || c = '\x0c' || c = '\r'

def strtol (s : Text) : Int :=
  let longMax : Int := plat.ulongMax / 2
  match s.dropWhile isspace with
  | '-' :: digits => max (-longMax - 1) (-(value (digits.takeWhile Char.isDigit)))
  | '+' :: digits => min longMax (value (digits.takeWhile Char.isDigit))
  | digits => min longMax (value (digits.takeWhile Char.isDigit))

/-- A number that no int holds is read as strtol reads it, and narrowed. -/
def atoi (s : Text) : Int := int32 (strtol plat s)

def uint16 (n : Int) : Nat := (n % 2 ^ 16).toNat

/-- The number is cut off at a fixed offset, wherever the name has been found; it is
narrowed twice, to the variable and to the parameter it is passed for. -/
def deviceIndex (switchStr targetDevice : Text) : UInt8 :=
  UInt8.ofNat (uint16 (atoi plat (targetDevice.drop switchStr.length)))

def netSwitch : Text := "Net_NVSwitch_".toList

def netGPU : Text := "Net_GPU_SXM_".toList

def main (dev : Device) (records : Nat) : List Text → ToolM OperationStatus
  | _ :: _ :: targetDevice :: _ =>
      if netSwitch <:+: targetDevice then getSwitchDump dev records (deviceIndex plat netSwitch targetDevice)
      else if targetDevice = "Net_NVLinkManagementNIC_0".toList then do
        let res_dump ← getLinkMgmtNICDump dev records
        let _ ← getLinkMgmtNICLog dev records
        pure res_dump
      else if netGPU <:+: targetDevice then getGPUDump dev records (deviceIndex plat netGPU targetDevice)
      else pure .Error
  | _ => pure .Error

/-- The target that captureDump has the tool called with. -/
def netDumpTarget (diagnosticType deviceID : Text) : Option Text :=
  if diagnosticType = "Net_NVSwitch".toList ∨ diagnosticType = "Net_NVLinkManagementNIC".toList ∨
      diagnosticType = "Net_GPU_SXM".toList then
    some (diagnosticType ++ '_' :: (if deviceID.isEmpty then ['0'] else deviceID))
  else none

end Program

def Numbered (name text : Text) (index : UInt8) : Prop :=
  ∃ ds, Digits ds ∧ text = name ++ ds ∧ value ds = index.toNat

def Names (text : Text) (target : Target) : Prop :=
  match target.dataType with
  | .NVSwitch => Numbered netSwitch text target.index
  | .GPU_SXM => Numbered netGPU text target.index
  | .NVLinkMgmtNIC_Dump | .NVLinkMgmtNIC_Log => True

/-- Whatever the devices answer, every command to a switch or a GPU goes to the one that the
text names. -/
def Addresses (plat : Platform) (text : Text) : Prop :=
  ∀ dev records tool path more,
    ∀ e ∈ (final (main plat dev records (tool :: path :: text :: more) start)).history, Names text e.target

def Absent (text : Text) : Prop := ¬ netSwitch <:+: text ∧ ¬ netGPU <:+: text

def WellNamed (text : Text) : Prop :=
  ∃ ds, Digits ds ∧ value ds < 2 ^ 8 ∧ (text = netSwitch ++ ds ∨ text = netGPU ++ ds)

section Commands

def Sends (P : Target → Prop) (s t : Session) : Prop := ∀ e ∈ t.history, e ∈ s.history ∨ P e.target

variable {P : Target → Prop}

instance reflSends : Std.Refl (Sends P) := ⟨fun _ _ he => .inl he⟩

instance transSends : IsTrans Session (Sends P) := by
  refine ⟨fun s t u h k e he => ?_⟩
  rcases k e he with he | he
  · exact h e he
  · exact .inr he

theorem sends_exchange {target : Target} (h : P target) (s : Session) {e : Exchange} (he : e.target = target) :
    Sends P s { s with history := s.history ++ [e] } := by
  intro e' he'
  rcases List.mem_append.mp he' with he' | he'
  · exact .inl he'
  · rw [List.mem_singleton.mp he', he]
    exact .inr h

theorem sends_kept (target : Target) (h : P target) : KeptByRecords (Sends P) target where
  exchange s _ he _ := sends_exchange h s he
  output _ _ _ he := .inl he

theorem sends_getSwitchDump {index : UInt8} (h : P ⟨.NVSwitch, index⟩) (dev : Device) (records : Nat) :
    Keeps (Sends P) (getSwitchDump dev records index) := by
  refine keeps_bind (keeps_retrieve (sends_kept _ h) records 0) fun res => keeps_ite (keeps_pure res) ?_
  exact keeps_erase (fun s e he _ _ _ => sends_exchange h s he) _ _ _ _

theorem target_of_sends {m : ToolM OperationStatus} (h : Keeps (Sends P) m) :
    ∀ e ∈ (final (m start)).history, P e.target := by
  intro e he
  rcases h start e he with he | he
  · cases he
  · exact he

end Commands

section Numbers

variable {plat : Platform}

theorem not_isspace_of_isDigit {c : Char} (h : c.isDigit = true) : isspace c = false := by
  have hne {d : Char} (hd : d.isDigit = false) : c ≠ d := by
    rintro rfl
    rw [h] at hd
    cases hd
  simp only [isspace, Bool.or_eq_false_iff, decide_eq_false_iff_not]
  refine ⟨⟨⟨⟨⟨?_, ?_⟩, ?_⟩, ?_⟩, ?_⟩, ?_⟩
  all_goals exact hne (by decide)

theorem strtol_of_digits (hlong : 2 ^ 32 - 1 ≤ plat.ulongMax) {ds : Text} (hds : Digits ds) (h : value ds < 2 ^ 8) :
    strtol plat ds = value ds := by
  obtain ⟨hne, hdigits⟩ := hds
  obtain ⟨d, ds, rfl⟩ := List.exists_cons_of_ne_nil hne
  have hd : d.isDigit = true := hdigits d List.mem_cons_self
  have hspaces : (d :: ds).dropWhile isspace = d :: ds :=
    List.dropWhile_cons_of_neg (by simp [not_isspace_of_isDigit hd])
  have hall : (d :: ds).takeWhile Char.isDigit = d :: ds := List.takeWhile_eq_self_iff.mpr hdigits
  rw [strtol, hspaces]
  split
  · rename_i heq
    cases heq
    cases hd
  · rename_i heq
    cases heq
    cases hd
  · rw [hall]
    omega

theorem deviceIndex_of_digits (hlong : 2 ^ 32 - 1 ≤ plat.ulongMax) {ds : Text} (hds : Digits ds) (h : value ds < 2 ^ 8)
    (name : Text) : (deviceIndex plat name (name ++ ds)).toNat = value ds := by
  rw [deviceIndex, List.drop_left, atoi, strtol_of_digits hlong hds h, int32, uint16]
  rw [Int.bmod_eq_of_le (by omega) (by omega), UInt8.toNat_ofNat']
  omega

/-- The two names share their first characters only. -/
theorem netSwitch_absent_of_digits {ds : Text} (hds : Digits ds) : ¬ netSwitch <:+: netGPU ++ ds := by
  intro h
  have hmem : 'w' ∈ netGPU ++ ds := h.subset (by decide)
  rcases List.mem_append.mp hmem with hmem | hmem
  · revert hmem
    decide
  · have hdigit := hds.2 'w' hmem
    revert hdigit
    decide

end Numbers

section Main

variable {plat : Platform} {text : Text}

theorem main_netSwitch (h : netSwitch <:+: text) (dev : Device) (records : Nat) (tool path : Text) (more : List Text) :
    main plat dev records (tool :: path :: text :: more) =
      getSwitchDump dev records (deviceIndex plat netSwitch text) := by
  rw [main, if_pos h]

theorem main_netGPU (h : ¬ netSwitch <:+: text) (hgpu : netGPU <:+: text) (dev : Device) (records : Nat)
    (tool path : Text) (more : List Text) : main plat dev records (tool :: path :: text :: more) =
      getGPUDump dev records (deviceIndex plat netGPU text) := by
  have hnic : text ≠ "Net_NVLinkManagementNIC_0".toList := by
    rintro rfl
    revert hgpu
    decide
  rw [main, if_neg h, if_neg hnic, if_pos hgpu]

def refusing : Device where
  requestRecord _ := .failed
  status _ := .failed
  fd _ := .failed
  nextRecordHandle _ := .failed
  eraseDebugInfo _ := .failed
  eraseDebugInfoStatus _ := .failed

theorem retrieve_refusing (target : Target) : ∃ t, retrieve refusing target 1 0 start = .ok .Error t ∧
    .requestRecord target 0 none ∈ t.history := ⟨_, rfl, List.mem_cons_self⟩

/-- Even a device that refuses has been sent a request. -/
theorem numbered_of_switch (h : Addresses plat text) (hswitch : netSwitch <:+: text) :
    Numbered netSwitch text (deviceIndex plat netSwitch text) := by
  obtain ⟨t, hretrieve, hsent⟩ := retrieve_refusing ⟨.NVSwitch, deviceIndex plat netSwitch text⟩
  have hdump : getSwitchDump refusing 1 (deviceIndex plat netSwitch text) start = .ok .Error t :=
    bind_of_ok hretrieve _
  have hnames := h refusing 1 [] [] []
  rw [main_netSwitch hswitch, hdump] at hnames
  exact hnames _ hsent

theorem numbered_of_gpu (h : Addresses plat text) (hswitch : ¬ netSwitch <:+: text) (hgpu : netGPU <:+: text) :
    Numbered netGPU text (deviceIndex plat netGPU text) := by
  obtain ⟨t, hretrieve, hsent⟩ := retrieve_refusing ⟨.GPU_SXM, deviceIndex plat netGPU text⟩
  have hnames := h refusing 1 [] [] []
  rw [main_netGPU hswitch hgpu, getGPUDump, hretrieve] at hnames
  exact hnames _ hsent

theorem wellNamed_of_addresses (h : Addresses plat text) : Absent text ∨ WellNamed text := by
  by_cases hswitch : netSwitch <:+: text
  · obtain ⟨ds, hds, htext, hvalue⟩ := numbered_of_switch h hswitch
    exact .inr ⟨ds, hds, hvalue ▸ UInt8.toNat_lt _, .inl htext⟩
  · by_cases hgpu : netGPU <:+: text
    · obtain ⟨ds, hds, htext, hvalue⟩ := numbered_of_gpu h hswitch hgpu
      exact .inr ⟨ds, hds, hvalue ▸ UInt8.toNat_lt _, .inr htext⟩
    · exact .inl ⟨hswitch, hgpu⟩

theorem sends_main_of_absent (h : Absent text) (dev : Device) (records : Nat) (tool path : Text) (more : List Text) :
    Keeps (Sends (Names text)) (main plat dev records (tool :: path :: text :: more)) := by
  rw [main, if_neg h.1, if_neg h.2]
  refine keeps_ite (keeps_bind ?_ fun res => keeps_bind ?_ fun _ => keeps_pure res) (keeps_pure _)
  · exact keeps_retrieve (sends_kept ⟨.NVLinkMgmtNIC_Dump, 0⟩ trivial) records 0
  · exact keeps_retrieve (sends_kept ⟨.NVLinkMgmtNIC_Log, 0⟩ trivial) records 0

theorem sends_main_of_wellNamed (hlong : 2 ^ 32 - 1 ≤ plat.ulongMax) (h : WellNamed text) (dev : Device)
    (records : Nat) (tool path : Text) (more : List Text) :
    Keeps (Sends (Names text)) (main plat dev records (tool :: path :: text :: more)) := by
  obtain ⟨ds, hds, hvalue, rfl | rfl⟩ := h
  · rw [main_netSwitch (List.prefix_append _ _).isInfix]
    exact sends_getSwitchDump ⟨ds, hds, rfl, (deviceIndex_of_digits hlong hds hvalue _).symm⟩ dev records
  · rw [main_netGPU (netSwitch_absent_of_digits hds) (List.prefix_append _ _).isInfix]
    exact keeps_retrieve (sends_kept ⟨.GPU_SXM, _⟩
      ⟨ds, hds, rfl, (deviceIndex_of_digits hlong hds hvalue _).symm⟩) records 0

theorem addresses_iff_wellNamed (hlong : 2 ^ 32 - 1 ≤ plat.ulongMax) (text : Text) :
    Addresses plat text ↔ Absent text ∨ WellNamed text := by
  refine ⟨wellNamed_of_addresses, fun h dev records tool path more => target_of_sends ?_⟩
  rcases h with h | h
  · exact sends_main_of_absent h dev records tool path more
  · exact sends_main_of_wellNamed hlong h dev records tool path more

end Main

section Captures

theorem netSwitch_ne_netGPU (ds ds' : Text) : netSwitch ++ ds ≠ netGPU ++ ds' := by
  intro h
  have hfifth : (netSwitch ++ ds)[4]? = (netGPU ++ ds')[4]? := congrArg (·[4]?) h
  cases hfifth

theorem wellNamed_switch_iff {ds : Text} :
    Absent (netSwitch ++ ds) ∨ WellNamed (netSwitch ++ ds) ↔ Digits ds ∧ value ds < 2 ^ 8 := by
  constructor
  · rintro (habsent | ⟨ds', hds, hvalue, h | h⟩)
    · exact absurd (List.prefix_append _ _).isInfix habsent.1
    · rw [List.append_cancel_left h]
      exact ⟨hds, hvalue⟩
    · exact absurd h (netSwitch_ne_netGPU _ _)
  · rintro ⟨hds, hvalue⟩
    exact .inr ⟨ds, hds, hvalue, .inl rfl⟩

theorem wellNamed_gpu_iff {ds : Text} :
    Absent (netGPU ++ ds) ∨ WellNamed (netGPU ++ ds) ↔ Digits ds ∧ value ds < 2 ^ 8 := by
  constructor
  · rintro (habsent | ⟨ds', hds, hvalue, h | h⟩)
    · exact absurd (List.prefix_append _ _).isInfix habsent.2
    · exact absurd h.symm (netSwitch_ne_netGPU _ _)
    · rw [List.append_cancel_left h]
      exact ⟨hds, hvalue⟩
  · rintro ⟨hds, hvalue⟩
    exact .inr ⟨ds, hds, hvalue, .inr rfl⟩

theorem number_iff {deviceID : Text} :
    (Digits (if deviceID.isEmpty then ['0'] else deviceID) ∧
      value (if deviceID.isEmpty then ['0'] else deviceID) < 2 ^ 8) ↔
    deviceID = [] ∨ Digits deviceID ∧ value deviceID < 2 ^ 8 := by
  cases deviceID with
  | nil =>
      refine iff_of_true ⟨⟨nofun, ?_⟩, ?_⟩ (.inl rfl)
      · simp
      · decide
  | cons c cs => simp

/-- The tool sends its commands to what the target names, if and only if the target holds
no name at all or is one of the two names and a number up to 255; of the targets that
captureDump builds, these are those whose device is such a number, or is missing. -/
theorem addresses_iff (plat : Platform) (hlong : 2 ^ 32 - 1 ≤ plat.ulongMax) :
    (∀ text, Addresses plat text ↔ Absent text ∨ WellNamed text) ∧
    (∀ deviceID, ∃ text, netDumpTarget "Net_NVSwitch".toList deviceID = some text ∧
      (Addresses plat text ↔ deviceID = [] ∨ Digits deviceID ∧ value deviceID < 2 ^ 8)) ∧
    (∀ deviceID, ∃ text, netDumpTarget "Net_GPU_SXM".toList deviceID = some text ∧
      (Addresses plat text ↔ deviceID = [] ∨ Digits deviceID ∧ value deviceID < 2 ^ 8)) := by
  refine ⟨addresses_iff_wellNamed hlong, fun deviceID => ?_, fun deviceID => ?_⟩
  · refine ⟨netSwitch ++ (if deviceID.isEmpty then ['0'] else deviceID), rfl, ?_⟩
    rw [addresses_iff_wellNamed hlong, wellNamed_switch_iff, number_iff]
  · refine ⟨netGPU ++ (if deviceID.isEmpty then ['0'] else deviceID), rfl, ?_⟩
    rw [addresses_iff_wellNamed hlong, wellNamed_gpu_iff, number_iff]

theorem addresses_iff_bits32 : ∃ text, netDumpTarget "Net_NVSwitch".toList "2".toList = some text ∧
    Addresses .bits32 text := by
  obtain ⟨text, htext, haddresses⟩ := (addresses_iff .bits32 le_rfl).2.1 "2".toList
  refine ⟨text, htext, haddresses.mpr (.inr ⟨⟨nofun, ?_⟩, ?_⟩)⟩
  · simp
  · decide

/-- The device number 256 has the dump of switch 0 erased, and so has a GPU that is asked
for by the name of a switch. -/
theorem erased_switch_unnamed :
    (∃ text, netDumpTarget "Net_NVSwitch".toList "256".toList = some text ∧
      .eraseDebugInfo ⟨.NVSwitch, 0⟩ (some ()) ∈ (final (main .bits32 (twoRecords (.answered 0)) 9
        ["nsm-net-dump-tool".toList, "/tmp/dump".toList, text] start)).history ∧ ¬ Names text ⟨.NVSwitch, 0⟩) ∧
    (∃ text, netDumpTarget "Net_GPU_SXM".toList "Net_NVSwitch_1".toList = some text ∧
      .eraseDebugInfo ⟨.NVSwitch, 0⟩ (some ()) ∈ (final (main .bits32 (twoRecords (.answered 0)) 9
        ["nsm-net-dump-tool".toList, "/tmp/dump".toList, text] start)).history ∧ ¬ Names text ⟨.NVSwitch, 0⟩) := by
  refine ⟨⟨netSwitch ++ "256".toList, rfl, List.mem_of_getElem? (i := 4) rfl, ?_⟩,
    ⟨netGPU ++ "Net_NVSwitch_1".toList, rfl, List.mem_of_getElem? (i := 4) rfl, ?_⟩⟩
  · rintro ⟨ds, _, htext, hvalue⟩
    rw [← List.append_cancel_left htext] at hvalue
    revert hvalue
    decide
  · rintro ⟨ds, _, htext, _⟩
    exact netSwitch_ne_netGPU _ _ htext.symm

end Captures

end DumpCollector.Nsm.Addressing
