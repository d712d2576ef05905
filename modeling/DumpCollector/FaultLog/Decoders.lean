import DumpCollector.FaultLog.Steps
import DumpCollector.Lib.Simulation

namespace DumpCollector.FaultLog.Decoders

open Lib.Directory Lib.Effects Lib.Simulation Entries FileNames JsonText Requests State Dispatch
open FaultLog.Manager FaultLog.Steps

section Reading

variable {σ : Type}

def ifMember (j : Json) (key : String) (k : Json → EStateM Exn σ Unit) : EStateM Exn σ Unit :=
  whenever (j.contains key) (fromExcept (j.at key) >>= k)

/-- The first element of a member that is an array with elements. -/
def ifElements (j : Json) (key : String) (k : Json → EStateM Exn σ Unit) : EStateM Exn σ Unit :=
  ifMember j key fun
    | .array (first :: _) => k first
    | _ => pure ()

def takeText (put : String → σ → σ) (value : Json) : EStateM Exn σ Unit := do
  let text ← fromExcept value.getString
  modify (put text)

def takeDump (put : String → σ → σ) (value : Json) : EStateM Exn σ Unit := modify (put value.dump)

end Reading

section CreateEntry

structure Locals where
  notifType : String
  sectionType : String
  fruid : String
  severity : String
  nvipSignature : String
  nvSeverity : String
  nvSocketNumber : String
  pcieVendorID : String
  pcieDeviceID : String
  pcieClassCode : String
  pcieFunctionNumber : String
  pcieDeviceNumber : String
  pcieSegmentNumber : String
  pcieDeviceBusNumber : String
  pcieSecondaryBusNumber : String
  pcieSlotNumber : String

def Locals.initial : Locals :=
  ⟨"NA", "NA", "NA", "NA", "NA", "NA", "NA", "NA", "NA", "NA", "NA", "NA", "NA", "NA", "NA", "NA"⟩

def decodeLocals (jsonData : Json) : EStateM Exn Locals Unit :=
  ifMember jsonData "Header" fun hdr => do
    ifMember hdr "NotificationType" (takeText fun text l => { l with notifType := text })
    whenever (hdr.contains "SectionCount") (ifElements jsonData "Sections" fun toLog =>
      ifMember toLog "SectionDescriptor" fun descToLog => do
        ifMember descToLog "SectionType" (takeText fun text l => { l with sectionType := text })
        ifMember descToLog "FRUId" (takeText fun text l => { l with fruid := text })
        ifMember descToLog "SectionSeverity" (takeText fun text l => { l with severity := text })
        ifMember toLog "Section" fun sectionToLog => do
          ifMember sectionToLog "IPSignature" (takeText fun text l => { l with nvipSignature := text })
          ifMember sectionToLog "Severity" (takeText fun text l => { l with nvSeverity := text })
          ifMember sectionToLog "SocketNumber" (takeDump fun text l => { l with nvSocketNumber := text })
          ifMember sectionToLog "DeviceID" fun devID => do
            ifMember devID "VendorID" (takeText fun text l => { l with pcieVendorID := text })
            ifMember devID "DeviceID" (takeText fun text l => { l with pcieDeviceID := text })
            ifMember devID "ClassCode" (takeText fun text l => { l with pcieClassCode := text })
            ifMember devID "FunctionNumber" (takeText fun text l => { l with pcieFunctionNumber := text })
            ifMember devID "DeviceNumber" (takeText fun text l => { l with pcieDeviceNumber := text })
            ifMember devID "SegmentNumber" (takeText fun text l => { l with pcieSegmentNumber := text })
            ifMember devID "DeviceBusNumber" (takeText fun text l => { l with pcieDeviceBusNumber := text })
            ifMember devID "SecondaryBusNumber" (takeText fun text l => { l with pcieSecondaryBusNumber := text })
            ifMember devID "SlotNumber" (takeDump fun text l => { l with pcieSlotNumber := text }))

def properties (NotifTypeIn SectionTypeIn fruIDIn severityIn nvIPSigIn nvSevIn nvSockNumIn pcieVendorIDIn
    pcieDeviceIDIn pcieClassCodeIn pcieFuncNumberIn pcieDeviceNumberIn pcieSegmentNumberIn pcieDeviceBusNumberIn
    pcieSecondaryBusNumberIn pcieSlotNumberIn : String) : CperDecode
  | .notificationType => NotifTypeIn
  | .sectionType => SectionTypeIn
  | .fruid => fruIDIn
  | .severity => severityIn
  | .nvipSignature => nvIPSigIn
  | .nvSeverity => nvSevIn
  | .nvSocketNumber => nvSockNumIn
  | .pcieVendorID => pcieVendorIDIn
  | .pcieDeviceID => pcieDeviceIDIn
  | .pcieClassCode => pcieClassCodeIn
  | .pcieFunctionNumber => pcieFuncNumberIn
  | .pcieDeviceNumber => pcieDeviceNumberIn
  | .pcieSegmentNumber => pcieSegmentNumberIn
  | .pcieDeviceBusNumber => pcieDeviceBusNumberIn
  | .pcieSecondaryBusNumber => pcieSecondaryBusNumberIn
  | .pcieSlotNumber => pcieSlotNumberIn

def Locals.properties (l : Locals) : CperDecode :=
  Decoders.properties l.notifType l.sectionType l.fruid l.severity l.nvipSignature l.nvSeverity l.nvSocketNumber
    l.pcieVendorID l.pcieDeviceID l.pcieClassCode l.pcieFunctionNumber l.pcieDeviceNumber l.pcieSegmentNumber
    l.pcieDeviceBusNumber l.pcieSecondaryBusNumber l.pcieSlotNumber

/-- A file that cannot be opened, and a text that is no document, leave the values alone. -/
def readLocals (decoded : Option (Option Json)) : EStateM Exn Locals Unit :=
  match decoded with
  | some (some jsonData) => decodeLocals jsonData
  | _ => pure ()

end CreateEntry

section Update

def set (field : CperField) (text : String) (e : FaultLogEntry) : FaultLogEntry :=
  { e with decode := Function.update e.decode field text }

def decodeEntry (jsonData : Json) : EStateM Exn FaultLogEntry Unit :=
  ifMember jsonData "Header" fun hdr => do
    ifMember hdr "NotificationType" (takeText (set .notificationType))
    whenever (hdr.contains "SectionCount") (ifElements jsonData "Sections" fun toLog =>
      ifMember toLog "SectionDescriptor" fun descToLog => do
        ifMember descToLog "SectionType" (takeText (set .sectionType))
        ifMember descToLog "FRUId" (takeText (set .fruid))
        ifMember descToLog "SectionSeverity" (takeText (set .severity))
        ifMember toLog "Section" fun sectionToLog => do
          ifMember sectionToLog "IPSignature" (takeText (set .nvipSignature))
          ifMember sectionToLog "Severity" (takeText (set .nvSeverity))
          ifMember sectionToLog "SocketNumber" (takeDump (set .nvSocketNumber))
          ifMember sectionToLog "DeviceID" fun devID => do
            ifMember devID "VendorID" (takeText (set .pcieVendorID))
            ifMember devID "DeviceID" (takeText (set .pcieDeviceID))
            ifMember devID "ClassCode" (takeText (set .pcieClassCode))
            ifMember devID "FunctionNumber" (takeText (set .pcieFunctionNumber))
            ifMember devID "DeviceNumber" (takeText (set .pcieDeviceNumber))
            ifMember devID "SegmentNumber" (takeText (set .pcieSegmentNumber))
            ifMember devID "DeviceBusNumber" (takeText (set .pcieDeviceBusNumber))
            ifMember devID "SecondaryBusNumber" (takeText (set .pcieSecondaryBusNumber))
            ifMember devID "SlotNumber" (takeDump (set .pcieSlotNumber)))

def complete (timeStamp fileSize : Nat) (filePath : Path) (e : FaultLogEntry) : FaultLogEntry :=
  { e with
    base := { e.base with
      elapsed := timeStamp
      size := fileSize
      status := .Completed
      completedTime := timeStamp }
    file := some filePath }

def updateEntry (timeStamp fileSize : Nat) (filePath : Path) (decoded : Option (Option Json)) :
    EStateM Exn FaultLogEntry Unit := do
  modify (complete timeStamp fileSize filePath)
  match decoded with
  | some (some jsonData) => decodeEntry jsonData
  | _ => pure ()

end Update

def outcome {σ : Type} (values : σ → CperDecode) : EStateM.Result Exn σ Unit → CperDecode × Option Exn
  | .ok _ s => (values s, none)
  | .error e s => (values s, some e)

section Copies

variable {σ τ : Type} {R : σ → τ → Prop}

theorem simulates_ifMember {j : Json} {key : String} {k : Json → EStateM Exn σ Unit} {k' : Json → EStateM Exn τ Unit}
    (hk : ∀ value, Simulates R (k value) (k' value)) : Simulates R (ifMember j key k) (ifMember j key k') :=
  simulates_whenever _ (simulates_bind (simulates_fromExcept _) hk)

theorem simulates_ifElements {j : Json} {key : String} {k : Json → EStateM Exn σ Unit}
    {k' : Json → EStateM Exn τ Unit} (hk : ∀ value, Simulates R (k value) (k' value)) :
    Simulates R (ifElements j key k) (ifElements j key k') := by
  refine simulates_ifMember fun value => ?_
  split
  · exact hk _
  · exact simulates_pure ()

variable {put : String → σ → σ} {put' : String → τ → τ}
  (hput : ∀ text s t, R s t → R (put text s) (put' text t))
include hput

theorem simulates_takeText (value : Json) : Simulates R (takeText put value) (takeText put' value) :=
  simulates_bind (simulates_fromExcept _) fun text => simulates_modify (hput text)

theorem simulates_takeDump (value : Json) : Simulates R (takeDump put value) (takeDump put' value) :=
  simulates_modify (hput value.dump)

end Copies

def SameValues (l : Locals) (e : FaultLogEntry) : Prop := l.properties = e.decode

theorem sameValues_put {field : CperField} {put : String → Locals → Locals}
    (hput : ∀ text l, (put text l).properties = Function.update l.properties field text) (text : String) (l : Locals)
    (e : FaultLogEntry) (h : SameValues l e) : SameValues (put text l) (set field text e) := by
  rw [SameValues, hput, h]
  rfl

theorem simulates_text {field : CperField} {put : String → Locals → Locals}
    (hput : ∀ text l, (put text l).properties = Function.update l.properties field text) (j : Json) (key : String) :
    Simulates SameValues (ifMember j key (takeText put)) (ifMember j key (takeText (set field))) :=
  simulates_ifMember (simulates_takeText (sameValues_put hput))

theorem simulates_dump {field : CperField} {put : String → Locals → Locals}
    (hput : ∀ text l, (put text l).properties = Function.update l.properties field text) (j : Json) (key : String) :
    Simulates SameValues (ifMember j key (takeDump put)) (ifMember j key (takeDump (set field))) :=
  simulates_ifMember (simulates_takeDump (sameValues_put hput))

/-- One step for each of the members, in the order in which both read them. -/
theorem decodeLocals_simulates (jsonData : Json) :
    Simulates SameValues (decodeLocals jsonData) (decodeEntry jsonData) := by
  refine simulates_ifMember fun hdr => simulates_bind (simulates_text ?_ hdr "NotificationType") fun _ => ?_
  on_goal 2 =>
    refine simulates_whenever _ (simulates_ifElements fun toLog => simulates_ifMember fun descToLog => ?_)
    refine simulates_bind (simulates_text ?_ descToLog "SectionType") fun _ =>
      simulates_bind (simulates_text ?_ descToLog "FRUId") fun _ =>
      simulates_bind (simulates_text ?_ descToLog "SectionSeverity") fun _ =>
      simulates_ifMember fun sectionToLog =>
      simulates_bind (simulates_text ?_ sectionToLog "IPSignature") fun _ =>
      simulates_bind (simulates_text ?_ sectionToLog "Severity") fun _ =>
      simulates_bind (simulates_dump ?_ sectionToLog "SocketNumber") fun _ =>
      simulates_ifMember fun devID =>
      simulates_bind (simulates_text ?_ devID "VendorID") fun _ =>
      simulates_bind (simulates_text ?_ devID "DeviceID") fun _ =>
      simulates_bind (simulates_text ?_ devID "ClassCode") fun _ =>
      simulates_bind (simulates_text ?_ devID "FunctionNumber") fun _ =>
      simulates_bind (simulates_text ?_ devID "DeviceNumber") fun _ =>
      simulates_bind (simulates_text ?_ devID "SegmentNumber") fun _ =>
      simulates_bind (simulates_text ?_ devID "DeviceBusNumber") fun _ =>
      simulates_bind (simulates_text ?_ devID "SecondaryBusNumber") fun _ =>
      simulates_dump ?_ devID "SlotNumber"
  all_goals
    intro text l
    funext field
    cases field <;> rfl

theorem readLocals_simulates (timeStamp fileSize : Nat) (filePath : Path) (decoded : Option (Option Json))
    {e : FaultLogEntry} (he : ∀ field, e.decode field = "NA") :
    Alike SameValues (readLocals decoded .initial) (updateEntry timeStamp fileSize filePath decoded e) := by
  have hstart : SameValues .initial (complete timeStamp fileSize filePath e) := by
    funext field
    rw [complete, he field]
    cases field <;> rfl
  match decoded with
  | some (some jsonData) => exact decodeLocals_simulates jsonData _ _ hstart
  | some none => exact .ok () hstart
  | none => exact .ok () hstart

section Assignments

def perform : Assignments → EStateM Exn CperDecode Unit
  | [] => pure ()
  | (field, value) :: rest => do
      let text ← fromExcept value
      modify fun decode => Function.update decode field text
      perform rest

theorem perform_append (as bs : Assignments) : perform (as ++ bs) = perform as >>= fun _ => perform bs := by
  induction as with
  | nil => rfl
  | cons a as ih =>
      rw [List.cons_append, perform, perform]
      simp only [bind_assoc, ih]

theorem assign_eq (as : Assignments) (decode : CperDecode) : assign as decode = outcome id (perform as decode) := by
  induction as generalizing decode with
  | nil => rfl
  | cons a as ih =>
      obtain ⟨field, value | text⟩ := a
      · rfl
      · exact ih _

theorem at_cases (j : Json) (key : String) : (∃ value, j.contains key = true ∧ j.at key = .ok value) ∨
    (j.contains key = false ∧ ∃ e, j.at key = .error e) := by
  cases j with
  | object members =>
      simp only [Json.contains, Json.at]
      cases members.lookup key with
      | none => exact .inr ⟨rfl, _, rfl⟩
      | some value => exact .inl ⟨value, rfl, rfl⟩
  | _ => exact .inr ⟨rfl, _, rfl⟩

variable {e₀ : FaultLogEntry}

def Holds (e₀ e : FaultLogEntry) (decode : CperDecode) : Prop := e = { e₀ with decode := decode }

theorem holds_set (field : CperField) (text : String) (e : FaultLogEntry) (decode : CperDecode)
    (h : Holds e₀ e decode) : Holds e₀ (set field text e) (Function.update decode field text) := by
  rw [h]
  rfl

theorem simulates_member (j : Json) (key : String) (field : CperField) :
    Simulates (Holds e₀) (ifMember j key (takeText (set field))) (perform (member j key field)) := by
  rw [ifMember, member]
  obtain ⟨value, hcontains, hat⟩ | ⟨hcontains, -⟩ := at_cases j key
  · rw [hcontains, hat]
    exact simulates_bind (simulates_fromExcept _) fun text => simulates_modify (holds_set field text)
  · rw [hcontains]
    exact simulates_pure ()

theorem simulates_memberText (j : Json) (key : String) (field : CperField) :
    Simulates (Holds e₀) (ifMember j key (takeDump (set field))) (perform (memberText j key field)) := by
  rw [ifMember, memberText]
  obtain ⟨value, hcontains, hat⟩ | ⟨hcontains, -⟩ := at_cases j key
  · rw [hcontains, hat]
    exact simulates_modify (holds_set field value.dump)
  · rw [hcontains]
    exact simulates_pure ()

theorem simulates_whereMember {j : Json} {key : String} {k : Json → EStateM Exn FaultLogEntry Unit}
    {as : Json → Assignments} (hk : ∀ value, Simulates (Holds e₀) (k value) (perform (as value))) :
    Simulates (Holds e₀) (ifMember j key k) (perform (whereMember j key as)) := by
  rw [ifMember, whereMember]
  obtain ⟨value, hcontains, hat⟩ | ⟨hcontains, e, hat⟩ := at_cases j key
  · rw [hcontains, hat]
    exact hk value
  · rw [hcontains, hat]
    exact simulates_pure ()

theorem simulates_whereContained {j : Json} {key : String} {m : EStateM Exn FaultLogEntry Unit} {as : Assignments}
    (hm : Simulates (Holds e₀) m (perform as)) :
    Simulates (Holds e₀) (whenever (j.contains key) m) (perform (whereMember j key fun _ => as)) := by
  rw [whereMember]
  obtain ⟨value, hcontains, hat⟩ | ⟨hcontains, e, hat⟩ := at_cases j key
  · rw [hcontains, hat]
    exact hm
  · rw [hcontains, hat]
    exact simulates_pure ()

theorem decodeEntry_simulates (jsonData : Json) :
    Simulates (Holds e₀) (decodeEntry jsonData) (perform (assignments jsonData)) := by
  refine simulates_whereMember fun hdr => ?_
  rw [perform_append]
  refine simulates_bind (simulates_member _ _ _) fun _ => simulates_whereContained ?_
  refine simulates_whereMember fun sections => ?_
  cases sections with
  | array elements =>
      cases elements with
      | nil => exact simulates_pure ()
      | cons toLog others =>
          refine simulates_whereMember fun descToLog => ?_
          simp only [perform_append, bind_assoc]
          iterate 3 refine simulates_bind (simulates_member _ _ _) fun _ => ?_
          refine simulates_whereMember fun sectionToLog => ?_
          simp only [sectionAssignments, perform_append, bind_assoc]
          iterate 2 refine simulates_bind (simulates_member _ _ _) fun _ => ?_
          refine simulates_bind (simulates_memberText _ _ _) fun _ => simulates_whereMember fun devID => ?_
          simp only [deviceAssignments, perform_append, bind_assoc]
          iterate 8 refine simulates_bind (simulates_member _ _ _) fun _ => ?_
          exact simulates_memberText _ _ _
  | _ => exact simulates_pure ()

theorem eq_of_holds {e : FaultLogEntry} {r : EStateM.Result Exn FaultLogEntry Unit}
    {r' : EStateM.Result Exn CperDecode Unit} (h : Alike (Holds e) r r') :
    r = match outcome id r' with
      | (values, none) => .ok () { e with decode := values }
      | (values, some exn) => .error exn { e with decode := values } := by
  cases h with
  | ok a h => rw [h]; rfl
  | error exn h => rw [h]; rfl

theorem updateEntry_eq (timeStamp fileSize : Nat) (filePath : Path) (decoded : Option (Option Json))
    (e : FaultLogEntry) : updateEntry timeStamp fileSize filePath decoded e =
      match decodeFile decoded e.decode with
      | (values, none) => .ok () (update e timeStamp fileSize filePath values)
      | (values, some exn) => .error exn (update e timeStamp fileSize filePath values) := by
  match decoded with
  | some (some jsonData) =>
      rw [decodeFile, assign_eq]
      have hstart : Holds (complete timeStamp fileSize filePath e) (complete timeStamp fileSize filePath e) e.decode :=
        rfl
      exact eq_of_holds (decodeEntry_simulates jsonData _ _ hstart)
  | some none => rfl
  | none => rfl

end Assignments

section Agreement

def undecoded (id : Nat) : FaultLogEntry := create id 0 1 "CPER" "1" 0 none .InProgress notDecoded "" 0

theorem outcome_eq_of_alike {σ τ : Type} {values : σ → CperDecode} {values' : τ → CperDecode}
    {r : EStateM.Result Exn σ Unit} {r' : EStateM.Result Exn τ Unit}
    (h : Alike (fun s t => values s = values' t) r r') : outcome values r = outcome values' r' := by
  cases h with
  | ok a h => rw [outcome, outcome, h]
  | error exn h => rw [outcome, outcome, h]

theorem readLocals_outcome (timeStamp fileSize : Nat) (filePath : Path) (decoded : Option (Option Json))
    {e : FaultLogEntry} (he : ∀ field, e.decode field = "NA") :
    outcome Locals.properties (readLocals decoded .initial) =
      outcome FaultLogEntry.decode (updateEntry timeStamp fileSize filePath decoded e) :=
  outcome_eq_of_alike (readLocals_simulates timeStamp fileSize filePath decoded he)

theorem updateEntry_outcome (timeStamp fileSize : Nat) (filePath : Path) (decoded : Option (Option Json))
    (e : FaultLogEntry) :
    outcome FaultLogEntry.decode (updateEntry timeStamp fileSize filePath decoded e) = decodeFile decoded e.decode := by
  rw [updateEntry_eq]
  obtain ⟨values, _ | exn⟩ := decodeFile decoded e.decode <;> rfl

theorem readLocals_eq (decoded : Option (Option Json)) :
    outcome Locals.properties (readLocals decoded .initial) = decodeFile decoded notDecoded := by
  have h := readLocals_outcome 0 0 [] decoded (e := undecoded 0) fun _ => rfl
  rw [h, updateEntry_outcome]
  rfl

variable {cfg : Config} {io : FileEvent} {file : Path} {s : FaultLogDaemon} {id timestamp : Nat}
  (h : parseName cfg.plat (filename file) = .ok (some (id, timestamp)))
include h

theorem createEntry_restored (hslot : s.entries[uint32 id]? = none) :
    createEntry cfg io file s = match readLocals io.decoded .initial with
      | .error exn _ => .error exn s
      | .ok _ l => (fileSize file >>= fun size => insertConstructed (uint32 id) io.construction
          (create (uint32 id) timestamp cfg.CPER "CPER" "0" size (some file) .Completed l.properties ""
            io.originatorType)) s := by
  rw [createEntry_new h hslot, ← readLocals_eq]
  cases readLocals io.decoded .initial <;> rfl

theorem createEntry_live {e : FaultLogEntry} (hslot : s.entries[uint32 id]? = some (some e)) :
    createEntry cfg io file s = (fileSize file >>= fun size =>
      match updateEntry timestamp size file io.decoded e with
      | .ok _ e' => modify fun s => { s with entries := s.entries.insert (uint32 id) (some e') }
      | .error exn e' => do
          modify fun s => { s with entries := s.entries.insert (uint32 id) (some e') }
          throw exn) s := by
  rw [createEntry_present h hslot]
  refine bind_congr_of_ok fun size t _ => ?_
  rw [updateEntry_eq]
  obtain ⟨values, _ | exn⟩ := decodeFile io.decoded e.decode <;> rfl

end Agreement

/-- Both decoders leave the same values for all properties, and both throw or neither does. -/
theorem decoders_agree (decoded : Option (Option Json)) (e : FaultLogEntry) (he : ∀ field, e.decode field = "NA")
    (timeStamp fileSize : Nat) (filePath : Path) :
    (∀ field, (final (readLocals decoded .initial)).properties field =
      (final (updateEntry timeStamp fileSize filePath decoded e)).decode field) ∧
    (∀ exn, (∃ l, readLocals decoded .initial = .error exn l) ↔
      ∃ e', updateEntry timeStamp fileSize filePath decoded e = .error exn e') := by
  have h := readLocals_simulates timeStamp fileSize filePath decoded he
  generalize readLocals decoded .initial = r at h
  generalize updateEntry timeStamp fileSize filePath decoded e = r' at h
  cases h with
  | ok a h =>
      refine ⟨fun field => congrFun h field, fun exn => iff_of_false ?_ ?_⟩
      · rintro ⟨l, hl⟩
        cases hl
      · rintro ⟨e', he'⟩
        cases he'
  | error exn h =>
      refine ⟨fun field => congrFun h field, fun exn => ⟨?_, ?_⟩⟩
      · rintro ⟨l, hl⟩
        cases hl
        exact ⟨_, rfl⟩
      · rintro ⟨e', he'⟩
        cases he'
        exact ⟨_, rfl⟩

section Documents

def cper (notificationType : Json) : Json :=
  .object [("Header", .object [("NotificationType", notificationType), ("SectionCount", .integer 1)]),
    ("Sections", .array [.object [("Section", .object [("SocketNumber", .integer 0)]),
      ("SectionDescriptor", .object [("SectionType", .string "NVIDIA")])]])]

theorem decoders_agree_cper :
    (final (readLocals (some (some (cper (.string "CMC")))) .initial)).properties .sectionType = "NVIDIA" ∧
    (final (updateEntry 7 100 ["3", "obmcdump_3_7.tar"] (some (some (cper (.string "CMC")))) (undecoded 3))).decode
      .sectionType = "NVIDIA" := by
  have hlocals : (final (readLocals (some (some (cper (.string "CMC")))) .initial)).properties .sectionType =
      "NVIDIA" := by decide
  refine ⟨hlocals, ?_⟩
  rw [← (decoders_agree (some (some (cper (.string "CMC")))) (undecoded 3) (fun _ => rfl) 7 100
    ["3", "obmcdump_3_7.tar"]).1 .sectionType, hlocals]

end Documents

end DumpCollector.FaultLog.Decoders
