import DumpCollector.FaultLog.Decoders

namespace DumpCollector.FaultLog.Documents

open Lib.Directory Lib.Effects Lib.Maps Entries FileNames JsonText Requests State Dispatch Frames
open FaultLog.Manager FaultLog.Steps Decoders

section Members

def find (j : Json) (key : String) : Option Json := (j.at key).toOption

def first : Json → Option Json
  | .array (element :: _) => some element
  | _ => none

inductive Place
  | header
  | descriptor
  | body
  | device
  deriving DecidableEq

/-- Sections count only beside a header with their number, and the body of one only beside
a descriptor. -/
def Place.object (jsonData : Json) : Place → Option Json
  | .header => find jsonData "Header"
  | .descriptor => do
      let hdr ← find jsonData "Header"
      let _ ← find hdr "SectionCount"
      let sections ← find jsonData "Sections"
      let toLog ← first sections
      find toLog "SectionDescriptor"
  | .body => do
      let hdr ← find jsonData "Header"
      let _ ← find hdr "SectionCount"
      let sections ← find jsonData "Sections"
      let toLog ← first sections
      let _ ← find toLog "SectionDescriptor"
      find toLog "Section"
  | .device => do
      let hdr ← find jsonData "Header"
      let _ ← find hdr "SectionCount"
      let sections ← find jsonData "Sections"
      let toLog ← first sections
      let _ ← find toLog "SectionDescriptor"
      let sectionToLog ← find toLog "Section"
      find sectionToLog "DeviceID"

def place : CperField → Place × String
  | .notificationType => (.header, "NotificationType")
  | .sectionType => (.descriptor, "SectionType")
  | .fruid => (.descriptor, "FRUId")
  | .severity => (.descriptor, "SectionSeverity")
  | .nvipSignature => (.body, "IPSignature")
  | .nvSeverity => (.body, "Severity")
  | .nvSocketNumber => (.body, "SocketNumber")
  | .pcieVendorID => (.device, "VendorID")
  | .pcieDeviceID => (.device, "DeviceID")
  | .pcieClassCode => (.device, "ClassCode")
  | .pcieFunctionNumber => (.device, "FunctionNumber")
  | .pcieDeviceNumber => (.device, "DeviceNumber")
  | .pcieSegmentNumber => (.device, "SegmentNumber")
  | .pcieDeviceBusNumber => (.device, "DeviceBusNumber")
  | .pcieSecondaryBusNumber => (.device, "SecondaryBusNumber")
  | .pcieSlotNumber => (.device, "SlotNumber")

def located (jsonData : Json) (field : CperField) : Option Json := do
  let object ← (place field).1.object jsonData
  find object (place field).2

/-- The numbers of the socket and of the slot are written out, all other members have to be
strings. -/
def textOf (field : CperField) (value : Json) : Except Exn String :=
  if field = .nvSocketNumber ∨ field = .pcieSlotNumber then .ok value.dump else value.getString

end Members

section Assignments

variable {j : Json} {key : String} {f field : CperField} {r : Except Exn String}

theorem mem_member :
    (f, r) ∈ member j key field ↔ f = field ∧ ∃ value, find j key = some value ∧ r = value.getString := by
  rw [member]
  obtain ⟨value, hcontains, hat⟩ | ⟨hcontains, e, hat⟩ := at_cases j key
  · simp [find, hcontains, hat, Except.toOption, bind, Except.bind]
  · simp [find, hcontains, hat, Except.toOption]

theorem mem_memberText : (f, r) ∈ memberText j key field ↔
    f = field ∧ ∃ value, find j key = some value ∧ r = .ok value.dump := by
  rw [memberText]
  obtain ⟨value, hcontains, hat⟩ | ⟨hcontains, e, hat⟩ := at_cases j key
  · simp [find, hcontains, hat, Except.toOption]
  · simp [find, hcontains, hat, Except.toOption]

theorem mem_whereMember {k : Json → Assignments} :
    (f, r) ∈ whereMember j key k ↔ ∃ value, find j key = some value ∧ (f, r) ∈ k value := by
  rw [whereMember]
  obtain ⟨value, hcontains, hat⟩ | ⟨hcontains, e, hat⟩ := at_cases j key
  · simp [find, hat, Except.toOption]
  · simp [find, hat, Except.toOption]

def Assigned (object : Json) (p : Place) (f : CperField) (r : Except Exn String) : Prop :=
  (place f).1 = p ∧ ∃ value, find object (place f).2 = some value ∧ r = textOf f value

theorem mem_deviceAssignments {devID : Json} : (f, r) ∈ deviceAssignments devID ↔ Assigned devID .device f r := by
  rw [deviceAssignments, Assigned]
  cases f <;> simp [mem_member, mem_memberText, place, textOf]

theorem mem_sectionAssignments {sectionToLog : Json} : (f, r) ∈ sectionAssignments sectionToLog ↔
    Assigned sectionToLog .body f r ∨
      ∃ devID, find sectionToLog "DeviceID" = some devID ∧ Assigned devID .device f r := by
  simp only [sectionAssignments, List.mem_append, mem_whereMember, mem_deviceAssignments]
  refine or_congr ?_ Iff.rfl
  rw [Assigned]
  cases f <;> simp [mem_member, mem_memberText, place, textOf]

theorem mem_descriptorAssignments {toLog : Json} : (f, r) ∈ descriptorAssignments toLog ↔
    ∃ descToLog, find toLog "SectionDescriptor" = some descToLog ∧ (Assigned descToLog .descriptor f r ∨
      ∃ sectionToLog, find toLog "Section" = some sectionToLog ∧ (f, r) ∈ sectionAssignments sectionToLog) := by
  simp only [descriptorAssignments, List.mem_append, mem_whereMember]
  refine exists_congr fun descToLog => and_congr_right fun _ => or_congr ?_ Iff.rfl
  rw [Assigned]
  cases f <;> simp [mem_member, place, textOf]

theorem mem_elements {sections : Json} {k : Json → Assignments} :
    ((f, r) ∈ match sections with
      | .array (toLog :: _) => k toLog
      | _ => []) ↔ ∃ toLog, first sections = some toLog ∧ (f, r) ∈ k toLog := by
  cases sections with
  | array elements => cases elements <;> simp [first]
  | _ => simp [first]

theorem mem_assignments_iff : (f, r) ∈ assignments j ↔ ∃ hdr, find j "Header" = some hdr ∧
    (Assigned hdr .header f r ∨ ∃ count, find hdr "SectionCount" = some count ∧
      ∃ sections, find j "Sections" = some sections ∧
        ∃ toLog, first sections = some toLog ∧ (f, r) ∈ descriptorAssignments toLog) := by
  simp only [assignments, List.mem_append, mem_whereMember]
  refine exists_congr fun hdr => and_congr_right fun _ => or_congr ?_ ?_
  · rw [Assigned]
    cases f <;> simp [mem_member, place, textOf]
  · refine exists_congr fun count => and_congr_right fun _ => ?_
    exact exists_congr fun sections => and_congr_right fun _ => mem_elements

theorem located_iff : (∃ value, located j f = some value ∧ r = textOf f value) ↔
    ∃ p object, Place.object j p = some object ∧ Assigned object p f r := by
  constructor
  · rintro ⟨value, hlocated, hr⟩
    obtain ⟨object, hobject, hvalue⟩ := Option.bind_eq_some_iff.mp hlocated
    exact ⟨_, object, hobject, rfl, value, hvalue, hr⟩
  · rintro ⟨p, object, hobject, rfl, value, hvalue, hr⟩
    exact ⟨value, Option.bind_eq_some_iff.mpr ⟨object, hobject, hvalue⟩, hr⟩

theorem mem_assignments : (f, r) ∈ assignments j ↔ ∃ value, located j f = some value ∧ r = textOf f value := by
  simp only [located_iff, mem_assignments_iff, mem_descriptorAssignments, mem_sectionAssignments]
  constructor
  · rintro ⟨hdr, hhdr, h | ⟨count, hcount, sections, hsections, toLog, hfirst, descToLog, hdesc, h⟩⟩
    · exact ⟨.header, hdr, hhdr, h⟩
    · rcases h with h | ⟨sectionToLog, hsection, h | ⟨devID, hdevice, h⟩⟩
      · exact ⟨.descriptor, descToLog, by simp [Place.object, *], h⟩
      · exact ⟨.body, sectionToLog, by simp [Place.object, *], h⟩
      · exact ⟨.device, devID, by simp [Place.object, *], h⟩
  · rintro ⟨p, object, hobject, h⟩
    cases p with
    | header => exact ⟨object, hobject, .inl h⟩
    | descriptor =>
        simp only [Place.object, Option.bind_eq_bind, Option.bind_eq_some_iff] at hobject
        obtain ⟨hdr, hhdr, count, hcount, sections, hsections, toLog, hfirst, hdesc⟩ := hobject
        exact ⟨hdr, hhdr, .inr ⟨count, hcount, sections, hsections, toLog, hfirst, object, hdesc, .inl h⟩⟩
    | body =>
        simp only [Place.object, Option.bind_eq_bind, Option.bind_eq_some_iff] at hobject
        obtain ⟨hdr, hhdr, count, hcount, sections, hsections, toLog, hfirst, descToLog, hdesc, hbody⟩ := hobject
        exact ⟨hdr, hhdr, .inr ⟨count, hcount, sections, hsections, toLog, hfirst, descToLog, hdesc,
          .inr ⟨object, hbody, .inl h⟩⟩⟩
    | device =>
        simp only [Place.object, Option.bind_eq_bind, Option.bind_eq_some_iff] at hobject
        obtain ⟨hdr, hhdr, count, hcount, sections, hsections, toLog, hfirst, descToLog, hdesc, sectionToLog, hbody,
          hdevice⟩ := hobject
        exact ⟨hdr, hhdr, .inr ⟨count, hcount, sections, hsections, toLog, hfirst, descToLog, hdesc,
          .inr ⟨sectionToLog, hbody, .inr ⟨object, hdevice, h⟩⟩⟩⟩

end Assignments

section Assign

variable {as : Assignments} {values : CperDecode} {field : CperField}

theorem assign_none_iff : (assign as values).2 = none ↔ ∀ a ∈ as, ∃ text, a.2 = .ok text := by
  induction as generalizing values with
  | nil => simp [assign]
  | cons a as ih =>
      obtain ⟨field, e | text⟩ := a
      · simp [assign]
      · simp [assign, ih]

theorem assign_absent (h : ∀ r, (field, r) ∉ as) : (assign as values).1 field = values field := by
  induction as generalizing values with
  | nil => rfl
  | cons a as ih =>
      obtain ⟨field', e | text⟩ := a
      · rfl
      · have hne : field ≠ field' := fun heq => h (.ok text) (heq ▸ List.mem_cons_self)
        rw [assign, ih fun r hr => h r (List.mem_cons_of_mem _ hr), Function.update_of_ne hne]

theorem assign_present {text : String} (hnone : (assign as values).2 = none) (h : ∃ r, (field, r) ∈ as)
    (hsame : ∀ r, (field, r) ∈ as → r = .ok text) : (assign as values).1 field = text := by
  induction as generalizing values with
  | nil =>
      obtain ⟨r, hr⟩ := h
      cases hr
  | cons a as ih =>
      obtain ⟨field', e | text'⟩ := a
      · cases hnone
      · have hrest : ∀ r, (field, r) ∈ as → r = .ok text := fun r hr => hsame r (List.mem_cons_of_mem _ hr)
        by_cases hmem : ∃ r, (field, r) ∈ as
        · exact ih hnone hmem hrest
        · rw [assign, assign_absent fun r hr => hmem ⟨r, hr⟩]
          obtain ⟨r, hr⟩ := h
          rcases List.mem_cons.mp hr with heq | hr
          · cases heq
            cases hsame _ hr
            exact Function.update_self _ _ _
          · exact absurd ⟨r, hr⟩ hmem

end Assign

section Documents

def Readable (decoded : Option (Option Json)) : Prop :=
  ∀ jsonData field value, decoded = some (some jsonData) → located jsonData field = some value →
    ∃ text, textOf field value = .ok text

def Decodes (decoded : Option (Option Json)) (field : CperField) (text : String) : Prop :=
  ∃ jsonData value, decoded = some (some jsonData) ∧ located jsonData field = some value ∧
    textOf field value = .ok text

def Takes (decoded : Option (Option Json)) (e : FaultLogEntry) : Prop :=
  ∀ field text, Decodes decoded field text → e.decode field = text

variable {decoded : Option (Option Json)}

theorem decodeFile_none_iff (values : CperDecode) : (decodeFile decoded values).2 = none ↔ Readable decoded := by
  rcases decoded with _ | _ | jsonData
  · exact iff_of_true rfl nofun
  · exact iff_of_true rfl nofun
  · rw [decodeFile, assign_none_iff]
    constructor
    · rintro h _ field value ⟨⟩ hlocated
      exact h (field, textOf field value) (mem_assignments.mpr ⟨value, hlocated, rfl⟩)
    · rintro h ⟨field, r⟩ hmem
      obtain ⟨value, hlocated, rfl⟩ := mem_assignments.mp hmem
      exact h jsonData field value rfl hlocated

theorem takes_of_readable (h : Readable decoded) {e : FaultLogEntry} (he : e.decode = (decodeFile decoded values).1) :
    Takes decoded e := by
  rintro field text ⟨jsonData, value, rfl, hlocated, htext⟩
  rw [he]
  refine assign_present ((decodeFile_none_iff _).mpr h) ⟨_, mem_assignments.mpr ⟨value, hlocated, rfl⟩⟩ fun r hr => ?_
  obtain ⟨value', hlocated', rfl⟩ := mem_assignments.mp hr
  rw [hlocated] at hlocated'
  cases hlocated'
  exact htext

end Documents

section Entry

theorem updateEntry_iff (timeStamp fileSize : Nat) (filePath : Path) (decoded : Option (Option Json))
    (e : FaultLogEntry) :
    (∃ e', updateEntry timeStamp fileSize filePath decoded e = .ok () e' ∧ Takes decoded e') ↔ Readable decoded := by
  rw [updateEntry_eq]
  constructor
  · rintro ⟨e', h, -⟩
    apply (decodeFile_none_iff e.decode).mp
    split at h
    · rename_i hdec
      rw [hdec]
    · cases h
  · intro h
    have hnone := (decodeFile_none_iff e.decode).mpr h
    refine ⟨update e timeStamp fileSize filePath (decodeFile decoded e.decode).1, ?_, takes_of_readable h rfl⟩
    generalize decodeFile decoded e.decode = out at hnone ⊢
    obtain ⟨values, exn⟩ := out
    cases hnone
    rfl

variable {cfg : Config} {io : FileEvent} {file : Path} {s t : FaultLogDaemon} {id timestamp : Nat}
  (hname : parseName cfg.plat (filename file) = .ok (some (id, timestamp)))
include hname

theorem readable_of_createEntry {u : Unit} (h : createEntry cfg io file s = .ok u t) : Readable io.decoded := by
  rcases hslot : s.entries[uint32 id]? with _ | _ | e
  · rw [createEntry_new hname hslot] at h
    obtain ⟨_, s₁, hleft, -⟩ := bind_eq_ok.mp h
    exact (decodeFile_none_iff _).mp (throwLeft_ok hleft).1
  · rw [createEntry_empty hname hslot] at h
    cases h
  · rw [createEntry_present hname hslot] at h
    obtain ⟨size, s₁, -, hstore⟩ := bind_eq_ok.mp h
    rw [modify_bind] at hstore
    exact (decodeFile_none_iff _).mp (throwLeft_ok hstore).1

theorem content_of_createEntry {u : Unit} (h : createEntry cfg io file s = .ok u t) :
    (s.disk.content file).isSome = true := by
  rcases hslot : s.entries[uint32 id]? with _ | _ | e
  · rw [createEntry_new hname hslot] at h
    obtain ⟨_, s₁, hleft, hsized⟩ := bind_eq_ok.mp h
    obtain ⟨-, rfl⟩ := throwLeft_ok hleft
    obtain ⟨size, s₂, hsize, -⟩ := bind_eq_ok.mp hsized
    obtain ⟨content, hcontent, -⟩ := fileSize_ok hsize
    exact Option.isSome_of_eq_some hcontent
  · rw [createEntry_empty hname hslot] at h
    cases h
  · rw [createEntry_present hname hslot] at h
    obtain ⟨size, s₁, hsize, -⟩ := bind_eq_ok.mp h
    obtain ⟨content, hcontent, -⟩ := fileSize_ok hsize
    exact Option.isSome_of_eq_some hcontent

theorem createEntry_of_readable (h : Readable io.decoded) {content : Content}
    (hfile : s.disk.content file = some content) (hslot : s.entries[uint32 id]? ≠ some none)
    (hdone : io.construction = .done) :
    ∃ e, createEntry cfg io file s = .ok () { s with entries := s.entries.insert (uint32 id) (some e) } ∧
      e.file = some file ∧ Takes io.decoded e := by
  rcases hentry : s.entries[uint32 id]? with _ | _ | e
  · have hnone := (decodeFile_none_iff notDecoded).mpr h
    rw [createEntry_new hname hentry, hnone]
    refine ⟨create (uint32 id) timestamp cfg.CPER "CPER" "0" content.size (some file) .Completed
      (decodeFile io.decoded notDecoded).1 "" io.originatorType, ?_, rfl, takes_of_readable h rfl⟩
    rw [← insertIfNew_of_absent hentry]
    refine (bind_of_ok (fileSize_some hfile) _).trans ?_
    rw [hdone]
    rfl
  · exact absurd hentry hslot
  · have hnone := (decodeFile_none_iff e.decode).mpr h
    rw [createEntry_present hname hentry, hnone]
    exact ⟨_, bind_of_ok (fileSize_some hfile) _, rfl, takes_of_readable h rfl⟩

theorem createEntry_iff (hdone : io.construction = .done) :
    (∃ t e, createEntry cfg io file s = .ok () t ∧ t.entries[uint32 id]? = some (some e) ∧ e.file = some file ∧
      Takes io.decoded e) ↔
    (s.disk.content file).isSome = true ∧ s.entries[uint32 id]? ≠ some none ∧ Readable io.decoded := by
  constructor
  · rintro ⟨t, e, hrun, -⟩
    refine ⟨content_of_createEntry hname hrun, fun hslot => ?_, readable_of_createEntry hname hrun⟩
    rw [createEntry_empty hname hslot] at hrun
    cases hrun
  · rintro ⟨hfile, hslot, h⟩
    obtain ⟨content, hcontent⟩ := Option.isSome_iff_exists.mp hfile
    obtain ⟨e, hrun, hstored, htakes⟩ := createEntry_of_readable hname h hcontent hslot hdone
    refine ⟨_, e, hrun, ?_, hstored, htakes⟩
    rw [insert_get, if_pos rfl]

end Entry

end DumpCollector.FaultLog.Documents
