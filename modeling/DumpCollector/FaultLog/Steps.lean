import DumpCollector.FaultLog.Manager
import DumpCollector.Slots

namespace DumpCollector.FaultLog.Steps

open Std Lib.Directory Lib.Effects Lib.Maps Entries FileNames JsonText Requests State Dispatch Frames
open DumpCollector.Steps Slots FaultLog.Manager

variable (cfg : Config)

section CreateDump

theorem keeps_rotate (failed : Nat → Bool) (keys : List Nat) (calls : Nat) :
    Keeps Trimmed (rotate cfg failed keys calls) := by
  induction keys generalizing calls with
  | nil => exact keeps_pure _
  | cons key keys ih =>
      refine keeps_bind (keeps_deleteAt key) fun _ => ?_
      refine keeps_bind (keeps_bind keeps_get fun s => keeps_pure _) fun _ => ?_
      exact keeps_ite (keeps_pure _) (ih _)

theorem keeps_limitTotalDumpSize (failed : Nat → Bool) : Keeps Trimmed (limitTotalDumpSize cfg failed) := by
  refine keeps_bind keeps_get fun s => keeps_ite (keeps_pure _) (keeps_ite ?_ (keeps_throw _))
  exact keeps_bind (keeps_rotate cfg _ _ _) fun _ => keeps_bind keeps_get fun _ => keeps_throwIf _ _

theorem keeps_faultData (params : DumpCreateParams) : Keeps Trimmed (faultData cfg params) := by
  rw [faultData]
  split
  · refine keeps_bind (keeps_fromExcept _) fun _ => keeps_bind (keeps_modify fun s => trimmed_own s _) fun _ => ?_
    exact keeps_bind keeps_get fun _ => keeps_bind (keeps_fromExcept _) fun _ => keeps_pure _
  · exact keeps_pure _

theorem construct_eq {r : Request} {info : FaultLogEntryInfo} {e : FaultLogEntry} (h : construct cfg r info = .ok e) :
    ∃ originatorId originatorType, e = create info.id r.timeStamp info.type info.additionalTypeName info.primaryLogId 0
      none .InProgress notDecoded originatorId originatorType := by
  rw [construct] at h
  cases horig : extractOriginatorProperties cfg.originators r.params with
  | error exn =>
      rw [horig] at h
      cases h
  | ok originator =>
      cases hcon : r.construction with
      | done =>
          rw [horig, hcon] at h
          cases h
          exact ⟨originator.1, originator.2, rfl⟩
      | invalidArgument | failed =>
          rw [horig, hcon] at h
          cases h

theorem construct_new {r : Request} {info : FaultLogEntryInfo} {e : FaultLogEntry}
    (h : construct cfg r info = .ok e) :
    e.base.id = info.id ∧ e.base.status = .InProgress ∧ e.file = none := by
  obtain ⟨originatorId, originatorType, rfl⟩ := construct_eq cfg h
  exact ⟨rfl, rfl, rfl⟩

theorem createDump_eq (r : Request) : (some <$> createDump cfg r) =
    (limitDumpEntries cfg.FAULTLOG_DUMP_MAX_LIMIT >>= fun _ => limitTotalDumpSize cfg r.sizeFailed >>= fun _ =>
      faultData cfg r.params >>= fun data => forkCollector r.fork () id >>= fun id =>
      fromExcept (construct cfg r ⟨id, data.1, data.2.1, data.2.2⟩) >>= fun e =>
      insertEntry id e >>= fun _ => pure (some id)) := by
  simp only [createDump, captureDump, map_eq_pure_bind, bind_assoc, pure_bind]

theorem createDump_limited (r : Request) :
    Limited cfg.FAULTLOG_DUMP_MAX_LIMIT r.fork (some <$> createDump cfg r) := by
  refine ⟨_, createDump_eq cfg r, fun _ s => ?_⟩
  refine outcome_bind (keeps_limitTotalDumpSize cfg _) (fun _ s => ?_) s
  refine outcome_bind (keeps_faultData cfg _) (fun data s => ?_) s
  refine outcome_fork (fun id s => ⟨s.own, rfl⟩) (fun id e he => ?_) s
  exact construct_new cfg he

theorem createDump_outcome (r : Request) (s : FaultLogDaemon) : Outcome r.fork s ((some <$> createDump cfg r) s) :=
  (createDump_limited cfg r).outcome s

end CreateDump

section Decode

theorem at_error {j : Json} {key : String} {e : Exn} (h : j.at key = .error e) : e = .jsonTypeError := by
  simp only [Json.at] at h
  split at h
  · split at h
    · cases h
    · cases h
      rfl
  · cases h
    rfl

theorem getString_error {j : Json} {e : Exn} (h : j.getString = .error e) : e = .jsonTypeError := by
  simp only [Json.getString] at h
  split at h
  · cases h
  · cases h
    rfl

def TypeErrors (as : Assignments) : Prop := ∀ a ∈ as, ∀ e, a.2 = .error e → e = .jsonTypeError

theorem typeErrors_append {as bs : Assignments} (ha : TypeErrors as) (hb : TypeErrors bs) : TypeErrors (as ++ bs) := by
  intro a h
  rcases List.mem_append.mp h with h | h
  · exact ha a h
  · exact hb a h

theorem typeErrors_nil : TypeErrors [] := fun a h => by cases h

theorem typeErrors_member (j : Json) (key : String) (field : CperField) : TypeErrors (member j key field) := by
  rw [member]
  split
  · intro a h e he
    obtain rfl := List.mem_singleton.mp h
    cases hat : j.at key with
    | error e' =>
        rw [hat] at he
        cases he
        exact at_error hat
    | ok value =>
        rw [hat] at he
        exact getString_error he
  · exact typeErrors_nil

theorem typeErrors_memberText (j : Json) (key : String) (field : CperField) :
    TypeErrors (memberText j key field) := by
  rw [memberText]
  split
  · intro a h e he
    obtain rfl := List.mem_singleton.mp h
    cases hat : j.at key with
    | error e' =>
        rw [hat] at he
        cases he
        exact at_error hat
    | ok value =>
        rw [hat] at he
        cases he
  · exact typeErrors_nil

theorem typeErrors_whereMember {j : Json} {key : String} {k : Json → Assignments} (hk : ∀ v, TypeErrors (k v)) :
    TypeErrors (whereMember j key k) := by
  rw [whereMember]
  split
  · exact hk _
  · exact typeErrors_nil

theorem typeErrors_assignments (jsonData : Json) : TypeErrors (assignments jsonData) := by
  have hdevice : ∀ devID, TypeErrors (deviceAssignments devID) := fun devID => by
    rw [deviceAssignments]
    repeat' apply typeErrors_append
    all_goals first | exact typeErrors_member _ _ _ | exact typeErrors_memberText _ _ _
  have hsection : ∀ sectionToLog, TypeErrors (sectionAssignments sectionToLog) := fun sectionToLog => by
    rw [sectionAssignments]
    repeat' apply typeErrors_append
    · exact typeErrors_member _ _ _
    · exact typeErrors_member _ _ _
    · exact typeErrors_memberText _ _ _
    · exact typeErrors_whereMember hdevice
  have hdescriptor : ∀ toLog, TypeErrors (descriptorAssignments toLog) := fun toLog => by
    refine typeErrors_whereMember fun descToLog => ?_
    repeat' apply typeErrors_append
    · exact typeErrors_member _ _ _
    · exact typeErrors_member _ _ _
    · exact typeErrors_member _ _ _
    · exact typeErrors_whereMember hsection
  refine typeErrors_whereMember fun hdr => typeErrors_append (typeErrors_member _ _ _) ?_
  refine typeErrors_whereMember fun _ => typeErrors_whereMember fun sections => ?_
  split
  · exact hdescriptor _
  · exact typeErrors_nil

theorem assign_error {as : Assignments} (has : TypeErrors as) {decode : CperDecode} {e : Exn}
    (h : (assign as decode).2 = some e) : e = .jsonTypeError := by
  induction as generalizing decode with
  | nil => cases h
  | cons a as ih =>
      obtain ⟨field, value | e'⟩ := a
      · cases h
        exact has _ List.mem_cons_self _ rfl
      · exact ih (fun b hb => has b (List.mem_cons_of_mem _ hb)) h

theorem decodeFile_error {decoded : Option (Option Json)} {decode : CperDecode} {e : Exn}
    (h : (decodeFile decoded decode).2 = some e) : e = .jsonTypeError := by
  simp only [decodeFile] at h
  split at h
  · exact assign_error (typeErrors_assignments _) h
  · cases h

end Decode

section CreateEntry

variable {cfg} {io : FileEvent} {file : Path} {s t : FaultLogDaemon}

theorem createEntry_refused {exn : Exn} (h : parseName cfg.plat (filename file) = .error exn) :
    createEntry cfg io file s = .error exn s := by
  simp only [createEntry, h, fromExcept]
  rfl

theorem createEntry_unnamed (h : parseName cfg.plat (filename file) = .ok none) :
    createEntry cfg io file s = .ok () s := by
  simp only [createEntry, h, fromExcept]
  rfl

section Named

variable {id timestamp : Nat} (h : parseName cfg.plat (filename file) = .ok (some (id, timestamp)))
include h

theorem createEntry_present {e : FaultLogEntry} (he : s.entries[uint32 id]? = some (some e)) :
    createEntry cfg io file s = (fileSize file >>= fun size =>
      (modify fun s => { s with
        entries := s.entries.insert (uint32 id)
          (some (update e timestamp size file (decodeFile io.decoded e.decode).1)) }) >>= fun _ =>
      throwLeft (decodeFile io.decoded e.decode).2) s := by
  simp only [createEntry, h, fromExcept, pure_bind, get_bind, he]

theorem createEntry_empty (he : s.entries[uint32 id]? = some none) :
    createEntry cfg io file s = .error .nullDereference s := by
  simp only [createEntry, h, fromExcept, pure_bind, get_bind, he]
  rfl

theorem createEntry_new (he : s.entries[uint32 id]? = none) :
    createEntry cfg io file s = (throwLeft (decodeFile io.decoded notDecoded).2 >>= fun _ =>
      fileSize file >>= fun size => insertConstructed (uint32 id) io.construction
        (create (uint32 id) timestamp cfg.CPER "CPER" "0" size (some file) .Completed
          (decodeFile io.decoded notDecoded).1 "" io.originatorType)) s := by
  simp only [createEntry, h, fromExcept, pure_bind, get_bind, he]

end Named

theorem throwLeft_ok {e : Option Exn} {u : Unit} (h : throwLeft e s = .ok u t) : e = none ∧ t = s := by
  cases e with
  | none =>
      cases h
      exact ⟨rfl, rfl⟩
  | some exn => cases h

theorem fileSize_ok {size : Nat} (h : fileSize file s = .ok size t) :
    ∃ c, s.disk.content file = some c ∧ size = c.size ∧ t = s := by
  cases hc : s.disk.content file with
  | none =>
      rw [fileSize_none hc] at h
      cases h
  | some c =>
      rw [fileSize_some hc] at h
      cases h
      exact ⟨c, rfl, rfl, rfl⟩

theorem fileSize_error {e : Exn} (h : fileSize file s = .error e t) : e = .filesystemError := by
  cases hc : s.disk.content file with
  | none =>
      rw [fileSize_none hc] at h
      cases h
      rfl
  | some c =>
      rw [fileSize_some hc] at h
      cases h

theorem createEntry_null {u : FaultLogDaemon} (h : createEntry cfg io file s = .error .nullDereference u) :
    ∃ n : Nat, s.entries[n]? = some none := by
  cases hp : parseName cfg.plat (filename file) with
  | error exn =>
      rw [createEntry_refused hp, parseName_error hp] at h
      cases h
  | ok details =>
      rcases details with _ | ⟨id, timestamp⟩
      · rw [createEntry_unnamed hp] at h
        cases h
      · rcases he : s.entries[uint32 id]? with _ | _ | e
        · rw [createEntry_new hp he] at h
          rcases bind_eq_error.mp h with hd | ⟨_, s₁, -, h⟩
          · cases hdec : (decodeFile io.decoded notDecoded).2 with
            | none =>
                rw [hdec] at hd
                cases hd
            | some exn =>
                rw [hdec, decodeFile_error hdec] at hd
                cases hd
          · rcases bind_eq_error.mp h with hsize | ⟨size, s₂, -, h⟩
            · cases fileSize_error hsize
            · cases hcon : io.construction <;> rw [hcon] at h <;> cases h
        · exact ⟨_, he⟩
        · rw [createEntry_present hp he] at h
          rcases bind_eq_error.mp h with hsize | ⟨size, s₁, -, h⟩
          · cases fileSize_error hsize
          · rw [modify_bind] at h
            cases hdec : (decodeFile io.decoded e.decode).2 with
            | none =>
                rw [hdec] at h
                cases h
            | some exn =>
                rw [hdec, decodeFile_error hdec] at h
                cases h

/-- What createEntry does with a file: nothing, or a new entry where its name stands for none,
or the completion of the entry that its name stands for. -/
inductive Creates (cfg : Config) (io : FileEvent) (file : Path) (s t : FaultLogDaemon) : Prop
  | ignored (hno : ∀ n, namedId cfg.plat (filename file) = some n → ∀ e, s.entries[n]? ≠ some (some e)) (ht : t = s)
  | created (n timestamp : Nat) (c : Content) (hnamed : namedId cfg.plat (filename file) = some n)
      (hno : ∀ e, s.entries[n]? ≠ some (some e))
      (ht : t = { s with entries := s.entries.insertIfNew n (some (create n timestamp cfg.CPER "CPER" "0" c.size
        (some file) .Completed (decodeFile io.decoded notDecoded).1 "" io.originatorType)) })
  | completed (n timestamp : Nat) (c : Content) (e : FaultLogEntry)
      (hnamed : namedId cfg.plat (filename file) = some n) (he : s.entries[n]? = some (some e))
      (ht : t = { s with
        entries := s.entries.insert n (some (update e timestamp c.size file (decodeFile io.decoded e.decode).1)) })

theorem createEntry_cases {u : Unit} (h : createEntry cfg io file s = .ok u t) : Creates cfg io file s t := by
  cases hp : parseName cfg.plat (filename file) with
  | error exn =>
      rw [createEntry_refused hp] at h
      cases h
  | ok details =>
      rcases details with _ | ⟨id, timestamp⟩
      · rw [createEntry_unnamed hp] at h
        cases h
        have hnamed : namedId cfg.plat (filename file) = none := by simp [namedId, hp]
        exact .ignored (fun n hn => by rw [hnamed] at hn; cases hn) rfl
      · have hnamed := namedId_of_parseName hp
        rcases he : s.entries[uint32 id]? with _ | _ | e
        · rw [createEntry_new hp he] at h
          obtain ⟨_, s₁, hd, hsized⟩ := bind_eq_ok.mp h
          obtain ⟨-, rfl⟩ := throwLeft_ok hd
          obtain ⟨size, s₂, hsize, hinsert⟩ := bind_eq_ok.mp hsized
          obtain ⟨c, -, rfl, rfl⟩ := fileSize_ok hsize
          have he' : ∀ e, s₂.entries[uint32 id]? ≠ some (some e) := fun e hs => by rw [he] at hs; cases hs
          cases hcon : io.construction with
          | done =>
              rw [hcon] at hinsert
              cases hinsert
              exact .created _ timestamp c hnamed he' rfl
          | invalidArgument =>
              rw [hcon] at hinsert
              cases hinsert
              exact .ignored (fun n hn => Option.some.inj (hnamed.symm.trans hn) ▸ he') rfl
          | failed =>
              rw [hcon] at hinsert
              cases hinsert
        · rw [createEntry_empty hp he] at h
          cases h
        · rw [createEntry_present hp he] at h
          obtain ⟨size, s₁, hsize, hstore⟩ := bind_eq_ok.mp h
          obtain ⟨c, -, rfl, rfl⟩ := fileSize_ok hsize
          rw [modify_bind] at hstore
          obtain ⟨-, rfl⟩ := throwLeft_ok hstore
          exact .completed _ timestamp c e hnamed he rfl

theorem createEntry_filed {u : Unit} (h : createEntry cfg io file s = .ok u t) :
    Filed (namedId cfg.plat (filename file)) file s t := by
  cases createEntry_cases h with
  | ignored hno ht =>
      subst ht
      exact filed_of_unchanged hno
  | created n timestamp c hnamed hno ht =>
      subst ht
      rw [hnamed]
      exact filed_insertIfNew hno rfl rfl rfl
  | completed n timestamp c e hnamed he ht =>
      subst ht
      rw [hnamed]
      exact ⟨rfl, rfl, rfl, rfl, watchesGrow_of_eq rfl rfl, .inr ⟨_, _, rfl, rfl, rfl, rfl, .inr ⟨e, he, rfl⟩⟩⟩

end CreateEntry

section Restore

theorem preserves_restore {I : FaultLogDaemon → Prop} (hcreate : ∀ io file, Preserves I (createEntry cfg io file))
    (hlast : ∀ s n, I s → I { s with lastEntryId := n }) (listing : Listing) : Preserves I (restore cfg listing) := by
  refine preserves_get_bind fun s => preserves_ite (preserves_forM fun idStr => ?_) (preserves_pure _)
  refine preserves_get_bind fun s => preserves_ite (preserves_bind (preserves_fromExcept _) fun id => ?_)
    (preserves_pure _)
  refine preserves_bind (preserves_modify fun s => hlast s _) fun _ => preserves_forM fun name => ?_
  exact preserves_get_bind fun s => preserves_ite (hcreate _ _) (preserves_pure _)

/-- What holds without entries, and is kept when a file is taken up, holds after restore. -/
theorem invariant_started {I : FaultLogDaemon → Prop} (hbare : ∀ disk, I (bare ⟨0⟩ disk))
    (hcreate : ∀ io file, Preserves I (createEntry cfg io file)) (hlast : ∀ s n, I s → I { s with lastEntryId := n })
    {s : FaultLogDaemon} (h : Started cfg s) : I s := by
  obtain ⟨disk, listing, u, -, -, h⟩ := h
  exact preserves_restore cfg hcreate hlast listing _ u s (hbare disk) h

theorem idle_of_started {s : FaultLogDaemon} (h : Started cfg s) : Idle s :=
  invariant_started cfg (idle_bare _) (fun _ _ _ _ _ hs h => idle_filed (createEntry_filed h) hs)
    (fun _ => idle_lastEntryId) h

end Restore

theorem sound : Sound (faultLogOps cfg) fun file => namedId cfg.plat (filename file) :=
  ⟨createDump_outcome cfg, fun _ _ _ _ _ h => createEntry_filed h⟩

end DumpCollector.FaultLog.Steps
