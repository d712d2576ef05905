import DumpCollector.System.Manager
import DumpCollector.Slots

namespace DumpCollector.System.Steps

open Std Lib.Directory Lib.Effects Lib.Maps Entries FileNames Requests State Dispatch Frames DumpCollector.Steps Slots
open System.Manager

variable (cfg : Config)

section CreateDump

theorem construct_eq {r : Request} {id : Nat} {e : SystemEntry} (h : construct cfg r id = .ok e) :
    ∃ originatorId originatorType diagnosticType, e = createWithType id r.timeStamp 0 none .InProgress originatorId
      originatorType r.entryProcessGroupID diagnosticType := by
  rw [construct] at h
  cases horig : extractOriginatorProperties cfg.originators r.params with
  | error exn =>
      rw [horig] at h
      cases h
  | ok originator =>
      cases htype : getString r.params "DiagnosticType" with
      | error exn =>
          rw [horig, htype] at h
          cases h
      | ok diagnosticType =>
          cases hcon : r.construction with
          | done =>
              rw [horig, htype, hcon] at h
              cases h
              exact ⟨originator.1, originator.2, diagnosticType, rfl⟩
          | invalidArgument | failed =>
              rw [horig, htype, hcon] at h
              cases h

theorem construct_new {r : Request} {id : Nat} {e : SystemEntry} (h : construct cfg r id = .ok e) :
    e.base.id = id ∧ e.base.status = .InProgress ∧ e.base.file = none := by
  obtain ⟨originatorId, originatorType, diagnosticType, rfl⟩ := construct_eq cfg h
  exact ⟨rfl, rfl, rfl⟩

/-- The retention comes first, the entry last, and the fork in between. -/
theorem createDump_eq (r : Request) : (some <$> createDump cfg r) =
    (limitDumpEntries cfg.SYSTEM_DUMP_MAX_LIMIT >>= fun _ => get >>= fun s =>
      fromExcept (checkRunning r s.own) >>= fun _ => get >>= fun s =>
      fromExcept (checkCapture cfg r s.disk) >>= fun diagnosticType =>
      whenever (diagnosticType = "RetLTSSM") (modifyOwn (setDebugMode true r.retimerWritten)) >>= fun _ =>
      modifyOwn (insertType diagnosticType) >>= fun _ =>
      forkCollector r.fork diagnosticType (eraseType diagnosticType) >>= fun id =>
      fromExcept (construct cfg r id) >>= fun e => insertEntry id e >>= fun _ => pure (some id)) := by
  simp only [createDump, captureDump, map_eq_pure_bind, bind_assoc, pure_bind]

theorem createDump_limited (r : Request) :
    Limited cfg.SYSTEM_DUMP_MAX_LIMIT r.fork (some <$> createDump cfg r) := by
  refine ⟨_, createDump_eq cfg r, fun _ s => ?_⟩
  refine outcome_bind keeps_get (fun _ s => ?_) s
  refine outcome_bind (keeps_fromExcept _) (fun _ s => ?_) s
  refine outcome_bind keeps_get (fun _ s => ?_) s
  refine outcome_bind (keeps_fromExcept _) (fun diagnosticType s => ?_) s
  refine outcome_bind (keeps_whenever (keeps_modifyOwn _)) (fun _ s => ?_) s
  refine outcome_bind (keeps_modifyOwn _) (fun _ s => ?_) s
  exact outcome_fork (fun id s => ⟨s.own, rfl⟩) (fun id e he => construct_new cfg he) s

theorem createDump_outcome (r : Request) (s : SystemDaemon) : Outcome r.fork s ((some <$> createDump cfg r) s) :=
  (createDump_limited cfg r).outcome s

end CreateDump

section CreateEntry

variable {cfg} {io : FileEvent} {file : Path} {s t : SystemDaemon}

theorem createEntry_refused {exn : Exn} (h : parseName cfg.plat (filename file) = .error exn) :
    createEntry cfg io file s = .error exn s := by
  simp only [createEntry, h, fromExcept]
  rfl

theorem createEntry_unnamed (h : parseName cfg.plat (filename file) = .ok none) :
    createEntry cfg io file s = .ok () s := by
  simp only [createEntry, h, fromExcept]
  rfl

section Named

variable {id timestamp : Nat} (h : parseName cfg.plat (filename file) = .ok (some (id, timestamp)))
include h

theorem createEntry_absent (hc : s.disk.content file = none) :
    createEntry cfg io file s = .error .filesystemError s := by
  simp only [createEntry, h, fromExcept, pure_bind, get_bind]
  exact bind_of_error (fileSize_none hc) _

variable {c : Content} (hc : s.disk.content file = some c)
include hc

theorem createEntry_present {e : SystemEntry} (he : s.entries[uint32 id]? = some (some e)) :
    createEntry cfg io file s = .ok () { s with
      entries := s.entries.insert (uint32 id) (some (update e timestamp c.size file))
      own := completed io e.dumpType s.own } := by
  simp only [createEntry, h, fromExcept, pure_bind, get_bind, he]
  rw [bind_of_ok (fileSize_some hc)]
  rfl

theorem createEntry_new (he : ∀ e, s.entries[uint32 id]? ≠ some (some e)) :
    createEntry cfg io file s = insertConstructed (uint32 id) io.construction
      (create (uint32 id) timestamp c.size (some file) .Completed "" io.originatorType io.entryProcessGroupID) s := by
  rcases hs : s.entries[uint32 id]? with _ | _ | e
  · simp only [createEntry, h, fromExcept, pure_bind, get_bind, hs]
    rw [bind_of_ok (fileSize_some hc)]
  · simp only [createEntry, h, fromExcept, pure_bind, get_bind, hs]
    rw [bind_of_ok (fileSize_some hc)]
  · exact absurd hs (he e)

end Named

/-- What createEntry does with a file: nothing, or a new entry where its name stands for
none, or the completion of the entry that its name stands for. -/
inductive Creates (cfg : Config) (io : FileEvent) (file : Path) (s t : SystemDaemon) : Prop
  | ignored (hno : ∀ n, namedId cfg.plat (filename file) = some n → ∀ e, s.entries[n]? ≠ some (some e)) (ht : t = s)
  | created (n timestamp : Nat) (c : Content) (hnamed : namedId cfg.plat (filename file) = some n)
      (hno : ∀ e, s.entries[n]? ≠ some (some e))
      (ht : t = { s with entries := s.entries.insertIfNew n (some (create n timestamp c.size (some file) .Completed ""
        io.originatorType io.entryProcessGroupID)) })
  | completed (n timestamp : Nat) (c : Content) (e : SystemEntry)
      (hnamed : namedId cfg.plat (filename file) = some n) (he : s.entries[n]? = some (some e))
      (ht : t = { s with
        entries := s.entries.insert n (some (update e timestamp c.size file))
        own := completed io e.dumpType s.own })

/-- The file is dealt with, or an exception other than that of an empty slot leaves the
state as it was. -/
theorem createEntry_result (cfg : Config) (io : FileEvent) (file : Path) (s : SystemDaemon) :
    (∃ t, createEntry cfg io file s = .ok () t ∧ Creates cfg io file s t) ∨
    ∃ exn, createEntry cfg io file s = .error exn s ∧ exn ≠ .nullDereference := by
  cases hp : parseName cfg.plat (filename file) with
  | error exn => exact .inr ⟨exn, createEntry_refused hp, parseName_error hp ▸ by decide⟩
  | ok details =>
      rcases details with _ | ⟨id, timestamp⟩
      · have hnamed : namedId cfg.plat (filename file) = none := by simp [namedId, hp]
        refine .inl ⟨s, createEntry_unnamed hp, .ignored (fun n hn => ?_) rfl⟩
        rw [hnamed] at hn
        cases hn
      · have hnamed := namedId_of_parseName hp
        cases hc : s.disk.content file with
        | none => exact .inr ⟨_, createEntry_absent hp hc, by decide⟩
        | some c =>
            by_cases he : ∃ e, s.entries[uint32 id]? = some (some e)
            · obtain ⟨e, he⟩ := he
              exact .inl ⟨_, createEntry_present hp hc he, .completed _ timestamp c e hnamed he rfl⟩
            · have he' : ∀ e, s.entries[uint32 id]? ≠ some (some e) := fun e hs => he ⟨e, hs⟩
              rw [createEntry_new hp hc he']
              cases hcon : io.construction with
              | done => exact .inl ⟨_, rfl, .created _ timestamp c hnamed he' rfl⟩
              | invalidArgument =>
                  exact .inl ⟨s, rfl, .ignored (fun n hn => Option.some.inj (hnamed.symm.trans hn) ▸ he') rfl⟩
              | failed => exact .inr ⟨_, rfl, by decide⟩

theorem createEntry_no_null (u : SystemDaemon) : createEntry cfg io file s ≠ .error .nullDereference u := by
  intro h
  rcases createEntry_result cfg io file s with ⟨t, hrun, -⟩ | ⟨exn, hrun, hexn⟩
  · cases hrun.symm.trans h
  · cases hrun.symm.trans h
    exact hexn rfl

theorem createEntry_cases {u : Unit} (h : createEntry cfg io file s = .ok u t) : Creates cfg io file s t := by
  rcases createEntry_result cfg io file s with ⟨t', hrun, hcreates⟩ | ⟨exn, hrun, -⟩
  · cases hrun.symm.trans h
    exact hcreates
  · cases hrun.symm.trans h

theorem createEntry_filed {u : Unit} (h : createEntry cfg io file s = .ok u t) :
    Filed (namedId cfg.plat (filename file)) file s t := by
  cases createEntry_cases h with
  | ignored hno ht =>
      subst ht
      exact filed_of_unchanged hno
  | created n timestamp c hnamed hno ht =>
      subst ht
      rw [hnamed]
      exact filed_insertIfNew hno rfl rfl rfl
  | completed n timestamp c e hnamed he ht =>
      subst ht
      rw [hnamed]
      exact ⟨rfl, rfl, rfl, rfl, watchesGrow_of_eq rfl rfl, .inr ⟨_, _, rfl, rfl, rfl, rfl, .inr ⟨e, he, rfl⟩⟩⟩

end CreateEntry

section Restore

theorem preserves_restore {I : SystemDaemon → Prop} (hcreate : ∀ io file, Preserves I (createEntry cfg io file))
    (hlast : ∀ s n, I s → I { s with lastEntryId := n }) (listing : Listing) : Preserves I (restore cfg listing) := by
  refine preserves_get_bind fun s => preserves_ite (preserves_forM fun idStr => ?_) (preserves_pure _)
  refine preserves_get_bind fun s => preserves_ite (preserves_bind (preserves_fromExcept _) fun id => ?_)
    (preserves_pure _)
  refine preserves_bind (preserves_modify fun s => hlast s _) fun _ => ?_
  split
  · exact hcreate _ _
  · exact preserves_pure _

/-- What holds without entries, and is kept when a file is taken up, holds after restore. -/
theorem invariant_started {I : SystemDaemon → Prop} (hbare : ∀ disk, I (bare ⟨∅, ⟨false, false⟩⟩ disk))
    (hcreate : ∀ io file, Preserves I (createEntry cfg io file)) (hlast : ∀ s n, I s → I { s with lastEntryId := n })
    {s : SystemDaemon} (h : Started cfg s) : I s := by
  obtain ⟨disk, listing, u, -, -, h⟩ := h
  exact preserves_restore cfg hcreate hlast listing _ u s (hbare disk) h

theorem idle_of_started {s : SystemDaemon} (h : Started cfg s) : Idle s :=
  invariant_started cfg (idle_bare _) (fun _ _ _ _ _ hs h => idle_filed (createEntry_filed h) hs)
    (fun _ => idle_lastEntryId) h

end Restore

theorem sound : Sound (systemOps cfg) fun file => namedId cfg.plat (filename file) :=
  ⟨createDump_outcome cfg, fun _ _ _ _ _ h => createEntry_filed h⟩

end DumpCollector.System.Steps
