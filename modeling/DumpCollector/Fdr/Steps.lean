import DumpCollector.Fdr.Manager
import DumpCollector.Slots

namespace DumpCollector.Fdr.Steps

open Std Lib.Directory Lib.Effects Lib.Maps Entries FileNames Requests State Dispatch Frames DumpCollector.Steps Slots
open Fdr.Manager

variable (cfg : Config)

section CreateDump

theorem construct_new {r : Request} {id : Nat} {e : FdrEntry} (h : construct cfg r id = .ok e) :
    e.base.id = id ∧ e.base.status = .InProgress ∧ e.base.file = none := by
  rw [construct] at h
  cases horig : extractOriginatorProperties cfg.originators r.params with
  | error exn =>
      rw [horig] at h
      cases h
  | ok originator =>
      cases hcon : r.construction with
      | done =>
          rw [horig, hcon] at h
          cases h
          exact ⟨rfl, rfl, rfl⟩
      | invalidArgument | failed =>
          rw [horig, hcon] at h
          cases h

theorem collect_eq (r : Request) : (some <$> collect cfg r) =
    (limitDumpEntries cfg.FDR_DUMP_MAX_LIMIT >>= fun _ => fromExcept (checkTrigger cfg r) >>= fun _ =>
      forkCollector r.fork () id >>= fun id =>
      fromExcept (construct cfg r id) >>= fun e => insertEntry id e >>= fun _ => pure (some id)) := by
  simp only [collect, triggerFDRDumpScript, map_eq_pure_bind, bind_assoc, pure_bind]

theorem collect_limited (r : Request) : Limited cfg.FDR_DUMP_MAX_LIMIT r.fork (some <$> collect cfg r) := by
  refine ⟨_, collect_eq cfg r, fun _ s => ?_⟩
  refine outcome_bind (keeps_fromExcept _) (fun _ s => ?_) s
  exact outcome_fork (fun id s => ⟨s.own, rfl⟩) (fun id e he => construct_new cfg he) s

theorem trigger_outcome (r : Request) (s : FdrDaemon) :
    Outcome r.fork s ((triggerFDRDumpScript cfg r >>= fun _ => pure none) s) := by
  rw [triggerFDRDumpScript]
  rw [bind_assoc]
  refine outcome_bind (keeps_fromExcept _) (fun _ s => ?_) s
  rcases forkCollector_cases r.fork () id s with ⟨-, h⟩ | ⟨pid, hpid, hreg, h⟩ | ⟨pid, hpid, hreg, h⟩
  · rw [bind_of_error h]
    exact .refused _ s (refl s)
  · rw [bind_of_error h]
    exact .unregistered _ pid () s _ (refl s) hpid hreg
  · rw [bind_of_ok h]
    refine .unfinished _ pid () s (refl s) hpid hreg ?_ rfl
    intro n t hr
    cases hr

theorem createDump_outcome (r : Request) (s : FdrDaemon) : Outcome r.fork s (createDump cfg r s) := by
  refine outcome_bind (keeps_fromExcept _) (fun dumpAction s => ?_) s
  by_cases haction : dumpAction ≠ "Collect"
  · rw [if_pos haction]
    exact trigger_outcome cfg r s
  · rw [if_neg haction]
    have h := (collect_limited cfg r).outcome s
    rwa [map_eq_pure_bind] at h

end CreateDump

section CreateEntry

variable {cfg} {io : FileEvent} {file : Path} {s t : FdrDaemon}

theorem createEntry_refused {exn : Exn} (h : parseName cfg.plat (filename file) = .error exn) :
    createEntry cfg io file s = .error exn s := by
  simp only [createEntry, h, fromExcept]
  rfl

theorem createEntry_unnamed (h : parseName cfg.plat (filename file) = .ok none) :
    createEntry cfg io file s = .ok () s := by
  simp only [createEntry, h, fromExcept]
  rfl

section Named

variable {id timestamp : Nat} (h : parseName cfg.plat (filename file) = .ok (some (id, timestamp)))
include h

theorem createEntry_absent (hc : s.disk.content file = none) :
    createEntry cfg io file s = .error .filesystemError s := by
  simp only [createEntry, h, fromExcept, pure_bind, get_bind]
  exact bind_of_error (fileSize_none hc) _

variable {c : Content} (hc : s.disk.content file = some c)
include hc

theorem createEntry_present {e : FdrEntry} (he : s.entries[uint32 id]? = some (some e)) :
    createEntry cfg io file s = .ok () { s with
      entries := s.entries.insert (uint32 id) (some (update e timestamp c.size file)) } := by
  simp only [createEntry, h, fromExcept, pure_bind, get_bind, he]
  rw [bind_of_ok (fileSize_some hc)]
  rfl

theorem createEntry_empty (he : s.entries[uint32 id]? = some none) :
    createEntry cfg io file s = .error .nullDereference s := by
  simp only [createEntry, h, fromExcept, pure_bind, get_bind, he]
  rw [bind_of_ok (fileSize_some hc)]
  rfl

theorem createEntry_new (he : s.entries[uint32 id]? = none) :
    createEntry cfg io file s = insertConstructed (uint32 id) io.construction
      (create (uint32 id) timestamp c.size (some file) .Completed "" io.originatorType) s := by
  simp only [createEntry, h, fromExcept, pure_bind, get_bind, he]
  rw [bind_of_ok (fileSize_some hc)]

end Named

/-- The file is dealt with, or an exception leaves the state as it was, that of an empty
slot only where there is one. -/
theorem createEntry_result (cfg : Config) (io : FileEvent) (file : Path) (s : FdrDaemon) :
    (∃ t, createEntry cfg io file s = .ok () t ∧ Filed (namedId cfg.plat (filename file)) file s t) ∨
    ∃ exn, createEntry cfg io file s = .error exn s ∧
      (exn = .nullDereference → ∃ n : Nat, s.entries[n]? = some none) := by
  cases hp : parseName cfg.plat (filename file) with
  | error exn =>
      refine .inr ⟨exn, createEntry_refused hp, fun h => ?_⟩
      cases h.symm.trans (parseName_error hp)
  | ok details =>
      rcases details with _ | ⟨id, timestamp⟩
      · have hnamed : namedId cfg.plat (filename file) = none := by simp [namedId, hp]
        refine .inl ⟨s, createEntry_unnamed hp, filed_of_unchanged fun n hn => ?_⟩
        rw [hnamed] at hn
        cases hn
      · rw [namedId_of_parseName hp]
        cases hc : s.disk.content file with
        | none => exact .inr ⟨_, createEntry_absent hp hc, fun h => by cases h⟩
        | some c =>
            rcases he : s.entries[uint32 id]? with _ | _ | e
            · rw [createEntry_new hp hc he]
              have he' : ∀ e, s.entries[uint32 id]? ≠ some (some e) := fun e hs => by rw [he] at hs; cases hs
              cases hcon : io.construction with
              | done => exact .inl ⟨_, rfl, filed_insertIfNew he' rfl rfl rfl⟩
              | invalidArgument =>
                  exact .inl ⟨s, rfl, filed_of_unchanged fun n hn => by cases hn; exact he'⟩
              | failed => exact .inr ⟨_, rfl, fun h => by cases h⟩
            · exact .inr ⟨_, createEntry_empty hp hc he, fun _ => ⟨_, he⟩⟩
            · exact .inl ⟨_, createEntry_present hp hc he,
                ⟨rfl, rfl, rfl, rfl, watchesGrow_of_eq rfl rfl, .inr ⟨_, _, rfl, rfl, rfl, rfl, .inr ⟨e, he, rfl⟩⟩⟩⟩

theorem createEntry_null {u : FdrDaemon} (h : createEntry cfg io file s = .error .nullDereference u) :
    ∃ n : Nat, s.entries[n]? = some none := by
  rcases createEntry_result cfg io file s with ⟨t, hrun, -⟩ | ⟨exn, hrun, hnull⟩
  · cases hrun.symm.trans h
  · cases hrun.symm.trans h
    exact hnull rfl

theorem createEntry_filed {u : Unit} (h : createEntry cfg io file s = .ok u t) :
    Filed (namedId cfg.plat (filename file)) file s t := by
  rcases createEntry_result cfg io file s with ⟨t', hrun, hfiled⟩ | ⟨exn, hrun, -⟩
  · cases hrun.symm.trans h
    exact hfiled
  · cases hrun.symm.trans h

end CreateEntry

section Restore

theorem preserves_restore {I : FdrDaemon → Prop} (hcreate : ∀ io file, Preserves I (createEntry cfg io file))
    (hlast : ∀ s n, I s → I { s with lastEntryId := n }) (listing : Listing) : Preserves I (restore cfg listing) := by
  refine preserves_get_bind fun s => preserves_ite (preserves_forM fun idStr => ?_) (preserves_pure _)
  refine preserves_get_bind fun s => preserves_ite (preserves_bind (preserves_fromExcept _) fun id => ?_)
    (preserves_pure _)
  refine preserves_bind (preserves_modify fun s => hlast s _) fun _ => ?_
  split
  · exact hcreate _ _
  · exact preserves_pure _

/-- What holds without entries, and is kept when a file is taken up, holds after restore. -/
theorem invariant_started {I : FdrDaemon → Prop} (hbare : ∀ disk, I (bare () disk))
    (hcreate : ∀ io file, Preserves I (createEntry cfg io file)) (hlast : ∀ s n, I s → I { s with lastEntryId := n })
    {s : FdrDaemon} (h : Started cfg s) : I s := by
  obtain ⟨disk, listing, u, -, -, h⟩ := h
  exact preserves_restore cfg hcreate hlast listing _ u s (hbare disk) h

theorem idle_of_started {s : FdrDaemon} (h : Started cfg s) : Idle s :=
  invariant_started cfg (idle_bare _) (fun _ _ _ _ _ hs h => idle_filed (createEntry_filed h) hs)
    (fun _ => idle_lastEntryId) h

end Restore

theorem sound : Sound (fdrOps cfg) fun file => namedId cfg.plat (filename file) :=
  ⟨createDump_outcome cfg, fun _ _ _ _ _ h => createEntry_filed h⟩

end DumpCollector.Fdr.Steps
