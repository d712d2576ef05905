import DumpCollector.Bmc.Capture
import DumpCollector.Slots

namespace DumpCollector.Bmc.Steps

open Std Lib.Directory Lib.Effects Lib.Maps
open Entries FileNames JsonText Requests State Dispatch Frames DumpCollector.Steps Slots
open Bmc.Manager Capture

variable (cfg : Config)

section CreateDump

theorem createDump_outcome (r : Request) (s : BmcDaemon) :
    Outcome r.fork s ((some <$> createDump cfg r) s) := by
  rw [map_eq_pure_bind]
  generalize hresult : createDump cfg r s = result
  have hcaptured := createDump_captured cfg r s
  have htrim := trimmed_prepare cfg r s
  rw [hresult] at hcaptured
  cases hcaptured with
  | refused e t hstarts ht =>
      rw [bind_of_error hresult]
      exact .refused e t (ht ▸ htrim)
  | unregistered pid type u hstarts hu hregistered =>
      rw [bind_of_error hresult]
      exact .unregistered _ pid type u u.own (hu ▸ htrim) (starts_eq_some.mp hstarts).1 hregistered
  | unconstructed e pid type u hstarts hu hregistered =>
      rw [bind_of_error hresult]
      exact .unfinished _ pid type u (hu ▸ htrim) (starts_eq_some.mp hstarts).1 hregistered
        (fun n t h => by cases h) rfl
  | inserted pid type u originatorId originatorType hstarts hu hregistered hconstruction =>
      rw [bind_of_ok hresult]
      exact .inserted pid type u _ _ (hu ▸ htrim) (starts_eq_some.mp hstarts).1 hregistered rfl rfl rfl

end CreateDump

section CreateEntry

theorem filesOnly_serialize (e : BmcEntry) (outcome : Serialization) (s : BmcDaemon) :
    FilesOnly s (serialize e outcome s) := by
  have hmkdir := filesOnly_mkdir s (e.base.file.getD []).dropLast PRESERVE
  simp only [serialize]
  cases outcome with
  | notCreated => exact filesOnly_removeAll s _
  | notOpened => exact hmkdir
  | notEncoded =>
      exact ((hmkdir.trans (filesOnly_openFile _ _ _)).trans (filesOnly_closeFile _ _ _)).trans
        (filesOnly_removeAll _ _)
  | written =>
      exact ((hmkdir.trans (filesOnly_openFile _ _ _)).trans (filesOnly_writeFile _ _ _ _)).trans
        (filesOnly_closeFile _ _ _)

theorem serialize_nodes {e : BmcEntry} {dir : Path} {name : String} (hfile : e.base.file = some (dir ++ [name]))
    (hname : name ≠ PRESERVE) (outcome : Serialization) (s : BmcDaemon) :
    (serialize e outcome s).disk.nodes[dir ++ [name]]? = s.disk.nodes[dir ++ [name]]? := by
  have hdir : dir ++ [PRESERVE] ≠ dir ++ [name] := by simpa using Ne.symm hname
  have hbelow : ¬ dir ++ [PRESERVE] <+: dir ++ [name] := fun hp => hdir (hp.eq_of_length (by simp))
  have hdoc : dir ++ [PRESERVE] ++ [SERIAL_FILE] ≠ dir ++ [name] := fun h => by
    simpa using congrArg List.length h
  simp only [serialize, hfile, Option.getD_some, List.dropLast_concat]
  cases outcome with
  | notCreated => exact removeAll_nodes s hbelow
  | notOpened => exact mkdir_nodes s hdir
  | notEncoded => rw [removeAll_nodes _ hbelow, closeFile_nodes, openFile_nodes _ hdoc, mkdir_nodes s hdir]
  | written =>
      rw [writeDocument, closeFile_nodes, writeFile_nodes _ _ hdoc, openFile_nodes _ hdoc, mkdir_nodes s hdir]

theorem named_append {plat : Platform} {file : Path} {details : Nat × Nat}
    (h : parseName plat (filename file) = .ok (some details)) :
    ∃ dir name, file = dir ++ [name] ∧ name ≠ PRESERVE := by
  rcases List.eq_nil_or_concat file with rfl | ⟨dir, name, rfl⟩
  · cases h
  · refine ⟨dir, name, List.concat_eq_append, fun hname => ?_⟩
    rw [hname, List.concat_eq_append, filename_append] at h
    cases h

variable {cfg} {io : FileEvent} {file : Path} {s t : BmcDaemon}

theorem createEntry_refused {exn : Exn} (h : parseName cfg.plat (filename file) = .error exn) :
    createEntry cfg io file s = .error exn s := by
  simp only [createEntry, extractDumpDetails, h, fromExcept]
  rfl

theorem createEntry_unnamed (h : parseName cfg.plat (filename file) = .ok none) :
    createEntry cfg io file s = .ok () s := by
  simp only [createEntry, extractDumpDetails, h, fromExcept]
  rfl

theorem createEntry_absent {id timestamp : Nat} (h : parseName cfg.plat (filename file) = .ok (some (id, timestamp)))
    (hc : s.disk.content file = none) : createEntry cfg io file s = .error .filesystemError s := by
  simp only [createEntry, extractDumpDetails, h, fromExcept, pure_bind, bind_assoc]
  exact bind_of_error (fileSize_none hc) _

theorem createEntry_named {id timestamp : Nat} {c : Content}
    (h : parseName cfg.plat (filename file) = .ok (some (id, timestamp))) (hc : s.disk.content file = some c) :
    createEntry cfg io file s = createOrUpdate cfg io file (uint32 id) timestamp s := by
  simp only [createEntry, extractDumpDetails, h, fromExcept, pure_bind, bind_assoc]
  exact bind_of_ok (fileSize_some hc) _

variable {id timestamp : Nat} {c : Content} (hc : s.disk.content file = some c)
include hc

theorem createOrUpdate_present {e : BmcEntry} (he : s.entries[id]? = some (some e)) :
    createOrUpdate cfg io file id timestamp s = .ok () (serialize (updated e timestamp c.size file) io.serialization
      { s with entries := s.entries.insert id (some (updated e timestamp c.size file)) }) := by
  simp only [createOrUpdate, get_bind, he]
  rw [bind_of_ok (fileSize_some hc)]
  rfl

theorem createOrUpdate_empty (he : s.entries[id]? = some none) :
    createOrUpdate cfg io file id timestamp s = .ok () s := by
  simp only [createOrUpdate, get_bind, he]
  rw [bind_of_ok (fileSize_some hc)]
  rfl

theorem createOrUpdate_new (he : s.entries[id]? = none) :
    createOrUpdate cfg io file id timestamp s = insertConstructed id io.construction
      (create id timestamp c.size (some file) .Completed "" cfg.originators.Internal io.entryProcessGroupID) s := by
  simp only [createOrUpdate, get_bind, he]
  rw [bind_of_ok (fileSize_some hc)]

omit hc

def storing (cfg : Config) (s : BmcDaemon) (io : FileEvent) (file : Path) : Option Nat :=
  if (s.disk.content file).isSome then
    (namedId cfg.plat (filename file)).filter fun n =>
      match s.entries[n]? with
      | some e => e.isSome
      | none => io.construction = .done
  else none

/-- What createEntry does with a file: nothing, where its name stands for no entry, or a
new entry, or the update of the entry that its name stands for. -/
inductive Creates (cfg : Config) (io : FileEvent) (file : Path) (s t : BmcDaemon) : Prop
  | ignored (hstoring : storing cfg s io file = none)
      (hno : ∀ n, namedId cfg.plat (filename file) = some n → ∀ e, s.entries[n]? ≠ some (some e)) (ht : t = s)
  | created (id timestamp : Nat) (c : Content) (hparse : parseName cfg.plat (filename file) = .ok (some (id, timestamp)))
      (hc : s.disk.content file = some c) (hno : s.entries[uint32 id]? = none) (hdone : io.construction = .done)
      (ht : t = { s with entries := s.entries.insertIfNew (uint32 id) (some (create (uint32 id) timestamp c.size
        (some file) .Completed "" cfg.originators.Internal io.entryProcessGroupID)) })
  | updated (id timestamp : Nat) (c : Content) (e : BmcEntry)
      (hparse : parseName cfg.plat (filename file) = .ok (some (id, timestamp))) (hc : s.disk.content file = some c)
      (he : s.entries[uint32 id]? = some (some e))
      (ht : t = serialize (updated e timestamp c.size file) io.serialization
        { s with entries := s.entries.insert (uint32 id) (some (updated e timestamp c.size file)) })

/-- The file is dealt with, or an exception other than that of an empty slot leaves the
state as it was. -/
theorem createEntry_result (cfg : Config) (io : FileEvent) (file : Path) (s : BmcDaemon) :
    (∃ t, createEntry cfg io file s = .ok () t ∧ Creates cfg io file s t) ∨
    ∃ exn, createEntry cfg io file s = .error exn s ∧ exn ≠ .nullDereference := by
  cases hp : parseName cfg.plat (filename file) with
  | error exn => exact .inr ⟨exn, createEntry_refused hp, parseName_error hp ▸ by decide⟩
  | ok details =>
      rcases details with _ | ⟨id, timestamp⟩
      · have hnamed : namedId cfg.plat (filename file) = none := by simp [namedId, hp]
        refine .inl ⟨s, createEntry_unnamed hp, .ignored (by simp [storing, hnamed]) (fun n hn => ?_) rfl⟩
        rw [hnamed] at hn
        cases hn
      · have hnamed := namedId_of_parseName hp
        cases hc : s.disk.content file with
        | none => exact .inr ⟨_, createEntry_absent hp hc, by decide⟩
        | some c =>
            rw [createEntry_named hp hc]
            rcases he : s.entries[uint32 id]? with _ | _ | e
            · rw [createOrUpdate_new hc he]
              cases hcon : io.construction with
              | done => exact .inl ⟨_, rfl, .created id timestamp c hp hc he hcon rfl⟩
              | invalidArgument =>
                  refine .inl ⟨s, rfl, .ignored (by simp [storing, hnamed, hc, he, hcon]) (fun n hn e h => ?_) rfl⟩
                  rw [← Option.some.inj (hnamed.symm.trans hn), he] at h
                  cases h
              | failed => exact .inr ⟨_, rfl, by decide⟩
            · refine .inl ⟨s, createOrUpdate_empty hc he,
                .ignored (by simp [storing, hnamed, hc, he]) (fun n hn e h => ?_) rfl⟩
              rw [← Option.some.inj (hnamed.symm.trans hn), he] at h
              cases h
            · exact .inl ⟨_, createOrUpdate_present hc he, .updated id timestamp c e hp hc he rfl⟩

theorem createEntry_no_null (u : BmcDaemon) : createEntry cfg io file s ≠ .error .nullDereference u := by
  intro h
  rcases createEntry_result cfg io file s with ⟨t, hrun, -⟩ | ⟨exn, hrun, hexn⟩
  · cases hrun.symm.trans h
  · cases hrun.symm.trans h
    exact hexn rfl

theorem createEntry_cases {u : Unit} (h : createEntry cfg io file s = .ok u t) : Creates cfg io file s t := by
  rcases createEntry_result cfg io file s with ⟨t', hrun, hcreates⟩ | ⟨exn, hrun, -⟩
  · cases hrun.symm.trans h
    exact hcreates
  · cases hrun.symm.trans h

theorem createEntry_filed {u : Unit} (h : createEntry cfg io file s = .ok u t) :
    Filed (namedId cfg.plat (filename file)) file s t := by
  cases createEntry_cases h with
  | ignored _ hno ht =>
      subst ht
      exact filed_of_unchanged hno
  | created id timestamp c hparse hc hno hdone ht =>
      subst ht
      rw [namedId_of_parseName hparse]
      exact filed_insertIfNew (fun e h => by rw [hno] at h; cases h) rfl rfl rfl
  | updated id timestamp c e hparse hc he ht =>
      subst ht
      let s' : BmcDaemon :=
        { s with entries := s.entries.insert (uint32 id) (some (updated e timestamp c.size file)) }
      have hser := filesOnly_serialize (updated e timestamp c.size file) io.serialization s'
      have hstored : WatchesGrow s s' := watchesGrow_of_eq rfl rfl
      rw [namedId_of_parseName hparse]
      exact ⟨hser.lastEntryId, hser.childPtrMap, hser.todo, hser.procs, hstored.trans hser.watches,
        .inr ⟨_, _, rfl, hser.entries, rfl, rfl, .inr ⟨e, he, rfl⟩⟩⟩

theorem createEntry_storing {u : Unit} (h : createEntry cfg io file s = .ok u t) :
    (storing cfg s io file = none ∧ t.entries = s.entries) ∨
    ∃ n e c, storing cfg s io file = some n ∧ t.entries = s.entries.insert n (some e) ∧ e.base.file = some file ∧
      t.disk.content file = some c := by
  cases createEntry_cases h with
  | ignored hstoring _ ht => exact .inl ⟨hstoring, by rw [ht]⟩
  | created id timestamp c hparse hc hno hdone ht =>
      subst ht
      refine .inr ⟨uint32 id, _, c, ?_, insertIfNew_of_absent hno _, rfl, hc⟩
      simp [storing, namedId_of_parseName hparse, hc, hno, hdone]
  | updated id timestamp c e hparse hc he ht =>
      subst ht
      refine .inr ⟨uint32 id, updated e timestamp c.size file, c, ?_, (filesOnly_serialize _ _ _).entries, rfl, ?_⟩
      · simp [storing, namedId_of_parseName hparse, hc, he]
      · obtain ⟨dir, name, rfl, hname⟩ := named_append hparse
        rw [content_eq_some] at hc ⊢
        exact (serialize_nodes rfl hname _ _).trans hc

end CreateEntry

section Restore

def directoryId (name : String) : Option Nat :=
  match stoul cfg.plat name.toList with
  | .ok id => some (uint32 id)
  | .error _ => none

def RestoredFrom (file : Path) (id : Nat) (e : BmcEntry) : Prop :=
  e.base.id = id ∧ e.base.status = .Completed ∧ e.base.file = some file

theorem restoredFrom_deserializeFrom {file : Path} {id : Nat} {e : BmcEntry} (j : Json)
    (h : RestoredFrom file id e) : RestoredFrom file id (deserializeFrom j e) := by
  rw [deserializeFrom]
  split
  · exact h
  · split
    · exact h
    · split <;> exact h

theorem deserializeDocument_spec {file : Path} {id : Nat} {e : BmcEntry} (j : Json) (dir : Path) (s : BmcDaemon)
    (h : RestoredFrom file id e) :
    RestoredFrom file id (deserializeDocument j dir e s).1 ∧ FilesOnly s (deserializeDocument j dir e s).2 := by
  rw [deserializeDocument]
  split
  · exact ⟨h, filesOnly_rfl s⟩
  · split
    · split
      · exact ⟨h, filesOnly_rfl s⟩
      · split
        · exact ⟨restoredFrom_deserializeFrom j h, filesOnly_rfl s⟩
        · exact ⟨h, filesOnly_removeAll s dir⟩
    · exact ⟨h, filesOnly_rfl s⟩

theorem deserialize_ok {file dumpPath : Path} {id : Nat} {e e' : BmcEntry} {s t : BmcDaemon}
    (he : RestoredFrom file id e) (h : deserialize dumpPath e s = .ok e' t) :
    RestoredFrom file id e' ∧ FilesOnly s t := by
  rw [deserialize] at h
  rw [get_bind] at h
  rcases hc : s.disk.content (dumpPath ++ [PRESERVE, SERIAL_FILE]) with _ | ⟨size, _ | j⟩
  · rw [hc] at h
    cases h
    exact ⟨he, filesOnly_rfl s⟩
  · rw [hc] at h
    cases h
    exact ⟨he, filesOnly_rfl s⟩
  · rw [hc] at h
    cases h
    exact deserializeDocument_spec j _ s he

theorem deserializeFrom_progressTimer (j : Json) (e : BmcEntry) :
    (deserializeFrom j e).progressTimer = e.progressTimer := by
  rw [deserializeFrom]
  split
  · rfl
  · split
    · rfl
    · split <;> rfl

theorem deserializeDocument_progressTimer (j : Json) (dir : Path) (e : BmcEntry) (s : BmcDaemon) :
    (deserializeDocument j dir e s).1.progressTimer = e.progressTimer := by
  rw [deserializeDocument]
  split
  · rfl
  · split
    · split
      · rfl
      · split
        · exact deserializeFrom_progressTimer j e
        · rfl
    · rfl

theorem deserialize_progressTimer {dumpPath : Path} {e e' : BmcEntry} {s t : BmcDaemon}
    (h : deserialize dumpPath e s = .ok e' t) : e'.progressTimer = e.progressTimer := by
  rw [deserialize, get_bind] at h
  rcases hc : s.disk.content (dumpPath ++ [PRESERVE, SERIAL_FILE]) with _ | ⟨size, _ | j⟩
  · rw [hc] at h
    cases h
    rfl
  · rw [hc] at h
    cases h
    rfl
  · rw [hc] at h
    cases h
    exact deserializeDocument_progressTimer j _ e s

theorem deserializeEntry_ok {listing : Listing} {id : Nat} {file : Path} {s t : BmcDaemon} {r : Option BmcEntry}
    (h : deserializeEntry cfg listing id file s = .ok r t) :
    FilesOnly s t ∧ ∀ e, r = some e → RestoredFrom file id e ∧ e.progressTimer = none := by
  rw [deserializeEntry] at h
  rw [get_bind] at h
  cases hp : parseName cfg.plat (filename file) with
  | error exn =>
      rw [hp] at h
      cases h
      exact ⟨filesOnly_rfl s, fun e he => by cases he⟩
  | ok details =>
      rw [hp] at h
      rcases details with _ | ⟨extractedId, timestamp⟩
      · cases h
        exact ⟨filesOnly_rfl s, fun e he => by cases he⟩
      · cases hc : s.disk.content file with
        | none =>
            rw [hc] at h
            cases h
            exact ⟨filesOnly_rfl s, fun e he => by cases he⟩
        | some content =>
            rw [hc] at h
            dsimp only at h
            by_cases hid : listing.constructed file = true ∧ id = uint32 extractedId
            · rw [if_pos hid] at h
              obtain ⟨e', t', hd, hret⟩ := bind_eq_ok.mp h
              cases hret
              obtain ⟨hfrom, hfiles⟩ := deserialize_ok ⟨rfl, rfl, rfl⟩ hd
              exact ⟨hfiles, fun e he => by cases he; exact ⟨hfrom, deserialize_progressTimer hd⟩⟩
            · rw [if_neg hid] at h
              cases h
              exact ⟨filesOnly_rfl s, fun e he => by cases he⟩

/-- What holds while restore runs: every entry is that of a file in the directory that
is named by its id. -/
structure Restoring (s : BmcDaemon) : Prop where
  idle : Idle s
  entries : ∀ (k : Nat) (e : BmcEntry), s.entries[k]? = some (some e) →
    ∃ dir name, directoryId cfg dir = some k ∧ RestoredFrom [dir, name] k e

theorem idle_filesOnly {s t : BmcDaemon} (h : FilesOnly s t) (hs : Idle s) : Idle t where
  childPtrMap pid := by rw [h.childPtrMap, hs.childPtrMap]
  procs pid := by rw [h.procs, hs.procs]
  childWatchMap p := h.watches.absent p (hs.childWatchMap p)
  todo := h.todo.trans hs.todo
  root := hs.root.trans h.watches.root
  keyed := (slotsFrom_trimmed h.trimmed).keyed hs.keyed
  nonNull := (slotsFrom_trimmed h.trimmed).nonNull hs.nonNull

theorem restoring_insert {s : BmcDaemon} {id : Nat} {e : BmcEntry} {dir name : String} (hs : Restoring cfg s)
    (hdir : directoryId cfg dir = some id) (he : RestoredFrom [dir, name] id e) :
    Restoring cfg { s with entries := s.entries.insertIfNew e.base.id (some e) } := by
  have hcases : ∀ (k : Nat) (v : Option BmcEntry), (s.entries.insertIfNew e.base.id (some e))[k]? = some v →
      s.entries[k]? = some v ∨ v = some e ∧ k = id := by
    intro k v hv
    rw [he.1] at hv
    exact (insertIfNew_cases hv).imp_right fun h => ⟨h.2.2, h.1.symm⟩
  have hslots : SlotsFrom s { s with entries := s.entries.insertIfNew e.base.id (some e) } := by
    intro k v hv
    rcases hcases k v hv with h | ⟨rfl, rfl⟩
    · exact .inl h
    · exact .inr ⟨e, rfl, he.1⟩
  refine ⟨⟨hs.idle.childPtrMap, hs.idle.procs, hs.idle.childWatchMap, hs.idle.todo, hs.idle.root,
    hslots.keyed hs.idle.keyed, hslots.nonNull hs.idle.nonNull⟩, ?_⟩
  intro k e' he'
  rcases hcases k _ he' with h | ⟨hv, rfl⟩
  · exact hs.entries k e' h
  · cases hv
    exact ⟨dir, name, hdir, he⟩

section Preserves

variable {I : BmcDaemon → Prop} (hfiles : ∀ s t, FilesOnly s t → I s → I t)
  (hinsert : ∀ s dir name id e, directoryId cfg dir = some id → id ≤ s.lastEntryId → RestoredFrom [dir, name] id e →
    e.progressTimer = none → I s → I { s with entries := s.entries.insertIfNew e.base.id (some e) })
include hfiles hinsert

theorem preserves_restoreFile (listing : Listing) {dir : String} {id : Nat}
    (hdir : directoryId cfg dir = some (uint32 id)) (name : String) :
    Preserves (fun s => I s ∧ uint32 id ≤ s.lastEntryId) (restoreFile cfg listing id [dir, name]) := by
  refine preserves_ite (preserves_pure _) ?_
  rintro s u t ⟨hs, hle⟩ h
  obtain ⟨r, s', hentry, hrest⟩ := bind_eq_ok.mp h
  obtain ⟨hf, hfrom⟩ := deserializeEntry_ok cfg hentry
  have hle' : uint32 id ≤ s'.lastEntryId := by rwa [hf.lastEntryId]
  cases r with
  | none =>
      cases hrest
      exact ⟨hfiles s _ hf hs, hle'⟩
  | some e =>
      cases hrest
      obtain ⟨hrestored, htimer⟩ := hfrom e rfl
      exact ⟨hinsert s' dir name _ e hdir hle' hrestored htimer (hfiles s s' hf hs), hle'⟩

variable (hcounter : ∀ s n, I s → I { s with lastEntryId := max s.lastEntryId n })
include hcounter

theorem preserves_restoreDirectory (listing : Listing) (idStr : String) :
    Preserves I (restoreDirectory cfg listing idStr) := by
  refine preserves_get_bind fun s => preserves_ite ?_ (preserves_pure _)
  intro s u t hs h
  obtain ⟨id, s', hid, hloop⟩ := bind_eq_ok.mp h
  obtain ⟨hstoul, rfl⟩ := fromExcept_eq_ok.mp hid
  rw [modify_bind] at hloop
  have hdir : directoryId cfg idStr = some (uint32 id) := by simp only [directoryId, hstoul]
  refine (preserves_forM (preserves_restoreFile cfg hfiles hinsert listing hdir) _ u t
    ⟨hcounter s' (uint32 id) hs, Nat.le_max_right _ _⟩ hloop).1

theorem preserves_restore (listing : Listing) : Preserves I (restore cfg listing) :=
  preserves_get_bind fun _ => preserves_ite
    (preserves_forM fun idStr => preserves_restoreDirectory cfg hfiles hinsert hcounter listing idStr)
    (preserves_pure _)

theorem invariant_started (hbare : ∀ disk, I (bare ⟨false⟩ disk)) {s : BmcDaemon} (h : Started cfg s) : I s := by
  obtain ⟨disk, listing, u, -, -, h⟩ := h
  exact preserves_restore cfg hfiles hinsert hcounter listing _ u s (hbare disk) h

end Preserves

theorem restoring_of_started {s : BmcDaemon} (h : Started cfg s) : Restoring cfg s := by
  refine invariant_started cfg ?_ ?_ ?_ (fun disk => ⟨idle_bare _ disk, fun k e he => ?_⟩) h
  · exact fun s t hf hs => ⟨idle_filesOnly hf hs.idle, fun k e he => hs.entries k e (by rwa [hf.entries] at he)⟩
  · exact fun s dir name id e hdir _ he _ hs => restoring_insert cfg hs hdir he
  · exact fun s n hs => ⟨idle_lastEntryId _ hs.idle, hs.entries⟩
  · have hnone : (bare ⟨false⟩ disk : BmcDaemon).entries[k]? = none := ExtTreeMap.getElem?_empty
    rw [hnone] at he
    cases he

theorem own_of_started {s : BmcDaemon} (h : Started cfg s) : s.own = ⟨false⟩ := by
  refine invariant_started cfg (I := fun s => s.own = ⟨false⟩) ?_ ?_ ?_ (fun _ => rfl) h
  · exact fun s t hf hs => hf.own.trans hs
  · exact fun _ _ _ _ _ _ _ _ _ hs => hs
  · exact fun _ _ hs => hs

end Restore

theorem sound : Sound (bmcOps cfg) fun file => namedId cfg.plat (filename file) :=
  ⟨createDump_outcome cfg, fun _ _ _ _ _ h => createEntry_filed h⟩

end DumpCollector.Bmc.Steps
