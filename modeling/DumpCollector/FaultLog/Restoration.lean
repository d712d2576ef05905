import DumpCollector.Counter
import DumpCollector.FaultLog.Documents

namespace DumpCollector.FaultLog.Restoration

open Std Lib.Directory Lib.Effects Lib.Maps Entries FileNames JsonText Requests State Dispatch Frames
open DumpCollector.Restore Counter FaultLog.Manager FaultLog.Steps Decoders Documents

variable (cfg : Config) (listing : Listing) (disk : FileTree Content)

structure Listed (d name : String) : Prop where
  dir : d ∈ listing.names []
  numbered : Numbered disk d
  listed : name ∈ listing.names [d]
  file : (disk.content [d, name]).isSome = true

def RestoresAll : Prop :=
  ∃ t, restore cfg listing (bare ⟨0⟩ disk) = .ok () t ∧
    ∀ d name n, Listed listing disk d name → namedId cfg.plat name = some n → ∃ e, t.entries[n]? = some (some e)

/-- The numbers in the names can be read, and the documents of the dumps have no member of a
wrong type. -/
structure Restorable : Prop where
  numbers : ∀ d ∈ listing.names [], Numbered disk d → number d ≤ cfg.plat.ulongMax
  names : ∀ d name, Listed listing disk d name → ∃ details, parseName cfg.plat name = .ok details
  documents : ∀ d name n, Listed listing disk d name → namedId cfg.plat name = some n →
    Readable (listing.events [d, name]).decoded

/-- No entry is missing its object, and the files are those that the restore began with. -/
structure Restoring (s : FaultLogDaemon) : Prop where
  disk : s.disk = disk
  slots : ∀ n : Nat, s.entries[n]? ≠ some none

structure Restored (d name : String) (s : FaultLogDaemon) : Prop where
  named : ∃ details, parseName cfg.plat name = .ok details
  readable : ∀ n, namedId cfg.plat name = some n → Readable (listing.events [d, name]).decoded
  entry : ∀ n, namedId cfg.plat name = some n → (listing.events [d, name]).construction = .done →
    ∃ e, s.entries[n]? = some (some e)

variable {cfg listing disk} {d name : String} {s t : FaultLogDaemon}

section Files

theorem preserves_entry (io : FileEvent) (file : Path) (n : Nat) :
    Preserves (fun s : FaultLogDaemon => ∃ e, s.entries[n]? = some (some e)) (createEntry cfg io file) := by
  rintro s u t ⟨e, he⟩ h
  rcases (createEntry_filed h).entries with ⟨hsame, -⟩ | ⟨m, e', -, hinsert, -⟩
  · exact ⟨e, hsame ▸ he⟩
  · rw [hinsert]
    by_cases hm : m = n
    · exact ⟨e', by rw [insert_get, if_pos hm]⟩
    · exact ⟨e, by rw [insert_get, if_neg hm, he]⟩

theorem preserves_restoring (io : FileEvent) (file : Path) : Preserves (Restoring disk) (createEntry cfg io file) := by
  intro s u t hs h
  refine ⟨((sameDisk_faultLog cfg io file).ok h).trans hs.disk, fun n hn => ?_⟩
  rcases (createEntry_filed h).entries with ⟨hsame, -⟩ | ⟨m, e', -, hinsert, -⟩
  · exact hs.slots n (hsame ▸ hn)
  · rw [hinsert, insert_get] at hn
    split at hn
    · cases hn
    · exact hs.slots n hn

theorem preserves_restored (io : FileEvent) (file : Path) :
    Preserves (Restored cfg listing d name) (createEntry cfg io file) :=
  fun s u t hs h => ⟨hs.named, hs.readable, fun n hn hdone => preserves_entry io file n s u t (hs.entry n hn hdone) h⟩

theorem preserves_restoreFile {P : FaultLogDaemon → Prop} (hP : ∀ io file, Preserves P (createEntry cfg io file))
    (file : Path) : Preserves P (restoreFile cfg listing file) :=
  preserves_get_bind fun _ => preserves_ite (hP _ _) (preserves_pure _)

theorem restored_of_createEntry {u : Unit} (hs : Restoring disk s) (hfile : (disk.content [d, name]).isSome = true)
    (h : createEntry cfg (listing.events [d, name]) [d, name] s = .ok u t) : Restored cfg listing d name t := by
  cases hparse : parseName cfg.plat name with
  | error exn =>
      have hname : parseName cfg.plat (filename [d, name]) = .error exn := hparse
      rw [createEntry_refused hname] at h
      cases h
  | ok details =>
      refine ⟨⟨details, hparse⟩, fun n hn => ?_, fun n hn hdone => ?_⟩
      · obtain ⟨id, timestamp, hfound, -⟩ := namedId_eq_some.mp hn
        have hname : parseName cfg.plat (filename [d, name]) = .ok (some (id, timestamp)) := hfound
        exact readable_of_createEntry hname h
      · obtain ⟨id, timestamp, hfound, rfl⟩ := namedId_eq_some.mp hn
        have hname : parseName cfg.plat (filename [d, name]) = .ok (some (id, timestamp)) := hfound
        obtain ⟨content, hcontent⟩ := Option.isSome_iff_exists.mp hfile
        have hcontent' : s.disk.content [d, name] = some content := by rw [hs.disk, hcontent]
        obtain ⟨e, hrun, -, -⟩ :=
          createEntry_of_readable hname (readable_of_createEntry hname h) hcontent' (hs.slots _) hdone
        rw [h] at hrun
        cases hrun
        exact ⟨e, by rw [insert_get, if_pos rfl]⟩

theorem leads_restoreFile (hfile : (disk.content [d, name]).isSome = true) :
    Leads (Restoring disk) (Restored cfg listing d name) (restoreFile cfg listing [d, name]) := by
  intro s u t hs h
  rw [restoreFile, get_bind, hs.disk, if_pos hfile] at h
  exact restored_of_createEntry hs hfile h

theorem returns_createEntry {content : Content} (hfile : disk.content [d, name] = some content)
    (hname : ∃ details, parseName cfg.plat name = .ok details)
    (hdump : ∀ n, namedId cfg.plat name = some n →
      Readable (listing.events [d, name]).decoded ∧ (listing.events [d, name]).construction = .done) :
    Returns (Restoring disk) (Restoring disk) (createEntry cfg (listing.events [d, name]) [d, name]) := by
  intro s hs
  obtain ⟨_ | ⟨id, timestamp⟩, hparse⟩ := hname
  · exact ⟨(), s, createEntry_unnamed hparse, hs⟩
  · obtain ⟨hreadable, hdone⟩ := hdump _ (namedId_of_parseName hparse)
    have hcontent : s.disk.content [d, name] = some content := by rw [hs.disk, hfile]
    have hfound : parseName cfg.plat (filename [d, name]) = .ok (some (id, timestamp)) := hparse
    obtain ⟨e, hrun, -, -⟩ := createEntry_of_readable hfound hreadable hcontent (hs.slots _) hdone
    exact ⟨(), _, hrun, preserves_restoring _ _ s () _ hs hrun⟩

end Files

section Directories

def restoreNumbered (cfg : Config) (listing : Listing) (d : String) : FaultLogOp Unit :=
  forM (listing.names [d]) fun name => restoreFile cfg listing [d, name]

theorem restore_eq_visit :
    restore cfg listing = visit cfg.plat (fun _ => restoreNumbered cfg listing) (listing.names []) := rfl

theorem Restoring.numbered (hs : Restoring disk s) (d : String) : Numbered s.disk d ↔ Numbered disk d := by
  rw [hs.disk]

theorem preserves_restoreNumbered {P : FaultLogDaemon → Prop} (hP : ∀ io file, Preserves P (createEntry cfg io file))
    (d : String) : Preserves P (restoreNumbered cfg listing d) :=
  preserves_forM fun _ => preserves_restoreFile hP _

theorem restoring_bare (disk : FileTree Content) : Restoring disk (bare ⟨0⟩ disk) :=
  ⟨rfl, fun n hn => by cases hn⟩

theorem restored_of_restore (h : restore cfg listing (bare ⟨0⟩ disk) = .ok () t) (hl : Listed listing disk d name) :
    Restored cfg listing d name t := by
  rw [restore_eq_visit] at h
  refine leads_visit (J := Restoring disk) (fun _ _ hs => ⟨hs.disk, hs.slots⟩)
    (fun _ _ hs => ⟨hs.named, hs.readable, hs.entry⟩)
    (fun d _ _ _ => preserves_restoreNumbered preserves_restoring d)
    (fun d _ _ _ => preserves_restoreNumbered preserves_restored d) hl.dir (fun s hs => (hs.numbered d).mpr hl.numbered)
    (fun s hs => hs.disk ▸ numbered_root hl.numbered) (fun id _ => ?_) _ () t (restoring_bare disk) h
  intro s u t hs h
  exact leads_forM (k := fun name => restoreFile cfg listing [d, name]) hl.listed
    (fun _ _ => preserves_restoreFile preserves_restoring _)
    (fun _ _ => preserves_restoreFile preserves_restored _) (leads_restoreFile hl.file) s u t hs.1 h

theorem returns_restore (h : Restorable cfg listing disk)
    (hdone : ∀ d name n, Listed listing disk d name → namedId cfg.plat name = some n →
      (listing.events [d, name]).construction = .done) :
    ∃ t, restore cfg listing (bare ⟨0⟩ disk) = .ok () t := by
  cases hroot : disk.isDirectory [] with
  | false =>
      have hno : ¬ (bare ⟨0⟩ disk : FaultLogDaemon).disk.isDirectory [] = true := by
        change ¬ disk.isDirectory [] = true
        rw [hroot]
        decide
      exact ⟨_, by rw [restore, get_bind, if_neg hno]; rfl⟩
  | true =>
      have hstoul : ∀ d ∈ listing.names [], Numbered disk d → ∃ id, stoul cfg.plat d.toList = .ok id :=
        fun d hd hnum => ⟨number d, stoul_eq_ok.mpr ⟨rfl, h.numbers d hd hnum⟩⟩
      have hbody : ∀ d ∈ listing.names [], Numbered disk d → ∀ _ : Nat,
          Returns (Restoring disk) (Restoring disk) (restoreNumbered cfg listing d) := by
        intro d hd hnum _
        refine returns_forM fun name hname s hs => ?_
        rw [restoreFile, get_bind, hs.disk]
        split
        · rename_i hfile
          have hl : Listed listing disk d name := ⟨hd, hnum, hname, hfile⟩
          obtain ⟨content, hcontent⟩ := Option.isSome_iff_exists.mp hfile
          exact returns_createEntry hcontent (h.names d name hl)
            (fun n hn => ⟨h.documents d name n hl hn, hdone d name n hl hn⟩) s hs
        · exact ⟨(), s, rfl, hs⟩
      obtain ⟨u, t, hrun, -⟩ := returns_visit (fun s hs => hs.numbered) (fun _ _ hs => ⟨hs.disk, hs.slots⟩)
        (fun s hs => hs.disk ▸ hroot) hstoul hbody _ (restoring_bare disk)
      exact ⟨t, hrun⟩

theorem restore_iff (hdone : ∀ d name n, Listed listing disk d name → namedId cfg.plat name = some n →
      (listing.events [d, name]).construction = .done) :
    RestoresAll cfg listing disk ↔ Restorable cfg listing disk := by
  constructor
  · rintro ⟨t, h, -⟩
    refine ⟨fun d hd hnum => ?_, fun d name hl => (restored_of_restore h hl).named,
      fun d name n hl => (restored_of_restore h hl).readable n⟩
    obtain ⟨id, hid⟩ := stoul_of_visit (J := Restoring disk) (fun s hs => hs.numbered)
      (fun _ _ hs => ⟨hs.disk, hs.slots⟩) (fun s hs => hs.disk ▸ numbered_root hnum)
      (fun d _ _ => preserves_restoreNumbered preserves_restoring d) (restoring_bare disk) h hd hnum
    exact (stoul_eq_ok.mp hid).2
  · intro h
    obtain ⟨t, hrun⟩ := returns_restore h hdone
    exact ⟨t, hrun, fun d name n hl hn => (restored_of_restore hrun hl).entry n hn (hdone d name n hl hn)⟩

end Directories

/-- The restore, the handling of one file and an update return and do what they are for, if
and only if no member of a document that they reach has a wrong type, as far as the names
can be read and the files are there. -/
theorem decoding_returns_iff (cfg : Config) :
    (∀ listing disk, (∀ d name n, Listed listing disk d name → namedId cfg.plat name = some n →
        (listing.events [d, name]).construction = .done) →
      (RestoresAll cfg listing disk ↔ Restorable cfg listing disk)) ∧
    (∀ io file s id timestamp, parseName cfg.plat (filename file) = .ok (some (id, timestamp)) →
      io.construction = .done →
      ((∃ t e, createEntry cfg io file s = .ok () t ∧ t.entries[uint32 id]? = some (some e) ∧ e.file = some file ∧
        Takes io.decoded e) ↔
      (s.disk.content file).isSome = true ∧ s.entries[uint32 id]? ≠ some none ∧ Readable io.decoded)) ∧
    (∀ timeStamp fileSize filePath decoded e,
      (∃ e', updateEntry timeStamp fileSize filePath decoded e = .ok () e' ∧ Takes decoded e') ↔ Readable decoded) :=
  ⟨fun _ _ hdone => restore_iff hdone, fun _ _ _ _ _ hname hdone => createEntry_iff hname hdone, updateEntry_iff⟩

section Dumps

private def storedArchives : FileTree Content :=
  (((FileTree.root.mkdir [] "1").write ["1"] "obmcdump_1_1.tar" ⟨10, none⟩).mkdir [] "2").write ["2"]
    "obmcdump_2_2.tar" ⟨10, none⟩

private def storedDumps (notificationType : Json) : Listing where
  names := storedArchives.children
  events
    | ["1", _] => ⟨true, .done, some (some (cper notificationType)), 0⟩
    | _ => ⟨true, .done, none, 0⟩

/-- A number for the type of the notification keeps all dumps from being restored, and an
update from being finished. -/
theorem number_stops_restore :
    (∃ t, restore defaultConfig (storedDumps (.integer 5)) (bare ⟨0⟩ storedArchives) = .error .jsonTypeError t ∧
      t.entries.isEmpty = true) ∧
    (∃ e', updateEntry 1 10 ["1", "obmcdump_1_1.tar"] (some (some (cper (.integer 5)))) (undecoded 1) =
      .error .jsonTypeError e' ∧ e'.decode .sectionType = "NA") := by
  refine ⟨?_, _, rfl, rfl⟩
  have h : (match restore defaultConfig (storedDumps (.integer 5)) (bare ⟨0⟩ storedArchives) with
      | .error .jsonTypeError t => t.entries.isEmpty
      | _ => false) = true := by decide +kernel
  split at h
  · rename_i t ht
    exact ⟨t, ht, h⟩
  · cases h

private theorem listed_storedDumps {notificationType : Json} {d name : String}
    (hl : Listed (storedDumps notificationType) storedArchives d name) :
    name = "obmcdump_1_1.tar" ∨ name = "obmcdump_2_2.tar" := by
  have hd := hl.dir
  have hname := hl.listed
  have hroot : storedArchives.children [] = ["1", "2"] := by decide +kernel
  have hfirst : storedArchives.children ["1"] = ["obmcdump_1_1.tar"] := by decide +kernel
  have hsecond : storedArchives.children ["2"] = ["obmcdump_2_2.tar"] := by decide +kernel
  simp only [storedDumps, hroot, List.mem_cons, List.not_mem_nil, or_false] at hd
  rcases hd with rfl | rfl
  · simp only [storedDumps, hfirst, List.mem_singleton] at hname
    exact .inl hname
  · simp only [storedDumps, hsecond, List.mem_singleton] at hname
    exact .inr hname

theorem decoding_returns_storedDumps : RestoresAll defaultConfig (storedDumps (.string "CMC")) storedArchives := by
  refine ((decoding_returns_iff defaultConfig).1 _ _ fun d name n hl hn => ?_).mpr ⟨?_, ?_, ?_⟩
  · simp only [storedDumps]
    split <;> rfl
  · have hroot : storedArchives.children [] = ["1", "2"] := by decide +kernel
    simp only [storedDumps, hroot]
    intro d hd _
    simp only [List.mem_cons, List.not_mem_nil, or_false] at hd
    rcases hd with rfl | rfl <;> decide
  · intro d name hl
    rcases listed_storedDumps hl with rfl | rfl
    · exact ⟨some (1, 1000000), by decide⟩
    · exact ⟨some (2, 2000000), by decide⟩
  · intro d name n _ _
    simp only [storedDumps]
    split
    · exact (decodeFile_none_iff notDecoded).mp (by decide)
    · exact nofun

end Dumps

end DumpCollector.FaultLog.Restoration
