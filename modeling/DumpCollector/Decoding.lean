import DumpCollector.DumpNames
import DumpCollector.Bmc.Manager
import DumpCollector.System.Manager
import DumpCollector.Fdr.Manager
import DumpCollector.FaultLog.Manager

namespace DumpCollector.Decoding

open Std Lib.Directory Lib.Effects Entries FileNames DumpNames Requests State Bmc.Manager

variable {cfg : Config} {file : Path} {content : Content} {s : BmcDaemon}

theorem extension_tar_xz : Extension "tar.xz".toList :=
  ⟨["tar".toList, "xz".toList], nofun, by simp, rfl⟩

theorem extension_zst : Extension "zst".toList := ⟨["zst".toList], nofun, by simp, rfl⟩

theorem fileSize_eq {E X C : Type} {d : Daemon E X C} (h : d.disk.content file = some content) :
    fileSize file d = .ok content.size d := by
  unfold fileSize
  rw [get_bind, h]
  rfl

theorem fileSize_missing {E X C : Type} {d : Daemon E X C} (h : d.disk.content file = none) :
    fileSize file d = .error .filesystemError d := by
  unfold fileSize
  rw [get_bind, h]
  rfl

section Details

theorem extractDumpDetails_none (h : parseName cfg.plat (filename file) = .ok none) :
    extractDumpDetails cfg file s = .ok none s := by
  rw [extractDumpDetails, h]
  rfl

theorem extractDumpDetails_error {e : Exn} (h : parseName cfg.plat (filename file) = .error e) :
    extractDumpDetails cfg file s = .error e s := by
  rw [extractDumpDetails, h]
  rfl

theorem extractDumpDetails_some (hfile : s.disk.content file = some content) {id timestamp : Nat}
    (h : parseName cfg.plat (filename file) = .ok (some (id, timestamp))) :
    extractDumpDetails cfg file s = .ok (some (uint32 id, timestamp, content.size)) s := by
  rw [extractDumpDetails, h]
  exact bind_of_ok (fileSize_eq hfile) _

theorem extractDumpDetails_missing (hfile : s.disk.content file = none) {id timestamp : Nat}
    (h : parseName cfg.plat (filename file) = .ok (some (id, timestamp))) :
    extractDumpDetails cfg file s = .error .filesystemError s := by
  rw [extractDumpDetails, h]
  exact bind_of_error (fileSize_missing hfile) _

variable (cfg file content s)

/-- No exception, and a value only of a name that has the form as a whole: the numbers
that are written in it. -/
def ReadsExactly : Prop :=
  ∃ details, extractDumpDetails cfg file s = .ok details s ∧ ∀ id timestamp size,
    details = some (id, timestamp, size) → ∃ ids epochs, Documented (filename file).toList ids epochs ∧
      id = value ids ∧ timestamp = value epochs * 10 ^ 6 ∧ size = content.size

def Fits (plat : Platform) (ids epochs : List Char) : Prop :=
  value ids ≤ plat.ulongMax ∧ value ids < 2 ^ 32 ∧ value epochs * 10 ^ 6 < 2 ^ 64

variable {cfg file content s}

theorem parseName_documented {plat : Platform} {name : String} {ids epochs : List Char}
    (h : Documented name.toList ids epochs) (hfits : Fits plat ids epochs) :
    parseName plat name = .ok (some (value ids, value epochs * 10 ^ 6)) := by
  obtain ⟨hid, -, hepoch⟩ := hfits
  have hmul : value epochs * 1000 * 1000 = value epochs * 10 ^ 6 := by omega
  refine (parseName_found (regexSearch_documented h)).mpr ⟨by omega, hid, ?_⟩
  rw [hmul, uint64, Nat.mod_eq_of_lt hepoch]

/-- The search is not anchored and the numbers are not checked: the function keeps its
promise for the names without the pattern and for those that have the form as a whole,
with numbers in range. -/
theorem extractDumpDetails_iff (hfile : s.disk.content file = some content) :
    ReadsExactly cfg file content s ↔ ¬ Occurs (filename file).toList ∨
      ∃ ids epochs, Documented (filename file).toList ids epochs ∧ Fits cfg.plat ids epochs := by
  constructor
  · rintro ⟨details, hdetails, hread⟩
    cases hm : regexSearch (filename file).toList with
    | none => exact .inl (regexSearch_none hm)
    | some m =>
        obtain ⟨ids, epochs⟩ := m
        cases hparse : parseName cfg.plat (filename file) with
        | error e =>
            rw [extractDumpDetails_error hparse] at hdetails
            cases hdetails
        | ok found =>
            obtain ⟨-, hid, rfl⟩ := (parseName_found hm).mp hparse
            rw [extractDumpDetails_some hfile hparse] at hdetails
            cases hdetails
            obtain ⟨ids', epochs', hdoc, hid', hepoch', -⟩ := hread _ _ _ rfl
            rw [regexSearch_documented hdoc] at hm
            cases hm
            have hlow : uint32 (value ids) < 2 ^ 32 := Nat.mod_lt _ (by decide)
            have hword : uint64 (value epochs * 1000 * 1000) < 2 ^ 64 := Nat.mod_lt _ (by decide)
            exact .inr ⟨ids, epochs, hdoc, hid, by omega, by omega⟩
  · rintro (h | ⟨ids, epochs, hdoc, hfits⟩)
    · refine ⟨none, extractDumpDetails_none (parseName_absent h), fun _ _ _ hdetails => ?_⟩
      cases hdetails
    · have hparse := parseName_documented hdoc hfits
      refine ⟨_, extractDumpDetails_some hfile hparse, fun id timestamp size hdetails => ?_⟩
      cases hdetails
      exact ⟨ids, epochs, hdoc, uint32_eq hfits.2.1, rfl, rfl⟩

private def stored (name : String) : BmcDaemon :=
  bare ⟨false⟩ ((FileTree.root.mkdir [] "7").write ["7"] name ⟨10, none⟩)

theorem extractDumpDetails_stored :
    ReadsExactly defaultConfig ["7", "obmcdump_7_5.tar.xz"] ⟨10, none⟩ (stored "obmcdump_7_5.tar.xz") := by
  have hdoc : Documented "obmcdump_7_5.tar.xz".toList ['7'] ['5'] :=
    ⟨⟨nofun, by simp⟩, ⟨nofun, by simp⟩, _, extension_tar_xz, by decide⟩
  exact (extractDumpDetails_iff rfl).mpr (.inr ⟨_, _, hdoc, by decide, by decide, by decide⟩)

/-- A name of another form is accepted, and a time that does not fit is an exception. -/
theorem extractDumpDetails_unsound :
    ¬ ReadsExactly defaultConfig ["7", "core.obmcdump_7_5.tar"] ⟨10, none⟩ (stored "core.obmcdump_7_5.tar") ∧
      ¬ ReadsExactly defaultConfig ["7", "obmcdump_7_18446744073709551616.tar"] ⟨10, none⟩
        (stored "obmcdump_7_18446744073709551616.tar") := by
  constructor
  · rintro ⟨details, hdetails, hread⟩
    have hfound : extractDumpDetails defaultConfig ["7", "core.obmcdump_7_5.tar"] (stored "core.obmcdump_7_5.tar") =
        .ok (some (7, 5000000, 10)) (stored "core.obmcdump_7_5.tar") := rfl
    rw [hfound] at hdetails
    cases hdetails
    obtain ⟨ids, epochs, ⟨-, -, ext, -, h⟩, -⟩ := hread _ _ _ rfl
    cases h
  · rintro ⟨details, hdetails, -⟩
    have hthrown : extractDumpDetails defaultConfig ["7", "obmcdump_7_18446744073709551616.tar"]
        (stored "obmcdump_7_18446744073709551616.tar") =
          .error .outOfRange (stored "obmcdump_7_18446744073709551616.tar") := rfl
    rw [hthrown] at hdetails
    cases hdetails

end Details

section Archives

inductive Compression
  | xz
  | zstd

/-- The name that dreport gives to a dump when it is started without one. -/
def dumpName (dump_id EPOCHTIME : String) : String := "obmcdump_" ++ dump_id ++ "_" ++ EPOCHTIME

def archived (name : String) : Compression → String
  | .xz => name ++ ".tar.xz"
  | .zstd => name ++ ".zst"

theorem toList_append₅ (a b c d e : String) : (a ++ b ++ c ++ d ++ e).toList =
    a.toList ++ (b.toList ++ (c.toList ++ (d.toList ++ e.toList))) := by
  simp only [String.toList_append, List.append_assoc]

theorem documented_archived (zeros id t : Nat) (compression : Compression) :
    Documented (archived (dumpName (padded zeros id) (toString t)) compression).toList
      (padded zeros id).toList (toString t).toList := by
  have htime : Digits (toString t).toList := by
    obtain ⟨c, cs, htime, hdigits, -⟩ := digits_of_nat t
    rw [htime]
    exact ⟨by simp, hdigits⟩
  cases compression with
  | xz => exact ⟨digits_padded zeros id, htime, _, extension_tar_xz, toList_append₅ _ _ _ _ ".tar.xz"⟩
  | zstd => exact ⟨digits_padded zeros id, htime, _, extension_zst, toList_append₅ _ _ _ _ ".zst"⟩

theorem parseName_archived {plat : Platform} (hplat : 2 ^ 32 - 1 ≤ plat.ulongMax) {id t : Nat} (hid : id < 2 ^ 32)
    (ht : t * 10 ^ 6 < 2 ^ 64) (zeros : Nat) (compression : Compression) :
    parseName plat (archived (dumpName (padded zeros id) (toString t)) compression) =
      .ok (some (id, t * 10 ^ 6)) := by
  have htime : value (toString t).toList = t := by
    obtain ⟨c, cs, hcs, -, hvalue⟩ := digits_of_nat t
    rw [hcs]
    exact hvalue
  have hfits : Fits plat (padded zeros id).toList (toString t).toList := by
    rw [Fits, value_padded, htime]
    exact ⟨by omega, hid, ht⟩
  have h := parseName_documented (documented_archived zeros id t compression) hfits
  rwa [value_padded, htime] at h

def withDetails (e : BmcEntry) (timestamp size : Nat) : BmcEntry :=
  { e with
    base := { e.base with
      startTime := timestamp
      elapsed := timestamp
      completedTime := timestamp
      size := size
      status := .Completed } }

def updateFromFile (cfg : Config) (dumpPath : Path) (e : BmcEntry) : BmcOp BmcEntry := do
  let dumpDetails ← extractDumpDetails cfg dumpPath
  match dumpDetails with
  | none => throw (.logicError "Invalid dump file name format")
  | some (extractedId, extractedTimestamp, extractedSize) =>
      if e.base.id ≠ extractedId then throw (.logicError "Invalid dump id in filename")
      else pure (withDetails e extractedTimestamp extractedSize)

def unread (cfg : Config) (listing : Listing) (id : Nat) (file : Path) : BmcEntry :=
  { create id 0 0 (some file) .InProgress "" cfg.originators.Internal listing.entryProcessGroupID with
    progressTimer := none }

theorem updateFromFile_eq {id timestamp : Nat} (hfile : s.disk.content file = some content)
    (h : parseName cfg.plat (filename file) = .ok (some (id, timestamp))) (e : BmcEntry) :
    updateFromFile cfg file e s =
      if e.base.id ≠ uint32 id then .error (.logicError "Invalid dump id in filename") s
      else .ok (withDetails e timestamp content.size) s := by
  rw [updateFromFile, bind_of_ok (extractDumpDetails_some hfile h)]
  dsimp only
  split <;> rfl

theorem deserializeEntry_eq {listing : Listing} {id : Nat} : deserializeEntry cfg listing id file s =
    match updateFromFile cfg file (unread cfg listing id file) s with
    | .ok e t =>
        if listing.constructed file = true then (do let e ← deserialize file.dropLast e; pure (some e) : BmcOp _) t
        else .ok none t
    | .error _ t => .ok none t := by
  rw [deserializeEntry, get_bind]
  rcases hparse : parseName cfg.plat (filename file) with exn | _ | ⟨extractedId, timestamp⟩
  · have h : updateFromFile cfg file (unread cfg listing id file) s = .error exn s :=
      bind_of_error (extractDumpDetails_error hparse) _
    rw [h]
    rfl
  · have h : updateFromFile cfg file (unread cfg listing id file) s =
        .error (.logicError "Invalid dump file name format") s := bind_of_ok (extractDumpDetails_none hparse) _
    rw [h]
    rfl
  · rcases hcontent : s.disk.content file with _ | content
    · have h : updateFromFile cfg file (unread cfg listing id file) s = .error .filesystemError s :=
        bind_of_error (extractDumpDetails_missing hcontent hparse) _
      rw [h]
      rfl
    · have hid : (unread cfg listing id file).base.id = id := rfl
      rw [updateFromFile_eq hcontent hparse, hid]
      by_cases hne : id = uint32 extractedId
      · rw [if_neg (not_not.mpr hne)]
        by_cases hconstructed : listing.constructed file = true
        · simp only [hconstructed, hne, and_self, if_true]
          rfl
        · simp only [hconstructed, false_and, if_false, Bool.false_eq_true]
          rfl
      · rw [if_pos hne]
        simp only [hne, and_false, if_false]
        rfl

end Archives

section Copies

def systemFiled (io : System.Manager.FileEvent) (file : Path) (id timestamp : Nat) : System.Manager.SystemOp Unit := do
  let s ← get
  let size ← fileSize file
  match s.entries[id]? with
  | some (some e) => System.Manager.completeEntry io id timestamp size file e
  | _ =>
      System.Manager.insertConstructed id io.construction
        (System.Manager.create id timestamp size (some file) .Completed "" io.originatorType io.entryProcessGroupID)

def fdrFiled (io : Fdr.Manager.FileEvent) (file : Path) (id timestamp : Nat) : Fdr.Manager.FdrOp Unit := do
  let s ← get
  let size ← fileSize file
  match s.entries[id]? with
  | some (some e) =>
      modify fun s => { s with entries := s.entries.insert id (some (Fdr.Manager.update e timestamp size file)) }
  | some none => throw .nullDereference
  | none =>
      Fdr.Manager.insertConstructed id io.construction
        (Fdr.Manager.create id timestamp size (some file) .Completed "" io.originatorType)

def faultLogFiled (cfg : FaultLog.Manager.Config) (io : FaultLog.Manager.FileEvent) (file : Path)
    (id timestamp : Nat) : FaultLog.Manager.FaultLogOp Unit := do
  let s ← get
  match s.entries[id]? with
  | some (some e) => do
      let size ← fileSize file
      modify fun s => { s with
        entries := s.entries.insert id (some (FaultLog.Manager.update e timestamp size file
          (FaultLog.Manager.decodeFile io.decoded e.decode).1)) }
      FaultLog.Manager.throwLeft (FaultLog.Manager.decodeFile io.decoded e.decode).2
  | some none => throw .nullDereference
  | none => do
      FaultLog.Manager.throwLeft (FaultLog.Manager.decodeFile io.decoded FaultLog.Manager.notDecoded).2
      let size ← fileSize file
      FaultLog.Manager.insertConstructed id io.construction
        (FaultLog.Manager.create id timestamp cfg.CPER "CPER" "0" size (some file) .Completed
          (FaultLog.Manager.decodeFile io.decoded FaultLog.Manager.notDecoded).1 "" io.originatorType)

/-- All decoders read the name as this id and this time stamp, and an entry takes the file
exactly if it has the id. -/
structure DecodedAs (plat : Platform) (name : String) (id timestamp : Nat) : Prop where
  details : ∀ (cfg : Config) (file : Path) (content : Content) (s : BmcDaemon), cfg.plat = plat →
    filename file = name → s.disk.content file = some content →
      extractDumpDetails cfg file s = .ok (some (id, timestamp, content.size)) s
  updates : ∀ (cfg : Config) (file : Path) (content : Content) (s : BmcDaemon) (e : BmcEntry), cfg.plat = plat →
    filename file = name → s.disk.content file = some content →
      updateFromFile cfg file e s =
        if e.base.id = id then .ok (withDetails e timestamp content.size) s
        else .error (.logicError "Invalid dump id in filename") s
  system : ∀ (cfg : System.Manager.Config) (io : System.Manager.FileEvent) (file : Path)
    (s : System.Manager.SystemDaemon), cfg.plat = plat → filename file = name →
      System.Manager.createEntry cfg io file s = systemFiled io file id timestamp s
  fdr : ∀ (cfg : Fdr.Manager.Config) (io : Fdr.Manager.FileEvent) (file : Path) (s : Fdr.Manager.FdrDaemon),
    cfg.plat = plat → filename file = name →
      Fdr.Manager.createEntry cfg io file s = fdrFiled io file id timestamp s
  faultLog : ∀ (cfg : FaultLog.Manager.Config) (io : FaultLog.Manager.FileEvent) (file : Path)
    (s : FaultLog.Manager.FaultLogDaemon), cfg.plat = plat → filename file = name →
      FaultLog.Manager.createEntry cfg io file s = faultLogFiled cfg io file id timestamp s

theorem decodedAs_of_parseName {plat : Platform} {name : String} {id timestamp : Nat} (hid : id < 2 ^ 32)
    (h : parseName plat name = .ok (some (id, timestamp))) : DecodedAs plat name id timestamp where
  details cfg file content s hplat hname hfile := by
    rw [← hplat, ← hname] at h
    rw [extractDumpDetails_some hfile h, uint32_eq hid]
  updates cfg file content s e hplat hname hfile := by
    rw [← hplat, ← hname] at h
    rw [updateFromFile_eq hfile h, uint32_eq hid]
    exact ite_not _ _ _
  system cfg io file s hplat hname := by
    rw [System.Manager.createEntry, hplat, hname, h]
    change systemFiled io file (uint32 id) timestamp s = _
    rw [uint32_eq hid]
  fdr cfg io file s hplat hname := by
    rw [Fdr.Manager.createEntry, hplat, hname, h]
    change fdrFiled io file (uint32 id) timestamp s = _
    rw [uint32_eq hid]
  faultLog cfg io file s hplat hname := by
    rw [FaultLog.Manager.createEntry, hplat, hname, h]
    change faultLogFiled cfg io file (uint32 id) timestamp s = _
    rw [uint32_eq hid]

/-- The names that dreport gives to its archives are decoded to the id and the time they
were made from, however many zeros the id was padded with. -/
theorem archived_decodedAs {plat : Platform} (hplat : 2 ^ 32 - 1 ≤ plat.ulongMax) {id t : Nat} (hid : id < 2 ^ 32)
    (ht : t * 10 ^ 6 < 2 ^ 64) (zeros : Nat) (compression : Compression) :
    DecodedAs plat (archived (dumpName (padded zeros id) (toString t)) compression) id (t * 10 ^ 6) :=
  decodedAs_of_parseName hid (parseName_archived hplat hid ht zeros compression)

example : archived (dumpName (padded 7 1) (toString 1700000000)) .xz = "obmcdump_00000001_1700000000.tar.xz" := rfl

theorem archived_decodedAs_padded :
    DecodedAs .bits32 (archived (dumpName (padded 7 1) (toString 1700000000)) .xz) 1 (1700000000 * 10 ^ 6) :=
  archived_decodedAs (by decide) (by decide) (by decide) 7 .xz

end Copies

end DumpCollector.Decoding
