import DumpCollector.Restore
import DumpCollector.Bmc.Steps

namespace DumpCollector.Bmc.Restore

open Std Lib.Directory Lib.Effects Lib.Maps Entries FileNames JsonText Requests State Frames Slots Bmc.Manager Bmc.Steps
  DumpCollector.Restore

variable (cfg : Config) (listing : Listing)

section File

def fromFile (id : Nat) (file : Path) (timestamp size : Nat) : BmcEntry :=
  let e := create id 0 0 (some file) .InProgress "" cfg.originators.Internal listing.entryProcessGroupID
  { e with
    progressTimer := none
    base := { e.base with
      startTime := timestamp
      elapsed := timestamp
      completedTime := timestamp
      size := size
      status := .Completed } }

def loaded (dumpPath : Path) (e : BmcEntry) (s : BmcDaemon) : BmcEntry × BmcDaemon :=
  match s.disk.content (dumpPath ++ [PRESERVE, SERIAL_FILE]) with
  | some ⟨_, some j⟩ => deserializeDocument j (dumpPath ++ [PRESERVE]) e s
  | _ => (e, s)

/-- The files that restore makes an entry of, if it can be constructed. -/
def Reads (plat : Platform) (disk : FileTree Content) (id : Nat) (d name : String) : Prop :=
  name ≠ PRESERVE ∧ (disk.content [d, name]).isSome = true ∧ namedId plat name = some (uint32 id)

def inserted (r : BmcEntry × BmcDaemon) : BmcDaemon :=
  { r.2 with entries := r.2.entries.insertIfNew r.1.base.id (some r.1) }

variable {cfg listing} {s : BmcDaemon} {id : Nat} {d name : String}

theorem deserialize_eq (dumpPath : Path) (e : BmcEntry) (s : BmcDaemon) :
    deserialize dumpPath e s = .ok (loaded dumpPath e s).1 (loaded dumpPath e s).2 := by
  rw [deserialize, loaded, get_bind]
  rcases s.disk.content (dumpPath ++ [PRESERVE, SERIAL_FILE]) with _ | ⟨size, _ | j⟩ <;> rfl

theorem restoreFile_preserve (id : Nat) (d : String) : restoreFile cfg listing id [d, PRESERVE] s = .ok () s := rfl

theorem restoreFile_eq (hname : name ≠ PRESERVE) : restoreFile cfg listing id [d, name] s =
    (deserializeEntry cfg listing (uint32 id) [d, name] >>= fun entry => match entry with
      | some e => insertEntry e.base.id e
      | none => pure ()) s := by
  have hfile : filename [d, name] ≠ PRESERVE := hname
  exact congrFun (if_neg hfile) s

theorem deserializeEntry_reads {extractedId timestamp : Nat} {content : Content}
    (hparse : parseName cfg.plat name = .ok (some (extractedId, timestamp)))
    (hcontent : s.disk.content [d, name] = some content)
    (h : listing.constructed [d, name] = true ∧ uint32 id = uint32 extractedId) :
    deserializeEntry cfg listing (uint32 id) [d, name] s =
      .ok (some (loaded [d] (fromFile cfg listing (uint32 id) [d, name] timestamp content.size) s).1)
        (loaded [d] (fromFile cfg listing (uint32 id) [d, name] timestamp content.size) s).2 := by
  have hfile : filename [d, name] = name := rfl
  rw [deserializeEntry, get_bind, hfile, hparse, hcontent]
  dsimp only
  rw [if_pos h]
  exact bind_of_ok (deserialize_eq _ _ _) _

theorem deserializeEntry_skips
    (h : ∀ extractedId timestamp, parseName cfg.plat name = .ok (some (extractedId, timestamp)) →
      (s.disk.content [d, name]).isSome = true → listing.constructed [d, name] = true →
        uint32 id ≠ uint32 extractedId) :
    deserializeEntry cfg listing (uint32 id) [d, name] s = .ok none s := by
  have hfile : filename [d, name] = name := rfl
  rw [deserializeEntry, get_bind, hfile]
  rcases hparse : parseName cfg.plat name with exn | _ | ⟨extractedId, timestamp⟩
  · rfl
  · rfl
  · rcases hcontent : s.disk.content [d, name] with _ | content
    · rfl
    · dsimp only
      rw [if_neg fun hc => h _ _ hparse (hcontent ▸ rfl) hc.1 hc.2]
      rfl

theorem restoreFile_reads {extractedId timestamp : Nat} {content : Content} (hname : name ≠ PRESERVE)
    (hparse : parseName cfg.plat name = .ok (some (extractedId, timestamp)))
    (hcontent : s.disk.content [d, name] = some content)
    (h : listing.constructed [d, name] = true ∧ uint32 id = uint32 extractedId) :
    restoreFile cfg listing id [d, name] s =
      .ok () (inserted (loaded [d] (fromFile cfg listing (uint32 id) [d, name] timestamp content.size) s)) := by
  rw [restoreFile_eq hname, bind_of_ok (deserializeEntry_reads hparse hcontent h)]
  rfl

theorem restoreFile_skips (h : ¬ (Reads cfg.plat s.disk id d name ∧ listing.constructed [d, name] = true)) :
    restoreFile cfg listing id [d, name] s = .ok () s := by
  by_cases hname : name = PRESERVE
  · rw [hname, restoreFile_preserve]
  · rw [restoreFile_eq hname, bind_of_ok (deserializeEntry_skips fun extractedId timestamp hparse hfile hc hid => ?_)]
    · rfl
    · exact h ⟨⟨hname, hfile, hid ▸ namedId_of_parseName hparse⟩, hc⟩

theorem loaded_cases (dumpPath : Path) (e : BmcEntry) (s : BmcDaemon) :
    (loaded dumpPath e s).1.base.id = e.base.id ∧
      ((loaded dumpPath e s).2 = s ∨ (loaded dumpPath e s).2 = s.removeAll (dumpPath ++ [PRESERVE])) := by
  have hfrom (j : Json) : (deserializeFrom j e).base.id = e.base.id := by
    rw [deserializeFrom]
    split
    · rfl
    · split
      · rfl
      · split <;> rfl
  rw [loaded]
  rcases s.disk.content (dumpPath ++ [PRESERVE, SERIAL_FILE]) with _ | ⟨size, _ | j⟩
  · exact ⟨rfl, .inl rfl⟩
  · exact ⟨rfl, .inl rfl⟩
  · dsimp only
    rw [deserializeDocument]
    split
    · exact ⟨rfl, .inl rfl⟩
    · split
      · split
        · exact ⟨rfl, .inl rfl⟩
        · split
          · exact ⟨hfrom j, .inl rfl⟩
          · exact ⟨rfl, .inr rfl⟩
      · exact ⟨rfl, .inl rfl⟩

end File

section Keys

def Unspoiled (disk : FileTree Content) (s : BmcDaemon) : Prop :=
  ∀ p : Path, (∀ d, ¬ [d, PRESERVE] <+: p) → s.disk.nodes[p]? = disk.nodes[p]?

variable {cfg listing} {disk : FileTree Content} {s t : BmcDaemon} {id : Nat} {d name : String}

theorem unspoiled_removeAll (hs : Unspoiled disk s) (d : String) : Unspoiled disk (s.removeAll [d, PRESERVE]) := by
  intro p hp
  exact (removeAll_nodes s (hp d)).trans (hs p hp)

theorem Unspoiled.root (hs : Unspoiled disk s) : s.disk.isDirectory [] = disk.isDirectory [] := by
  rw [FileTree.isDirectory, FileTree.isDirectory, hs []]
  simp

theorem Unspoiled.numbered (hs : Unspoiled disk s) (d : String) : Numbered s.disk d ↔ Numbered disk d := by
  rw [Numbered, Numbered, FileTree.isDirectory, FileTree.isDirectory, hs [d]]
  rintro d' ⟨rest, h⟩
  simp at h

theorem Unspoiled.content (hs : Unspoiled disk s) (d : String) (hname : name ≠ PRESERVE) :
    s.disk.content [d, name] = disk.content [d, name] := by
  rw [FileTree.content, FileTree.content, hs [d, name]]
  rintro d' ⟨rest, h⟩
  simp only [List.cons_append, List.nil_append, List.cons.injEq] at h
  exact hname h.2.1.symm

theorem Unspoiled.reads (hs : Unspoiled disk s) : Reads cfg.plat s.disk id d name ↔ Reads cfg.plat disk id d name := by
  rw [Reads, Reads]
  refine and_congr_right fun hname => ?_
  rw [hs.content d hname]

theorem unspoiled_loaded (hs : Unspoiled disk s) (d : String) (e : BmcEntry) : Unspoiled disk (loaded [d] e s).2 := by
  rcases (loaded_cases [d] e s).2 with h | h
  · rwa [h]
  · rw [h]
    exact unspoiled_removeAll hs d

theorem loaded_filesOnly (d : String) (e : BmcEntry) : FilesOnly s (loaded [d] e s).2 := by
  rcases (loaded_cases [d] e s).2 with h | h
  · rw [h]
    exact filesOnly_rfl s
  · rw [h]
    exact filesOnly_removeAll s _

variable (cfg listing) in
theorem restoreFile_round (hs : Unspoiled disk s) (id : Nat) (d name : String) :
    ∃ t, restoreFile cfg listing id [d, name] s = .ok () t ∧ Unspoiled disk t ∧ t.lastEntryId = s.lastEntryId ∧
      ∀ k, k ∈ t.entries ↔ k ∈ s.entries ∨
        (uint32 id = k ∧ Reads cfg.plat disk id d name ∧ listing.constructed [d, name] = true) := by
  by_cases h : Reads cfg.plat disk id d name ∧ listing.constructed [d, name] = true
  · obtain ⟨⟨hname, hfile, hnamed⟩, hconstructed⟩ := h
    obtain ⟨extractedId, timestamp, hparse, hid⟩ := namedId_eq_some.mp hnamed
    rw [← hs.content d hname] at hfile
    obtain ⟨content, hcontent⟩ := Option.isSome_iff_exists.mp hfile
    refine ⟨_, restoreFile_reads hname hparse hcontent ⟨hconstructed, hid.symm⟩, unspoiled_loaded hs d _,
      (loaded_filesOnly d _).lastEntryId, fun k => ?_⟩
    rw [inserted, (loaded_cases _ _ _).1, (loaded_filesOnly d _).entries, ExtTreeMap.mem_insertIfNew,
      LawfulEqCmp.compare_eq_iff_eq, or_comm]
    refine or_congr_right (and_iff_left ⟨⟨hname, ?_, hnamed⟩, hconstructed⟩).symm
    rwa [← hs.content d hname]
  · rw [← hs.reads] at h
    refine ⟨s, restoreFile_skips h, hs, rfl, fun k => (or_iff_left fun hk => ?_).symm⟩
    exact h ⟨hs.reads.mpr hk.2.1, hk.2.2⟩

end Keys

section Numbers

def restoreNumbered (cfg : Config) (listing : Listing) (id : Nat) (d : String) : BmcOp Unit :=
  forM (listing.names [d]) fun name => restoreFile cfg listing id [d, name]

theorem restore_eq_visit (cfg : Config) (listing : Listing) :
    restore cfg listing = visit cfg.plat (restoreNumbered cfg listing) (listing.names []) := rfl

def Yields (plat : Platform) (disk : FileTree Content) (d : String) (k : Nat) : Prop :=
  Numbered disk d ∧ number d ≤ plat.ulongMax ∧ uint32 (number d) = k ∧ ∃ name, Reads plat disk (number d) d name

/-- Of the files that restore makes an entry of in a directory, one can be constructed: a
second object of the same path may be refused, the first one not. -/
def Constructs (plat : Platform) (listing : Listing) (disk : FileTree Content) : Prop :=
  ∀ d name, Reads plat disk (number d) d name →
    ∃ name, Reads plat disk (number d) d name ∧ listing.constructed [d, name] = true

def MadeIn (cfg : Config) (listing : Listing) (disk : FileTree Content) (id : Nat) (d : String) (k : Nat) : Prop :=
  ∃ name ∈ listing.names [d], uint32 id = k ∧ Reads cfg.plat disk id d name ∧ listing.constructed [d, name] = true

variable {cfg listing} {disk : FileTree Content} {s t : BmcDaemon} {u : Unit} {d : String}

theorem adds_restoreNumbered (id : Nat) (d : String) :
    Adds (Unspoiled disk) (MadeIn cfg listing disk id d) (restoreNumbered cfg listing id d) := by
  refine adds_forM (m := fun name => restoreFile cfg listing id [d, name]) fun name _ s u t hs h => ?_
  obtain ⟨t', ht, hunspoiled, -, hkeys⟩ := restoreFile_round cfg listing hs id d name
  rw [ht] at h
  cases h
  exact ⟨hunspoiled, hkeys⟩

theorem returns_restoreNumbered (id : Nat) (d : String) (n : Nat) :
    Returns (fun s => Unspoiled disk s ∧ s.lastEntryId = n) (fun s => Unspoiled disk s ∧ s.lastEntryId = n)
      (restoreNumbered cfg listing id d) := by
  refine returns_forM fun name _ s hs => ?_
  obtain ⟨t, ht, hunspoiled, hid, -⟩ := restoreFile_round cfg listing hs.1 id d name
  exact ⟨(), t, ht, hunspoiled, hid.trans hs.2⟩

theorem restoreNumbered_ok (hs : Unspoiled disk s) {id : Nat} (h : restoreNumbered cfg listing id d s = .ok u t) :
    Unspoiled disk t ∧ t.lastEntryId = s.lastEntryId := by
  obtain ⟨u', t', ht, hkept⟩ := returns_restoreNumbered id d s.lastEntryId s ⟨hs, rfl⟩
  rw [ht] at h
  cases h
  exact hkept

theorem unspoiled_bare (disk : FileTree Content) : Unspoiled disk (bare ⟨false⟩ disk) := fun _ _ => rfl

theorem restore_noRoot (hroot : disk.isDirectory [] = false) :
    restore cfg listing (bare ⟨false⟩ disk) = .ok () (bare ⟨false⟩ disk) := by
  have hdir : (bare ⟨false⟩ disk : BmcDaemon).disk.isDirectory [] = false := hroot
  simp only [restore, get_bind, hdir, Bool.false_eq_true, if_false, pure_apply]

theorem adds_restore (hroot : disk.isDirectory [] = true) :
    Adds (Unspoiled disk) (fun k => ∃ d ∈ listing.names [], Numbered disk d ∧
      ∃ id, stoul cfg.plat d.toList = .ok id ∧ MadeIn cfg listing disk id d k) (restore cfg listing) :=
  adds_visit (f := MadeIn cfg listing disk) (fun _ hs => hs.numbered) (fun _ _ hs => hs)
    (fun _ hs => hs.root.trans hroot) fun d _ id => adds_restoreNumbered id d

variable (hlist : ∀ p, (listing.names p).Perm (disk.children p))
include hlist

variable (hbus : Constructs cfg.plat listing disk)
include hbus

theorem yields_iff (k : Nat) : Yields cfg.plat disk d k ↔
    Numbered disk d ∧ ∃ id, stoul cfg.plat d.toList = .ok id ∧ MadeIn cfg listing disk id d k := by
  constructor
  · rintro ⟨hnum, hle, hk, name, hreads⟩
    obtain ⟨name, hreads, hconstructed⟩ := hbus d name hreads
    exact ⟨hnum, number d, stoul_eq_ok.mpr ⟨rfl, hle⟩, name, mem_names_of_content hlist hreads.2.1, hk, hreads,
      hconstructed⟩
  · rintro ⟨hnum, id, hid, name, -, hk, hreads, -⟩
    obtain ⟨rfl, hle⟩ := stoul_eq_ok.mp hid
    exact ⟨hnum, hle, hk, name, hreads⟩

def Gives (cfg : Config) (listing : Listing) (disk : FileTree Content) (d : String) (k : Nat) : Prop :=
  ∃ u t, restoreDirectory cfg listing d (bare ⟨false⟩ disk) = .ok u t ∧ k ∈ t.entries

theorem gives_iff (k : Nat) : Gives cfg listing disk d k ↔ Yields cfg.plat disk d k := by
  have hadds : Adds (Unspoiled disk)
      (fun k => Numbered disk d ∧ ∃ id, stoul cfg.plat d.toList = .ok id ∧ MadeIn cfg listing disk id d k)
      (restoreDirectory cfg listing d) :=
    adds_visitDirectory (f := MadeIn cfg listing disk) (fun _ hs => hs.numbered) (fun _ _ hs => hs) d
      fun id => adds_restoreNumbered id d
  have hkeys {u : Unit} {t : BmcDaemon} (h : restoreDirectory cfg listing d (bare ⟨false⟩ disk) = .ok u t) :
      k ∈ t.entries ↔ Yields cfg.plat disk d k := by
    rw [yields_iff hlist hbus]
    exact ((hadds _ u t (unspoiled_bare disk) h).2 k).trans (or_iff_right ExtTreeMap.not_mem_empty)
  constructor
  · rintro ⟨u, t, h, hk⟩
    exact (hkeys h).mp hk
  · intro hyields
    obtain ⟨hnum, hle, -, -⟩ := id hyields
    have hs : Unspoiled disk { (bare ⟨false⟩ disk : BmcDaemon) with lastEntryId := max 0 (uint32 (number d)) } :=
      unspoiled_bare disk
    obtain ⟨u, t, ht, -⟩ := returns_restoreNumbered (number d) d _ _ ⟨hs, rfl⟩
    have h := (visitDirectory_numbered hnum (stoul_eq_ok.mpr ⟨rfl, hle⟩)).trans ht
    exact ⟨u, t, h, (hkeys h).mpr hyields⟩

theorem restore_keys (h : restore cfg listing (bare ⟨false⟩ disk) = .ok u t) (k : Nat) :
    k ∈ t.entries ↔ ∃ d, Yields cfg.plat disk d k := by
  cases hroot : disk.isDirectory [] with
  | false =>
      rw [restore_noRoot hroot] at h
      cases h
      refine iff_of_false ExtTreeMap.not_mem_empty fun ⟨d, hd⟩ => ?_
      rw [numbered_root hd.1] at hroot
      cases hroot
  | true =>
      apply ((adds_restore hroot _ u t (unspoiled_bare disk) h).2 k).trans
      rw [or_iff_right (show k ∉ (bare ⟨false⟩ disk : BmcDaemon).entries from ExtTreeMap.not_mem_empty)]
      constructor
      · rintro ⟨d, -, hd⟩
        exact ⟨d, (yields_iff hlist hbus k).mpr hd⟩
      · rintro ⟨d, hd⟩
        exact ⟨d, mem_names_of_numbered hlist hd.1, (yields_iff hlist hbus k).mp hd⟩

end Numbers

section Exact

def Numeral (ds : List Char) (n : Nat) : Prop :=
  ds ≠ [] ∧ (∀ c ∈ ds, c.isDigit = true) ∧ Nat.ofDigitChars 10 ds 0 = n

def ArchiveOf (n : Nat) (name : String) : Prop :=
  ∃ ds ts c cs, name.toList = dumpPrefix ++ (ds ++ '_' :: (ts ++ '.' :: c :: cs)) ∧ Numeral ds n ∧
    (∃ t, Numeral ts t ∧ t * 10 ^ 6 < 2 ^ 64) ∧ c.isAlphanum = true

def Stored (disk : FileTree Content) (n : Nat) : Prop :=
  n < 2 ^ 32 ∧ ∃ d name, Numbered disk d ∧ number d = n ∧ (disk.content [d, name]).isSome = true ∧ ArchiveOf n name

structure LargestNumber (disk : FileTree Content) (n : Nat) : Prop where
  above : ∀ d, Numbered disk d → number d < 2 ^ 32 → number d ≤ n
  reached : n = 0 ∨ ∃ d, Numbered disk d ∧ number d < 2 ^ 32 ∧ number d = n

def RestoresExactly (cfg : Config) (listing : Listing) (disk : FileTree Content) : Prop :=
  ∃ u t, restore cfg listing (bare ⟨false⟩ disk) = .ok u t ∧ (∀ n, n ∈ t.entries ↔ Stored disk n) ∧
    (∀ d d' n, Gives cfg listing disk d n → Gives cfg listing disk d' n → number d = number d') ∧
    LargestNumber disk t.lastEntryId

/-- Every number can be read, no directory of a number that does not fit into 32 bits
holds a file that is read for what is left of the number, every file that is read in
another one stands next to a properly named one, and what is left of a number that does
not fit is no larger than every number that does. -/
structure WellNumbered (plat : Platform) (disk : FileTree Content) : Prop where
  readable : ∀ d, Numbered disk d → number d ≤ plat.ulongMax
  wide : ∀ d name, Numbered disk d → 2 ^ 32 ≤ number d → ¬ Reads plat disk (number d) d name
  named : ∀ d name, Numbered disk d → number d < 2 ^ 32 → Reads plat disk (number d) d name → Stored disk (number d)
  narrowed : ∀ d, Numbered disk d → 2 ^ 32 ≤ number d → uint32 (number d) = 0 ∨
    ∃ d', Numbered disk d' ∧ number d' < 2 ^ 32 ∧ uint32 (number d) ≤ number d'

variable {cfg : Config} {listing : Listing} {disk : FileTree Content} {t : BmcDaemon} {u : Unit}

theorem reads_of_archive {plat : Platform} {d name : String} {n : Nat} (hn : n ≤ plat.ulongMax)
    (hfile : (disk.content [d, name]).isSome = true) (h : ArchiveOf n name) : Reads plat disk n d name := by
  obtain ⟨ds, ts, c, cs, hname, ⟨hds, hdigits, hvalue⟩, ⟨time, ⟨hts, htdigits, htvalue⟩, htime⟩, hc⟩ := h
  obtain ⟨x, ds, rfl⟩ := List.exists_cons_of_ne_nil hds
  obtain ⟨y, ts, rfl⟩ := List.exists_cons_of_ne_nil hts
  have hsearch := regexSearch_of_matchHere (matchHere_of_form hdigits htdigits hc cs)
  rw [← hname] at hsearch
  have hparse : parseName plat name = .ok (some (n, uint64 (time * 1000 * 1000))) := by
    have hull : stoull (y :: ts) = .ok time := by
      rw [stoull, htvalue, if_pos (by omega)]
    have hul : stoul plat (x :: ds) = .ok n := by
      rw [stoul, hvalue, if_pos hn]
    rw [parseName, hsearch]
    simp only [hull, hul, bind, Except.bind, pure, Except.pure]
  refine ⟨?_, hfile, namedId_of_parseName hparse⟩
  rintro rfl
  cases hname

theorem yields_of_stored {plat : Platform} (hplat : 2 ^ 32 ≤ plat.ulongMax + 1) {n : Nat} (h : Stored disk n) :
    ∃ d, number d = n ∧ Yields plat disk d n := by
  obtain ⟨hlt, d, name, hnum, rfl, hfile, harchive⟩ := h
  exact ⟨d, rfl, hnum, by omega, uint32_eq hlt, name, reads_of_archive (by omega) hfile harchive⟩

variable (hlist : ∀ p, (listing.names p).Perm (disk.children p))
include hlist

theorem restore_returns_iff : (∃ u t, restore cfg listing (bare ⟨false⟩ disk) = .ok u t) ↔
    ∀ d, Numbered disk d → number d ≤ cfg.plat.ulongMax := by
  constructor
  · rintro ⟨u, t, h⟩ d hnum
    obtain ⟨id, hid⟩ := stoul_of_visit (J := Unspoiled disk) (fun _ hs => hs.numbered) (fun _ _ hs => hs)
      (fun s hs => hs.root.trans (numbered_root hnum)) (fun d _ id s u t hs h => (restoreNumbered_ok hs h).1)
      (unspoiled_bare disk) h (mem_names_of_numbered hlist hnum) hnum
    exact (stoul_eq_ok.mp hid).2
  · intro hle
    cases hroot : disk.isDirectory [] with
    | false => exact ⟨(), _, restore_noRoot hroot⟩
    | true =>
        have hbody (d : String) (id : Nat) :
            Returns (Unspoiled disk) (Unspoiled disk) (restoreNumbered cfg listing id d) := by
          intro s hs
          obtain ⟨u, t, h, hkept, -⟩ := returns_restoreNumbered id d s.lastEntryId s ⟨hs, rfl⟩
          exact ⟨u, t, h, hkept⟩
        obtain ⟨u, t, h, -⟩ := returns_visit (fun _ hs => hs.numbered) (fun _ _ hs => hs)
          (fun s hs => hs.root.trans hroot) (fun d _ hnum => ⟨number d, stoul_eq_ok.mpr ⟨rfl, hle d hnum⟩⟩)
          (fun d _ _ id => hbody d id) _ (unspoiled_bare disk)
        exact ⟨u, t, h⟩

theorem restore_lastEntryId (h : restore cfg listing (bare ⟨false⟩ disk) = .ok u t) :
    (∀ d, Numbered disk d → uint32 (number d) ≤ t.lastEntryId) ∧
      (t.lastEntryId = 0 ∨ ∃ d, Numbered disk d ∧ uint32 (number d) = t.lastEntryId) := by
  have hle := (restore_returns_iff hlist).mp ⟨u, t, h⟩
  cases hroot : disk.isDirectory [] with
  | false =>
      rw [restore_noRoot hroot] at h
      cases h
      refine ⟨fun d hnum => ?_, .inl rfl⟩
      rw [numbered_root hnum] at hroot
      cases hroot
  | true =>
      have hlargest : Largest (numbers cfg.plat disk (listing.names [])) t.lastEntryId :=
        visit_lastEntryId (J := Unspoiled disk) (fun s hs => hs.root.trans hroot) (fun s hs d _ => hs.numbered d)
          (fun _ _ hs => hs) (fun d _ id s u t hs h => restoreNumbered_ok hs h) (unspoiled_bare disk) rfl h
      constructor
      · intro d hnum
        refine hlargest.above _ (mem_numbers.mpr ⟨d, mem_names_of_numbered hlist hnum, hnum, ?_⟩)
        exact directoryNumber_of_stoul (stoul_eq_ok.mpr ⟨rfl, hle d hnum⟩)
      · rcases hlargest.reached with hzero | hmem
        · exact .inl hzero
        · obtain ⟨d, -, hnum, hnumber⟩ := mem_numbers.mp hmem
          rw [directoryNumber_of_stoul (stoul_eq_ok.mpr ⟨rfl, hle d hnum⟩)] at hnumber
          exact .inr ⟨d, hnum, Option.some.inj hnumber⟩

variable (hbus : Constructs cfg.plat listing disk) (hplat : 2 ^ 32 ≤ cfg.plat.ulongMax + 1)
include hbus hplat

theorem wellNumbered_of_exact (h : RestoresExactly cfg listing disk) : WellNumbered cfg.plat disk := by
  obtain ⟨u, t, hrun, hkeys, hapart, habove, hreached⟩ := h
  have hle := (restore_returns_iff hlist).mp ⟨u, t, hrun⟩
  have hstored {d name : String} (hnum : Numbered disk d) (hreads : Reads cfg.plat disk (number d) d name) :
      Yields cfg.plat disk d (uint32 (number d)) ∧ Stored disk (uint32 (number d)) := by
    have hyields : Yields cfg.plat disk d (uint32 (number d)) := ⟨hnum, hle d hnum, rfl, name, hreads⟩
    exact ⟨hyields, (hkeys _).mp ((restore_keys hlist hbus hrun _).mpr ⟨d, hyields⟩)⟩
  refine ⟨hle, fun d name hnum hwide hreads => ?_, fun d name hnum hlt hreads => ?_, fun d hnum hwide => ?_⟩
  · obtain ⟨hyields, hstored⟩ := hstored hnum hreads
    obtain ⟨d', hnumber, hyields'⟩ := yields_of_stored hplat hstored
    have hsame := hapart d d' _ ((gives_iff hlist hbus _).mpr hyields) ((gives_iff hlist hbus _).mpr hyields')
    have hlt := hstored.1
    omega
  · have hs := (hstored hnum hreads).2
    rwa [uint32_eq hlt] at hs
  · have hbelow := (restore_lastEntryId hlist hrun).1 d hnum
    rcases hreached with hzero | ⟨d', hnum', hlt', heq⟩
    · exact .inl (Nat.le_zero.mp (hzero ▸ hbelow))
    · exact .inr ⟨d', hnum', hlt', heq ▸ hbelow⟩

theorem exact_of_wellNumbered (h : WellNumbered cfg.plat disk) : RestoresExactly cfg listing disk := by
  have hnarrow {d : String} {n : Nat} (hyields : Yields cfg.plat disk d n) : number d = n ∧ n < 2 ^ 32 := by
    obtain ⟨hnum, -, rfl, name, hreads⟩ := hyields
    rcases Nat.lt_or_ge (number d) (2 ^ 32) with hlt | hge
    · exact ⟨(uint32_eq hlt).symm, Nat.mod_lt _ (by decide)⟩
    · exact absurd hreads (h.wide d name hnum hge)
  obtain ⟨u, t, hrun⟩ := (restore_returns_iff hlist).mpr h.readable
  obtain ⟨hbelow, hreached⟩ := restore_lastEntryId hlist hrun
  refine ⟨u, t, hrun, fun n => ?_, fun d d' n hd hd' => ?_, fun d hnum hlt => ?_, ?_⟩
  · rw [restore_keys hlist hbus hrun]
    constructor
    · rintro ⟨d, hyields⟩
      obtain ⟨rfl, hlt⟩ := hnarrow hyields
      obtain ⟨hnum, -, -, name, hreads⟩ := hyields
      exact h.named d name hnum hlt hreads
    · intro hstored
      obtain ⟨d, -, hyields⟩ := yields_of_stored hplat hstored
      exact ⟨d, hyields⟩
  · rw [(hnarrow ((gives_iff hlist hbus n).mp hd)).1, (hnarrow ((gives_iff hlist hbus n).mp hd')).1]
  · simpa only [uint32_eq hlt] using hbelow d hnum
  · rcases hreached with hzero | ⟨d, hnum, heq⟩
    · exact .inl hzero
    · rcases Nat.lt_or_ge (number d) (2 ^ 32) with hlt | hge
      · exact .inr ⟨d, hnum, hlt, (uint32_eq hlt).symm.trans heq⟩
      · rcases h.narrowed d hnum hge with hzero | ⟨d', hnum', hlt', hle⟩
        · exact .inl (heq.symm.trans hzero)
        · refine .inr ⟨d', hnum', hlt', Nat.le_antisymm ?_ (heq ▸ hle)⟩
          simpa only [uint32_eq hlt'] using hbelow d' hnum'

theorem restoresExactly_iff_wellNumbered : RestoresExactly cfg listing disk ↔ WellNumbered cfg.plat disk :=
  ⟨wellNumbered_of_exact hlist hbus hplat, exact_of_wellNumbered hlist hbus hplat⟩

end Exact

private def oneArchive : FileTree Content := (FileTree.root.mkdir [] "7").write ["7"] "obmcdump_7_5.tar" ⟨10, none⟩

private theorem numbered_oneArchive {d : String} (h : Numbered oneArchive d) : d = "7" := by
  have hchildren : oneArchive.children [] = ["7"] := by decide +kernel
  have hmem : d ∈ oneArchive.children [] := by
    rw [mem_children]
    exact (mem_iff _ _).mpr ⟨.dir, (isDirectory_iff oneArchive _).mp h.1⟩
  rw [hchildren] at hmem
  exact List.mem_singleton.mp hmem

private theorem stored_oneArchive : Stored oneArchive 7 :=
  ⟨by decide, "7", "obmcdump_7_5.tar", by decide +kernel, by decide, by decide +kernel, ['7'], ['5'], 't', ['a', 'r'],
    by decide,
    ⟨by decide, List.forall_mem_singleton.mpr (by decide), by decide⟩,
    ⟨5, ⟨by decide, List.forall_mem_singleton.mpr (by decide), by decide⟩, by decide⟩, by decide⟩

private def listingOf (disk : FileTree Content) : Listing := ⟨disk.children, fun _ => true, 0⟩

theorem one_archive_restored : RestoresExactly defaultConfig (listingOf oneArchive) oneArchive := by
  refine (restoresExactly_iff_wellNumbered (fun _ => .rfl) (fun d name h => ⟨name, h, rfl⟩) (by decide)).mpr ?_
  refine ⟨fun d hnum => ?_, fun d name hnum hwide => ?_, fun d name hnum _ _ => ?_, fun d hnum hwide => ?_⟩
  all_goals obtain rfl := numbered_oneArchive hnum
  · decide
  · exact absurd hwide (by decide)
  · exact stored_oneArchive
  · exact absurd hwide (by decide)

private def longNumeral : FileTree Content := FileTree.root.mkdir [] "99999999999999999999"

theorem long_numeral_stops_restore :
    restore defaultConfig (listingOf longNumeral) (bare ⟨false⟩ longNumeral) =
      .error .outOfRange (bare ⟨false⟩ longNumeral) ∧
    ¬ RestoresExactly defaultConfig (listingOf longNumeral) longNumeral := by
  have hthrows : restore defaultConfig (listingOf longNumeral) (bare ⟨false⟩ longNumeral) =
      .error .outOfRange (bare ⟨false⟩ longNumeral) := rfl
  refine ⟨hthrows, ?_⟩
  rintro ⟨u, t, hrun, -⟩
  rw [hthrows] at hrun
  cases hrun

end DumpCollector.Bmc.Restore
