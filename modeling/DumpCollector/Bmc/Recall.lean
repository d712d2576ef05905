import DumpCollector.Bmc.Restore

namespace DumpCollector.Bmc.Recall

open Std Lib.Directory Lib.Effects Lib.Maps Entries FileNames JsonText Requests State Frames Slots Bmc.Manager Bmc.Steps
open DumpCollector.Restore Bmc.Restore

section Documents

def document (d : String) : Path := [d, PRESERVE, SERIAL_FILE]

def Belongs (j : Json) (id : Nat) : Prop :=
  (j.at "version" >>= Json.getUnsigned 32) = .ok CLASS_SERIALIZATION_VERSION ∧
    (j.at "dumpId" >>= Json.getUnsigned 32) = .ok id

def reread (doc : Option Content) (b : Entry) : Entry :=
  match doc with
  | some ⟨_, some j⟩ => (deserializeDocument j [] ⟨b, 0, none, 0⟩ (bare ⟨false⟩ .root)).1.base
  | _ => b

def Foreign (doc : Option Content) (id : Nat) : Prop := ∀ size j, doc = some ⟨size, some j⟩ → ¬ Belongs j id

variable {e e' : BmcEntry} {j : Json} {s : BmcDaemon} {dir : Path} {d : String}

theorem deserializeDocument_own (h : Belongs j e.base.id) :
    deserializeDocument j dir e s = (deserializeFrom j e, s) := by
  rw [deserializeDocument, h.1, h.2]
  simp only [if_true]

theorem deserializeDocument_foreign (h : ¬ Belongs j e.base.id) : (deserializeDocument j dir e s).1 = e := by
  rw [deserializeDocument]
  split
  · rfl
  · rename_i version hversion
    split
    · rename_i hcurrent
      subst hcurrent
      split
      · rfl
      · rename_i storedId hid
        split
        · rename_i hsame
          subst hsame
          exact absurd ⟨hversion, hid⟩ h
        · rfl
    · rfl

theorem deserializeFrom_base (j : Json) (h : e.base = e'.base) :
    (deserializeFrom j e).base = (deserializeFrom j e').base := by
  rw [deserializeFrom, deserializeFrom]
  split
  · exact h
  · split
    · simp only [h]
    · split <;> simp only [h]

theorem reread_some (size : Nat) (j : Json) (b : Entry) :
    reread (some ⟨size, some j⟩) b = (deserializeDocument j [] ⟨b, 0, none, 0⟩ (bare ⟨false⟩ .root)).1.base := rfl

theorem loaded_base (d : String) (e : BmcEntry) (s : BmcDaemon) :
    (loaded [d] e s).1.base = reread (s.disk.content (document d)) e.base := by
  have hpath : [d] ++ [PRESERVE, SERIAL_FILE] = document d := rfl
  rw [loaded, hpath]
  rcases s.disk.content (document d) with _ | ⟨size, _ | j⟩
  · rfl
  · rfl
  · rw [reread_some]
    dsimp only
    by_cases h : Belongs j e.base.id
    · rw [deserializeDocument_own h, deserializeDocument_own (e := ⟨e.base, 0, none, 0⟩) (s := bare ⟨false⟩ .root) h]
      exact deserializeFrom_base j rfl
    · rw [deserializeDocument_foreign h]
      exact (congrArg BmcEntry.base (deserializeDocument_foreign (e := ⟨e.base, 0, none, 0⟩) h)).symm

theorem reread_foreign {doc : Option Content} {b : Entry} (h : Foreign doc b.id) : reread doc b = b := by
  rcases doc with _ | ⟨size, _ | j⟩
  · rfl
  · rfl
  · rw [reread_some, deserializeDocument_foreign (e := ⟨b, 0, none, 0⟩) (h size j rfl)]

theorem belongs_serialized (e : BmcEntry) (id : Nat) : Belongs (serialized e) id ↔ uint32 e.base.id = id := by
  have hversion : ((serialized e).at "version" >>= Json.getUnsigned 32) = .ok CLASS_SERIALIZATION_VERSION := rfl
  have hid : ((serialized e).at "dumpId" >>= Json.getUnsigned 32) = .ok (uint32 e.base.id) :=
    congrArg Except.ok (Int.toNat_natCast (e.base.id % 2 ^ 32))
  rw [Belongs, hversion, hid]
  exact ⟨fun h => Except.ok.inj h.2, fun h => ⟨rfl, congrArg Except.ok h⟩⟩

theorem reread_serialized {b : Entry} {size : Nat} (hid : uint32 e.base.id = b.id) (htime : e.base.startTime < 2 ^ 64) :
    reread (some ⟨size, some (serialized e)⟩) b =
      { b with originatorId := e.base.originatorId
               originatorType := e.base.originatorType
               startTime := e.base.startTime } := by
  have hown : deserializeDocument (serialized e) [] ⟨b, 0, none, 0⟩ (bare ⟨false⟩ .root) =
      (deserializeFrom (serialized e) ⟨b, 0, none, 0⟩, bare ⟨false⟩ .root) :=
    deserializeDocument_own ((belongs_serialized e b.id).mpr hid)
  have hstart : ((serialized e).subscript "startTime" >>= Json.getNumberUnsigned) = .ok e.base.startTime :=
    congrArg Except.ok ((Int.toNat_natCast (e.base.startTime % 2 ^ 64)).trans (Nat.mod_eq_of_lt htime))
  have hfrom : deserializeFrom (serialized e) ⟨b, 0, none, 0⟩ = ⟨{ b with
      originatorId := e.base.originatorId
      originatorType := e.base.originatorType
      startTime := e.base.startTime }, 0, none, 0⟩ := by
    have horiginator : ((serialized e).subscript "originatorId" >>= Json.getString) = .ok e.base.originatorId := rfl
    have htype : ((serialized e).subscript "originatorType" >>= Json.getEnum) = .ok e.base.originatorType :=
      congrArg Except.ok (Int32.ofInt_toInt e.base.originatorType)
    rw [deserializeFrom, horiginator]
    dsimp only
    rw [htype]
    dsimp only
    rw [hstart]
  rw [reread_some, hown, hfrom]

theorem reread_other {b : Entry} {size : Nat} (hid : uint32 e.base.id ≠ b.id) :
    reread (some ⟨size, some (serialized e)⟩) b = b := by
  refine reread_foreign fun size' j h hbelongs => hid ?_
  cases h
  exact (belongs_serialized e b.id).mp hbelongs

theorem loaded_own {size : Nat} (hdoc : s.disk.content (document d) = some ⟨size, some j⟩) (h : Belongs j e.base.id) :
    (loaded [d] e s).2 = s := by
  have hpath : [d] ++ [PRESERVE, SERIAL_FILE] = document d := rfl
  rw [loaded, hpath, hdoc]
  exact congrArg Prod.snd (deserializeDocument_own h)

theorem document_removed (s : BmcDaemon) (d : String) :
    (s.removeAll [d, PRESERVE]).disk.content (document d) = none := by
  have hbelow : [d, PRESERVE] <+: document d := ⟨[SERIAL_FILE], rfl⟩
  rw [FileTree.content, Daemon.removeAll, removeAll_get, if_pos hbelow]

theorem document_elsewhere (s : BmcDaemon) {d' : String} (hne : d ≠ d') :
    (s.removeAll [d, PRESERVE]).disk.content (document d') = s.disk.content (document d') := by
  have hbeside : ¬ [d, PRESERVE] <+: document d' := by
    rintro ⟨rest, h⟩
    simp only [document, List.cons_append, List.cons.injEq] at h
    exact hne h.1
  rw [FileTree.content, FileTree.content, removeAll_nodes s hbeside]

theorem reread_loaded {b : Entry} {d' : String} {f : String → Nat} (he : e.base.id = f d)
    (hb : b.id = f d') :
    reread ((loaded [d] e s).2.disk.content (document d')) b = reread (s.disk.content (document d')) b := by
  by_cases hforeign : Foreign (s.disk.content (document d)) e.base.id
  · rcases (loaded_cases [d] e s).2 with h | h
    · rw [h]
    · rw [h]
      by_cases hd : d = d'
      · subst hd
        rw [he, ← hb] at hforeign
        exact (congrArg (reread · b) (document_removed s d)).trans (reread_foreign hforeign).symm
      · exact congrArg (reread · b) (document_elsewhere s hd)
  · simp only [Foreign, not_forall, not_not] at hforeign
    obtain ⟨size, j, hdoc, hbelongs⟩ := hforeign
    rw [loaded_own hdoc hbelongs]

end Documents

section Restore

variable (cfg : Config)

def fresh (id : Nat) (file : Path) (timestamp size : Nat) : Entry :=
  .new id timestamp size (some file) .Completed "" cfg.originators.Internal

def Recalled (disk : FileTree Content) (d name : String) (b : Entry) : Prop :=
  ∃ id timestamp c, parseName cfg.plat name = .ok (some (id, timestamp)) ∧ uint32 id = uint32 (number d) ∧
    disk.content [d, name] = some c ∧
    b = reread (disk.content (document d)) (fresh cfg (uint32 id) [d, name] timestamp c.size)

/-- What holds while restore runs: every entry has the data that are stored for it, and no
document is lost that an entry still to come has to read. -/
structure Recalling (disk : FileTree Content) (s : BmcDaemon) : Prop where
  unspoiled : Unspoiled disk s
  alike : ∀ (d : String) (b : Entry), b.id = uint32 (number d) →
    reread (s.disk.content (document d)) b = reread (disk.content (document d)) b
  entries : ∀ (k : Nat) (v : Option BmcEntry), s.entries[k]? = some v → ∃ e d name, v = some e ∧ Numbered disk d ∧
    uint32 (number d) = k ∧ e.base.file = some [d, name] ∧ Recalled cfg disk d name e.base

variable {cfg} {listing : Listing} {disk : FileTree Content} {s t : BmcDaemon} {d name : String} {u : Unit}

theorem restoreFile_recalling (hs : Recalling cfg disk s) (hnum : Numbered disk d)
    (h : restoreFile cfg listing (number d) [d, name] s = .ok u t) : Recalling cfg disk t := by
  by_cases hreads : Reads cfg.plat s.disk (number d) d name ∧ listing.constructed [d, name] = true
  · obtain ⟨⟨hname, hfile, hnamed⟩, hconstructed⟩ := hreads
    obtain ⟨id, timestamp, hparse, hid⟩ := namedId_eq_some.mp hnamed
    obtain ⟨c, hc⟩ := Option.isSome_iff_exists.mp hfile
    rw [restoreFile_reads hname hparse hc ⟨hconstructed, hid.symm⟩] at h
    cases h
    let e := fromFile cfg listing (uint32 (number d)) [d, name] timestamp c.size
    have hfrom : RestoredFrom [d, name] (uint32 (number d)) e := ⟨rfl, rfl, rfl⟩
    have hloaded := (deserialize_ok hfrom (deserialize_eq [d] e s)).1
    have hbase : (loaded [d] e s).1.base = reread (disk.content (document d))
        (fresh cfg (uint32 id) [d, name] timestamp c.size) := by
      rw [loaded_base, hid]
      exact hs.alike d _ rfl
    refine ⟨unspoiled_loaded hs.unspoiled d e, fun d' b hb => ?_, fun k v hv => ?_⟩
    · have halike : reread ((loaded [d] e s).2.disk.content (document d')) b =
          reread (s.disk.content (document d')) b :=
        reread_loaded (f := fun d => uint32 (number d)) rfl hb
      exact halike.trans (hs.alike d' b hb)
    · rw [inserted, (loaded_filesOnly d e).entries, hloaded.1] at hv
      rcases insertIfNew_cases hv with hv | ⟨hk, -, rfl⟩
      · exact hs.entries k v hv
      · exact ⟨_, d, name, rfl, hnum, hk, hloaded.2.2, id, timestamp, c, hparse, hid,
          (hs.unspoiled.content d hname).symm.trans hc, hbase⟩
  · rw [restoreFile_skips hreads] at h
    cases h
    exact hs

theorem restore_recalls (h : restore cfg listing (bare ⟨false⟩ disk) = .ok u t) : Recalling cfg disk t := by
  have hbody : Preserves (Recalling cfg disk) (restore cfg listing) := by
    refine preserves_visit fun d _ id s hs hnum hid u t h => ?_
    obtain ⟨rfl, -⟩ := stoul_eq_ok.mp hid
    have hnum' : Numbered disk d := (hs.unspoiled.numbered d).mp hnum
    have hfiles : Preserves (Recalling cfg disk)
        (forM (listing.names [d]) fun name => restoreFile cfg listing (number d) [d, name]) :=
      preserves_forM fun name s u t hs h => restoreFile_recalling hs hnum' h
    refine hfiles { s with lastEntryId := max s.lastEntryId (uint32 (number d)) } u t ?_ h
    exact ⟨hs.unspoiled, hs.alike, hs.entries⟩
  refine hbody _ u t ⟨unspoiled_bare disk, fun _ _ _ => rfl, fun k v hv => ?_⟩ h
  have hnone : (bare ⟨false⟩ disk : BmcDaemon).entries[k]? = none := ExtTreeMap.getElem?_empty
  rw [hnone] at hv
  cases hv

end Restore

section Recalled

/-- The data of an entry have nothing that its file name does not give. -/
def Plain (cfg : Config) (b : Entry) : Prop :=
  b.originatorId = "" ∧ b.originatorType = cfg.originators.Internal ∧ b.startTime = b.elapsed

variable {cfg : Config} {disk disk' : FileTree Content} {d name : String} {b : Entry}

theorem Recalled.same (h : Recalled cfg disk d name b) (hfile : disk'.content [d, name] = disk.content [d, name])
    (hdoc : disk'.content (document d) = disk.content (document d)) : Recalled cfg disk' d name b := by
  obtain ⟨id, timestamp, c, hparse, hid, hc, hb⟩ := h
  refine ⟨id, timestamp, c, hparse, hid, hfile.trans hc, ?_⟩
  rw [hdoc, hb]

theorem reread_shape (doc : Option Content) (b : Entry) : ∃ originatorId originatorType startTime,
    reread doc b = { b with originatorId := originatorId, originatorType := originatorType, startTime := startTime } ∧
      (b.startTime < 2 ^ 64 → startTime < 2 ^ 64) := by
  rcases doc with _ | ⟨size, _ | j⟩
  · exact ⟨_, _, _, rfl, id⟩
  · exact ⟨_, _, _, rfl, id⟩
  · rw [reread_some]
    by_cases h : Belongs j b.id
    · rw [deserializeDocument_own (e := ⟨b, 0, none, 0⟩) h, deserializeFrom]
      split
      · exact ⟨_, _, _, rfl, id⟩
      · split
        · exact ⟨_, _, _, rfl, id⟩
        · split
          · exact ⟨_, _, _, rfl, id⟩
          · rename_i startTime hstart
            refine ⟨_, _, _, rfl, fun _ => ?_⟩
            cases hvalue : j.subscript "startTime" with
            | error e =>
                rw [hvalue] at hstart
                cases hstart
            | ok value =>
                rw [hvalue] at hstart
                exact getNumberUnsigned_lt hstart
    · rw [deserializeDocument_foreign (e := ⟨b, 0, none, 0⟩) h]
      exact ⟨_, _, _, rfl, id⟩

theorem Recalled.id_eq (h : Recalled cfg disk d name b) : b.id = uint32 (number d) := by
  obtain ⟨id, timestamp, c, -, hid, -, hb⟩ := h
  obtain ⟨originatorId, originatorType, startTime, hshape, -⟩ :=
    reread_shape (disk.content (document d)) (fresh cfg (uint32 id) [d, name] timestamp c.size)
  rw [hb, hshape]
  exact hid

theorem Recalled.plain {e : BmcEntry} {size : Nat} (h : Recalled cfg disk d name b) (hplain : Plain cfg b)
    (hfile : disk'.content [d, name] = disk.content [d, name])
    (hdoc : disk'.content (document d) = some ⟨size, some (serialized e)⟩)
    (hid : uint32 e.base.id ≠ uint32 (number d)) :
    Recalled cfg disk' d name b := by
  obtain ⟨id, timestamp, c, hparse, hsame, hc, hb⟩ := h
  refine ⟨id, timestamp, c, hparse, hsame, hfile.trans hc, ?_⟩
  obtain ⟨originatorId, originatorType, startTime, hshape, -⟩ :=
    reread_shape (disk.content (document d)) (fresh cfg (uint32 id) [d, name] timestamp c.size)
  rw [hshape] at hb
  obtain ⟨horiginator, htype, hstart⟩ := hplain
  rw [hdoc, reread_other (by rw [hsame.symm] at hid; exact hid)]
  subst hb
  cases horiginator
  cases htype
  cases hstart
  rfl

end Recalled

section Canonical

/-- Every numbered directory has the canonical name of an id, and holds no more than one
dump file. -/
structure Canonical (disk : FileTree Content) : Prop where
  numbered : ∀ d, Numbered disk d → ∃ m, m < 2 ^ 32 ∧ d = toString m
  single : ∀ d name name', Numbered disk d → name ≠ PRESERVE → name' ≠ PRESERVE →
    (disk.content [d, name]).isSome = true → (disk.content [d, name']).isSome = true → name = name'

variable {cfg : Config} {listing : Listing} {disk : FileTree Content} {d name : String} {b : Entry}

theorem toString_ne_preserve (n : Nat) : toString n ≠ PRESERVE := by
  intro h
  obtain ⟨c, cs, hlist, hdigits, -⟩ := digits_of_nat n
  rw [h] at hlist
  have hdot : c = '.' := (List.cons.inj hlist).1.symm
  have hdigit := hdigits c List.mem_cons_self
  rw [hdot] at hdigit
  cases hdigit

theorem parse_ne_preserve {details : Nat × Nat} (h : parseName cfg.plat name = .ok (some details)) :
    name ≠ PRESERVE := by
  rintro rfl
  cases h

theorem Recalled.reads (h : Recalled cfg disk d name b) : Reads cfg.plat disk (number d) d name := by
  obtain ⟨id, timestamp, c, hparse, hid, hc, -⟩ := h
  exact ⟨parse_ne_preserve hparse, hc ▸ rfl, hid ▸ namedId_of_parseName hparse⟩

theorem Recalled.unique {b' : Entry} (h : Recalled cfg disk d name b) (h' : Recalled cfg disk d name b') : b = b' := by
  obtain ⟨id, timestamp, c, hparse, -, hc, rfl⟩ := h
  obtain ⟨id', timestamp', c', hparse', -, hc', rfl⟩ := h'
  rw [hparse] at hparse'
  rw [hc] at hc'
  cases hparse'
  cases hc'
  rfl

theorem restart_yields (hdisk : Canonical disk) (hplat : 2 ^ 32 ≤ cfg.plat.ulongMax + 1)
    (hlist : ∀ p, (listing.names p).Perm (disk.children p)) {n : Nat} (h : Recalled cfg disk (toString n) name b)
    (hconstructed : listing.constructed [toString n, name] = true) :
    ∃ u t e, restore cfg listing (bare ⟨false⟩ disk) = .ok u t ∧ t.entries[n]? = some (some e) ∧ e.base = b := by
  have hreads := h.reads
  have hnum := numbered_of_content hreads.2.1
  obtain ⟨m, hm, hdir⟩ := hdisk.numbered _ hnum
  obtain rfl : n = m := by rw [← number_toString n, hdir, number_toString]
  have hreturns : ∃ u t, restore cfg listing (bare ⟨false⟩ disk) = .ok u t := by
    refine (restore_returns_iff hlist).mpr fun d hd => ?_
    obtain ⟨k, hk, rfl⟩ := hdisk.numbered d hd
    rw [number_toString]
    omega
  obtain ⟨u, t, hrun⟩ := hreturns
  have hmem : n ∈ t.entries := by
    refine ((adds_restore (numbered_root hnum) _ u t (unspoiled_bare disk) hrun).2 n).mpr (.inr ?_)
    refine ⟨toString n, mem_names_of_numbered hlist hnum, hnum, _, stoul_eq_ok.mpr ⟨rfl, ?_⟩, name, ?_⟩
    · rw [number_toString]
      omega
    · refine ⟨mem_names_of_content hlist hreads.2.1, ?_, hreads, hconstructed⟩
      rw [number_toString, uint32_eq hm]
  obtain ⟨v, hv⟩ := (mem_iff _ _).mp hmem
  obtain ⟨e, d, name', rfl, hd, hid, -, hrecalled⟩ := (restore_recalls hrun).entries n v hv
  obtain ⟨k, hk, rfl⟩ := hdisk.numbered d hd
  rw [number_toString, uint32_eq hk] at hid
  subst hid
  have hreads' := hrecalled.reads
  obtain rfl := hdisk.single _ name name' hnum hreads.1 hreads'.1 hreads.2.1 hreads'.2.1
  exact ⟨u, t, e, hrun, hv, hrecalled.unique h⟩

end Canonical

end DumpCollector.Bmc.Recall
