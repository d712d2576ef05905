import DumpCollector.Bmc.Documents
import DumpCollector.Bmc.Recall

namespace DumpCollector.Bmc.Restart

open Std Lib.Directory Lib.Effects Lib.Maps Lib.Runs Entries FileNames Inotify JsonText Requests State Dispatch Frames
open DumpCollector.Steps Slots DumpCollector.Restore
open Bmc.Manager Capture Bmc.Steps Isolation Bmc.Restore Documents Recall

section Conditions

variable (cfg : Config) (n : Nat)

def Stores (s : BmcDaemon) : Event Request FileEvent → Prop
  | .handle io => (s.todo.head?.bind fun x => if x.2 = IN_CLOSE_WRITE then storing cfg s io x.1 else none) = some n
  | _ => False

/-- The step leaves the dump file of the entry as it is, and other processes leave the
document beside it alone. -/
def Leaves (s : BmcDaemon) (ev : Event Request FileEvent) (t : BmcDaemon) : Prop :=
  (∀ (e : BmcEntry) (file : Path), s.entries[n]? = some (some e) → e.base.file = some file →
    t.disk.content file = s.disk.content file) ∧
  ∀ f, ev = .files f → t.disk.content (document (toString n)) = s.disk.content (document (toString n))

/-- The time stamp of a request fits its type, and what serialize writes it writes as a
whole. -/
def Writes (s : BmcDaemon) : Event Request FileEvent → Prop
  | .createDump r => r.timeStamp < 2 ^ 64
  | .handle io => ∀ x ∈ s.todo.head?, x.2 = IN_CLOSE_WRITE → ∀ m ∈ storing cfg s io x.1, m ∈ s.entries →
      io.serialization = .written ∧ Writable s.disk x.1.dropLast
  | _ => True

def taken (s : BmcDaemon) (file : Path) : Option Entry :=
  match parseName cfg.plat (filename file), s.disk.content file with
  | .ok (some (id, timestamp)), some c => some (fresh cfg (uint32 id) file timestamp c.size)
  | _, _ => none

/-- A completed entry whose file lies in the directory of its id has no need of a document. -/
def NeedsNone (s : BmcDaemon) : Prop :=
  ∀ slot ∈ s.entries[n]?, ∀ e ∈ slot, e.base.status = .Completed →
    e.base.file.map List.dropLast = some [toString n] → Plain cfg e.base

def Agrees (s : BmcDaemon) (file : Path) : Prop :=
  ∀ b ∈ taken cfg s file, reread (s.disk.content (document (toString n))) b = b

/-- In the directory of the id, no document is written over one that is needed, and no
entry is made of a file beside a document that has other data for it. -/
def KeepsDocument (s : BmcDaemon) : Event Request FileEvent → Prop
  | .handle io => ∀ x ∈ s.todo.head?, x.2 = IN_CLOSE_WRITE → x.1.dropLast = [toString n] →
      ∀ m ∈ storing cfg s io x.1,
        (m ≠ n → m ∈ s.entries → NeedsNone cfg n s) ∧ (m = n → n ∉ s.entries → Agrees cfg n s x.1)
  | _ => True

instance decidableStores (s : BmcDaemon) (ev : Event Request FileEvent) : Decidable (Stores cfg n s ev) :=
  match ev with
  | .handle io => inferInstanceAs (Decidable
      ((s.todo.head?.bind fun x => if x.2 = IN_CLOSE_WRITE then storing cfg s io x.1 else none) = some n))
  | .createDump _ | .delete _ | .deleteAll | .files _ | .exits _ _ | .stops _ _ | .continues _ | .watchReady _
  | .childNotification _ => isFalse id

instance decidableWritten : (outcome : Serialization) → Decidable (outcome = .written)
  | .written => isTrue rfl
  | .notCreated | .notOpened | .notEncoded => isFalse (by simp)

instance decidableWritable (disk : FileTree Content) (dir : Path) : Decidable (Writable disk dir) :=
  inferInstanceAs (Decidable (_ ∧ _))

instance decidableWrites (s : BmcDaemon) (ev : Event Request FileEvent) : Decidable (Writes cfg s ev) :=
  match ev with
  | .createDump r => inferInstanceAs (Decidable (r.timeStamp < 2 ^ 64))
  | .handle io => inferInstanceAs (Decidable (∀ x ∈ s.todo.head?, x.2 = IN_CLOSE_WRITE →
      ∀ m ∈ storing cfg s io x.1, m ∈ s.entries → io.serialization = .written ∧ Writable s.disk x.1.dropLast))
  | .delete _ | .deleteAll | .files _ | .exits _ _ | .stops _ _ | .continues _ | .watchReady _
  | .childNotification _ => isTrue trivial

instance decidablePlain (b : Entry) : Decidable (Plain cfg b) := inferInstanceAs (Decidable (_ ∧ _ ∧ _))

instance decidableNeedsNone (s : BmcDaemon) : Decidable (NeedsNone cfg n s) :=
  inferInstanceAs (Decidable (∀ slot ∈ s.entries[n]?, ∀ e ∈ slot, e.base.status = .Completed →
    e.base.file.map List.dropLast = some [toString n] → Plain cfg e.base))

instance decidableAgrees (s : BmcDaemon) (file : Path) : Decidable (Agrees cfg n s file) :=
  inferInstanceAs (Decidable (∀ b ∈ taken cfg s file, reread (s.disk.content (document (toString n))) b = b))

instance decidableKeepsDocument (s : BmcDaemon) (ev : Event Request FileEvent) : Decidable (KeepsDocument cfg n s ev) :=
  match ev with
  | .handle io => inferInstanceAs (Decidable (∀ x ∈ s.todo.head?, x.2 = IN_CLOSE_WRITE → x.1.dropLast = [toString n] →
      ∀ m ∈ storing cfg s io x.1,
        (m ≠ n → m ∈ s.entries → NeedsNone cfg n s) ∧ (m = n → n ∉ s.entries → Agrees cfg n s x.1)))
  | .createDump _ | .delete _ | .deleteAll | .files _ | .exits _ _ | .stops _ _ | .continues _ | .watchReady _
  | .childNotification _ => isTrue trivial

end Conditions

section Steps

variable {cfg : Config} {n : Nat} {s t : BmcDaemon}

def Timed (s : BmcDaemon) : Prop :=
  ∀ (k : Nat) (e : BmcEntry), s.entries[k]? = some (some e) → e.base.startTime < 2 ^ 64

/-- The completed entry of this id, if its file lies in its own directory, has the data
that a restart gives it. -/
def RecalledAt (cfg : Config) (n : Nat) (s : BmcDaemon) : Prop :=
  ∀ (e : BmcEntry) (name : String), s.entries[n]? = some (some e) → e.base.status = .Completed →
    e.base.file = some [toString n, name] → Recalled cfg s.disk (toString n) name e.base

theorem createDump_timed {r : Request} (hs : Timed s) (hr : r.timeStamp < 2 ^ 64) :
    Timed (final (createDump cfg r s)) := by
  have htrim := trimmed_prepare cfg r s
  have hprepare : Timed (final (prepare cfg r s)) := fun k e he => hs k e (htrim.entries k _ he)
  have hcaptured := createDump_captured cfg r s
  generalize createDump cfg r s = result at hcaptured
  cases hcaptured with
  | refused e t hstarts ht => exact ht ▸ hprepare
  | unregistered pid type u hstarts hu hregistered => exact hu ▸ hprepare
  | unconstructed e pid type u hstarts hu hregistered hconstruction => exact hu ▸ hprepare
  | inserted pid type u originatorId originatorType hstarts hu hregistered hconstruction =>
      intro k e he
      rcases insertIfNew_cases he with hold | ⟨-, -, hnew⟩
      · exact hprepare k e (hu ▸ hold)
      · cases hnew
        exact hr

theorem createEntry_timed {io : FileEvent} {file : Path} {u : Unit} (hs : Timed s)
    (h : createEntry cfg io file s = .ok u t) : Timed t := by
  cases createEntry_cases h with
  | ignored hstoring hno ht => exact ht ▸ hs
  | created id timestamp c hparse hc hno hdone ht =>
      subst ht
      intro k e he
      rcases insertIfNew_cases he with hold | ⟨-, -, hnew⟩
      · exact hs k e hold
      · cases hnew
        exact parseName_lt hparse
  | updated id timestamp c e hparse hc he ht =>
      subst ht
      intro k e' he'
      rw [(filesOnly_serialize _ _ _).entries, insert_get] at he'
      split at he'
      · cases he'
        exact hs _ e he
      · exact hs k e' he'

theorem step_timed {ev : Event Request FileEvent} (hs : Timed s) (hw : Writes cfg s ev)
    (h : step (bmcOps cfg) s ev = some t) : Timed t := by
  intro k e he
  have hslot := step_slot (Bmc.Steps.sound cfg) h he
  generalize hv : some e = v at hslot
  cases hslot with
  | kept _ _ hkept => exact hs k e (hv ▸ hkept)
  | created r =>
      obtain ⟨-, -, hresult⟩ := step_createDump h
      have hfinal := (final_map some (createDump cfg r) s).symm.trans (final_of_reply (reply_eq_some.mpr hresult))
      have htimed : Timed (final (createDump cfg r s)) := createDump_timed hs hw
      exact htimed k e (hfinal ▸ he)
  | filed io =>
      obtain ⟨path, mask, rest, -, hcases⟩ := step_handle h
      rcases hcases with ⟨-, -, u, hc⟩ | ⟨-, -, rfl⟩ | ⟨-, -, -, rfl⟩ | ⟨-, -, rfl⟩
      · exact createEntry_timed (s := unwatched s rest path.dropLast) hs hc k e he
      all_goals exact hs k e he
  | failed pid =>
      obtain ⟨e', he', rfl⟩ := Option.map_eq_some_iff.mp hv.symm
      exact hs k e' (getD_eq_some he')

theorem recalledAt_of_kept (hs : RecalledAt cfg n s)
    (hleaves : ∀ (e : BmcEntry) (file : Path), s.entries[n]? = some (some e) → e.base.file = some file →
      t.disk.content file = s.disk.content file)
    (hslot : ∀ e, t.entries[n]? = some (some e) → e.base.status = .Completed → s.entries[n]? = some (some e))
    (hdoc : ∀ name, (s.disk.content [toString n, name]).isSome = true →
      t.disk.content [toString n, name] = s.disk.content [toString n, name] →
      t.disk.content (document (toString n)) = s.disk.content (document (toString n))) : RecalledAt cfg n t := by
  intro e name he hcompleted hfile
  have hold := hslot e he hcompleted
  have hrecalled := hs e name hold hcompleted hfile
  have hkept := hleaves e _ hold hfile
  exact hrecalled.same hkept (hdoc name hrecalled.reads.2.1 hkept)

theorem slot_kept {ev : Event Request FileEvent} (hev : ∀ io, ev ≠ .handle io) (h : step (bmcOps cfg) s ev = some t)
    {e : BmcEntry} (he : t.entries[n]? = some (some e)) (hcompleted : e.base.status = .Completed) :
    s.entries[n]? = some (some e) := by
  have hslot := step_slot (Bmc.Steps.sound cfg) h he
  generalize hv : some e = v at hslot
  cases hslot with
  | kept _ _ hkept => exact hv ▸ hkept
  | created r pid kind e' _ _ _ _ _ hst =>
      cases hv
      have hst' : e.base.status = .InProgress := hst
      rw [hst'] at hcompleted
      cases hcompleted
  | filed io => exact absurd rfl (hev io)
  | failed pid =>
      obtain ⟨e', -, rfl⟩ := Option.map_eq_some_iff.mp hv.symm
      cases hcompleted

theorem other_recalledAt {ev : Event Request FileEvent} (hev : ∀ io, ev ≠ .handle io) (hshallow : Shallow s)
    (hs : RecalledAt cfg n s) (h : step (bmcOps cfg) s ev = some t) (hleaves : Leaves n s ev t) :
    RecalledAt cfg n t := by
  refine recalledAt_of_kept hs hleaves.1 (fun e he hcompleted => slot_kept hev h he hcompleted)
    fun name hfile hkept => ?_
  by_cases hfiles : ∃ f, ev = .files f
  · obtain ⟨f, rfl⟩ := hfiles
    exact hleaves.2 f rfl
  · rcases step_pruned cfg hshallow h (fun f hf => hfiles ⟨f, hf⟩) hev (toString n) with hsame | hgone
    · rw [FileTree.content, FileTree.content, document, hsame]
    · rw [← hkept, FileTree.content, hgone] at hfile
      cases hfile

section Filing

variable {io : FileEvent} {file : Path} {id timestamp : Nat} {c : Content} {e : BmcEntry}
  (hparse : parseName cfg.plat (filename file) = .ok (some (id, timestamp))) (hc : s.disk.content file = some c)
include hparse hc

theorem recalledAt_created (hid : uint32 id = n) (hno : s.entries[n]? = none)
    (hdoc : file.dropLast = [toString n] →
      ∀ b ∈ taken cfg s file, reread (s.disk.content (document (toString n))) b = b)
    (hdisk : t.disk = s.disk) (ht : t.entries = s.entries.insertIfNew n (some (create n timestamp c.size
      (some file) .Completed "" cfg.originators.Internal io.entryProcessGroupID))) : RecalledAt cfg n t := by
  intro e name he hcompleted hfile
  rw [ht] at he
  rcases insertIfNew_cases he with hold | ⟨-, -, hnew⟩
  · rw [hno] at hold
    cases hold
  · cases hnew
    cases hfile
    refine ⟨id, timestamp, c, hparse, ?_, hdisk ▸ hc, ?_⟩
    · rw [number_toString, ← hid]
      exact (Nat.mod_mod id (2 ^ 32)).symm
    · rw [hdisk, hid]
      refine (hdoc rfl _ ?_).symm
      simp only [taken, hparse, hc, hid]
      rfl

theorem recalledAt_updated (hid : uint32 id = n) (he : e.base.id = n) (htime : e.base.startTime < 2 ^ 64)
    (hwritable : Writable s.disk file.dropLast) (hdisk : t.disk = s.disk)
    (ht : t.entries = s.entries.insert n (some (updated e timestamp c.size file))) :
    RecalledAt cfg n (serialize (updated e timestamp c.size file) .written t) := by
  intro e' name he' hcompleted hfile
  rw [(filesOnly_serialize _ _ _).entries, ht, insert_get, if_pos rfl] at he'
  cases he'
  cases hfile
  have hname : name ≠ PRESERVE := parse_ne_preserve hparse
  have hpath : (updated e timestamp c.size [toString n, name]).base.file = some ([toString n] ++ [name]) := rfl
  have hbeside : ¬ [toString n] ++ [PRESERVE] <+: [toString n, name] := by
    rintro ⟨rest, h⟩
    simp only [List.cons_append, List.nil_append, List.cons.injEq] at h
    exact hname h.2.1.symm
  have hmem : [toString n] ++ [name] ∈ s.disk.nodes := (mem_iff _ _).mpr ⟨_, (content_eq_some _ _ _).mp hc⟩
  have hdir : t.disk.isDirectory [toString n] = true := by
    rw [hdisk]
    exact (isDirectory_iff _ _).mpr (s.disk.closed _ _ hmem)
  obtain ⟨size, hdoc⟩ := serialize_document hpath hdir (hdisk ▸ hwritable)
  have hdoc' : (serialize (updated e timestamp c.size [toString n, name]) .written t).disk.content
      (document (toString n)) = some ⟨size, some (serialized (updated e timestamp c.size [toString n, name]))⟩ := hdoc
  have hwrap : uint32 (updated e timestamp c.size [toString n, name]).base.id = uint32 id := by
    have hsame : (updated e timestamp c.size [toString n, name]).base.id = uint32 id := he.trans hid.symm
    rw [hsame]
    exact Nat.mod_mod id (2 ^ 32)
  refine ⟨id, timestamp, c, hparse, ?_, ?_, ?_⟩
  · rw [number_toString, ← hid]
    exact (Nat.mod_mod id (2 ^ 32)).symm
  · rw [FileTree.content, serialize_elsewhere hpath hbeside, hdisk]
    exact hc
  · rw [hdoc', reread_serialized (b := fresh cfg (uint32 id) [toString n, name] timestamp c.size) hwrap htime,
      hid, ← he]
    rfl

theorem recalledAt_beside (hs : RecalledAt cfg n s) (hkeyed : Keyed s) (hid : uint32 id ≠ n)
    (he : e.base.id = uint32 id)
    (hlen : file.length = 1 ∨ file.length = 2) (hwritable : Writable s.disk file.dropLast)
    (hplain : file.dropLast = [toString n] → ∀ e', s.entries[n]? = some (some e') → e'.base.status = .Completed →
      e'.base.file.map List.dropLast = some [toString n] → Plain cfg e'.base)
    (hdisk : t.disk = s.disk) (ht : t.entries = s.entries.insert (uint32 id) (some (updated e timestamp c.size file)))
    (hleaves : ∀ (e' : BmcEntry) (file' : Path), s.entries[n]? = some (some e') → e'.base.file = some file' →
      (serialize (updated e timestamp c.size file) .written t).disk.content file' = s.disk.content file') :
    RecalledAt cfg n (serialize (updated e timestamp c.size file) .written t) := by
  have hslot : ∀ e', (serialize (updated e timestamp c.size file) .written t).entries[n]? = some (some e') →
      s.entries[n]? = some (some e') := by
    intro e' he'
    rwa [(filesOnly_serialize _ _ _).entries, ht, insert_get, if_neg hid] at he'
  obtain ⟨dir, x, rfl, -⟩ := named_append hparse
  have hpath : (updated e timestamp c.size (dir ++ [x])).base.file = some (dir ++ [x]) := rfl
  rw [List.dropLast_concat] at hwritable hplain
  by_cases hdir : dir = [toString n]
  · subst hdir
    intro e' name he' hcompleted hfile
    have hold := hslot e' he'
    have hrecalled := hs e' name hold hcompleted hfile
    have hmem : [toString n] ++ [x] ∈ s.disk.nodes := (mem_iff _ _).mpr ⟨_, (content_eq_some _ _ _).mp hc⟩
    have hmade : t.disk.isDirectory [toString n] = true := by
      rw [hdisk]
      exact (isDirectory_iff _ _).mpr (s.disk.closed _ _ hmem)
    obtain ⟨size, hdoc⟩ := serialize_document hpath hmade (hdisk ▸ hwritable)
    have hinside : e'.base.file.map List.dropLast = some [toString n] := by
      rw [hfile]
      rfl
    apply hrecalled.plain (hplain rfl e' hold hcompleted hinside) (hleaves e' _ hold hfile) hdoc
    have hown : e'.base.id = n := hkeyed n e' hold
    have hother : (updated e timestamp c.size ([toString n] ++ [x])).base.id = uint32 id := he
    rw [← hrecalled.id_eq, hown, hother]
    exact fun h => hid ((Nat.mod_mod id (2 ^ 32)).symm.trans h)
  · have hbeside : ¬ dir ++ [PRESERVE] <+: document (toString n) := by
      rintro ⟨rest, h⟩
      rcases dir with _ | ⟨d, _ | ⟨d', dir⟩⟩
      · simp only [document, List.cons_append, List.nil_append, List.cons.injEq] at h
        exact toString_ne_preserve n h.1.symm
      · simp only [document, List.cons_append, List.nil_append, List.cons.injEq] at h
        exact hdir (congrArg (fun d => [d]) h.1)
      · simp at hlen
    refine recalledAt_of_kept hs hleaves (fun e' he' _ => hslot e' he') fun _ _ _ => ?_
    rw [FileTree.content, serialize_elsewhere hpath hbeside, hdisk]
    rfl

end Filing

theorem stores_iff {io : FileEvent} {path : Path} {mask : Nat} {rest : List (Path × Nat)}
    (htodo : s.todo = (path, mask) :: rest) :
    Stores cfg n s (.handle io) ↔ mask = IN_CLOSE_WRITE ∧ storing cfg s io path = some n := by
  rw [Stores, htodo]
  simp only [List.head?_cons, Option.bind_some]
  split
  · rename_i hmask
    exact (and_iff_right hmask).symm
  · rename_i hmask
    exact iff_of_false (by simp) fun h => hmask h.1

theorem recalledAt_unchanged (hdisk : t.disk = s.disk) (hentries : t.entries = s.entries) (hs : RecalledAt cfg n s) :
    RecalledAt cfg n t := by
  intro e name he hcompleted hfile
  rw [hdisk]
  exact hs e name (hentries ▸ he) hcompleted hfile

/-- The step lemma for a file: what it stores for the entry can be recalled, and what it
stores for others leaves the entry recalled. -/
theorem handle_recalledAt {io : FileEvent} (hs : Tracked s) (htimed : Timed s) (hwrites : Writes cfg s (.handle io))
    (hkeeps : KeepsDocument cfg n s (.handle io)) (h : step (bmcOps cfg) s (.handle io) = some t) :
    (Stores cfg n s (.handle io) → RecalledAt cfg n t) ∧
      (RecalledAt cfg n s → Leaves n s (.handle io) t → RecalledAt cfg n t) := by
  obtain ⟨path, mask, rest, htodo, hcases⟩ := step_handle h
  rw [stores_iff htodo]
  rcases hcases with ⟨rfl, -, u, hc⟩ | ⟨rfl, hdir, rfl⟩ | ⟨rfl, -, -, rfl⟩ | ⟨hmask, -, rfl⟩
  · have hmem : (path, IN_CLOSE_WRITE) ∈ s.todo.head? := by simp [htodo]
    have hwrite := hwrites _ hmem rfl
    have hdoc := hkeeps _ hmem rfl
    have hlen : path.length = 1 ∨ path.length = 2 := by
      rcases hs.watching.todo (path, IN_CLOSE_WRITE) (htodo ▸ List.mem_cons_self) with hlen | ⟨hlen, -⟩
      · exact .inl hlen
      · exact .inr hlen
    cases createEntry_cases hc with
    | ignored hstoring hno ht =>
        subst ht
        have hnone : storing cfg s io path = none := hstoring
        rw [hnone]
        exact ⟨fun h => (by simp at h), fun hold _ => recalledAt_unchanged rfl rfl hold⟩
    | created id timestamp c hparse hc hno hdone ht =>
        have hno' : s.entries[uint32 id]? = none := hno
        have hc' : s.disk.content path = some c := hc
        have hstoring : storing cfg s io path = some (uint32 id) := by
          simp [storing, namedId_of_parseName hparse, hc', hno', hdone]
        rw [hstoring]
        subst ht
        by_cases hid : uint32 id = n
        · subst hid
          have hnew : RecalledAt cfg (uint32 id) { unwatched s rest path.dropLast with
              entries := s.entries.insertIfNew (uint32 id) (some (create (uint32 id) timestamp c.size (some path)
                .Completed "" cfg.originators.Internal io.entryProcessGroupID)) } := by
            refine recalledAt_created hparse hc' rfl hno' (fun hdir => ?_) rfl rfl
            exact (hdoc hdir _ hstoring).2 rfl ((not_mem_iff _ _).mpr hno')
          exact ⟨fun _ => hnew, fun _ _ => hnew⟩
        · refine ⟨fun h => absurd (Option.some.inj h.2) hid, fun hold hleaves => ?_⟩
          refine recalledAt_of_kept hold hleaves.1 (fun e he _ => ?_) fun _ _ _ => rfl
          rcases insertIfNew_cases he with hkept | ⟨heq, -, -⟩
          · exact hkept
          · exact absurd heq hid
    | updated id timestamp c e hparse hc he ht =>
        have he' : s.entries[uint32 id]? = some (some e) := he
        have hc' : s.disk.content path = some c := hc
        have hstoring : storing cfg s io path = some (uint32 id) := by
          simp [storing, namedId_of_parseName hparse, hc', he']
        obtain ⟨hwritten, hwritable⟩ := hwrite _ hstoring ((mem_iff _ _).mpr ⟨_, he'⟩)
        rw [hwritten] at ht
        rw [hstoring]
        subst ht
        have hown : e.base.id = uint32 id := hs.keyed _ e he'
        by_cases hid : uint32 id = n
        · subst hid
          have hnew : RecalledAt cfg (uint32 id) (serialize (updated e timestamp c.size path) .written
              { unwatched s rest path.dropLast with
                entries := s.entries.insert (uint32 id) (some (updated e timestamp c.size path)) }) :=
            recalledAt_updated hparse hc' rfl hown (htimed _ e he') hwritable rfl rfl
          exact ⟨fun _ => hnew, fun _ _ => hnew⟩
        · refine ⟨fun h => absurd (Option.some.inj h.2) hid, fun hold hleaves => ?_⟩
          refine recalledAt_beside hparse hc' hold hs.keyed hid hown hlen hwritable (fun hdir e' hslot => ?_) rfl rfl
            hleaves.1
          exact (hdoc hdir _ hstoring).1 hid ((mem_iff _ _).mpr ⟨_, he'⟩) _ hslot e' rfl
  · have hnone : s.disk.content path = none := by
      cases hc : s.disk.content path with
      | none => rfl
      | some c =>
          rw [not_isDirectory_of_content hc] at hdir
          cases hdir
    refine ⟨fun h => ?_, fun hold _ => recalledAt_unchanged rfl rfl hold⟩
    simp [storing, hnone] at h
  · exact ⟨fun h => absurd h.1 (by decide), fun hold _ => recalledAt_unchanged rfl rfl hold⟩
  · exact ⟨fun h => absurd h.1 hmask, fun hold _ => recalledAt_unchanged rfl rfl hold⟩

end Steps

section Runs

variable {cfg : Config} {n : Nat} {s u : BmcDaemon}

theorem recalledAt_of_started (h : Started cfg s) : Timed s ∧ RecalledAt cfg n s := by
  obtain ⟨disk, listing, v, -, -, hrun⟩ := h
  have hrecalling := restore_recalls hrun
  refine ⟨fun k e he => ?_, fun e name he hcompleted hfile => ?_⟩
  · obtain ⟨e', d, name, heq, -, -, -, id, timestamp, c, hparse, -, -, hb⟩ := hrecalling.entries k _ he
    cases heq
    obtain ⟨originatorId, originatorType, startTime, hshape, htime⟩ :=
      reread_shape (disk.content (document d)) (fresh cfg (uint32 id) [d, name] timestamp c.size)
    rw [hb, hshape]
    exact htime (parseName_lt hparse)
  · obtain ⟨e', d, name', heq, -, -, hfile', hrecalled⟩ := hrecalling.entries n _ he
    cases heq
    rw [hfile] at hfile'
    cases hfile'
    have hname := hrecalled.reads.1
    obtain ⟨id, timestamp, c, hparse, hid, hc, hb⟩ := hrecalled
    refine ⟨id, timestamp, c, hparse, hid, (hrecalling.unspoiled.content _ hname).trans hc, ?_⟩
    rw [hb]
    exact (hrecalling.alike _ _ hid).symm

/-- A restart of the daemon gives back the entry with all its data. -/
def RestartKeeps (cfg : Config) (s : BmcDaemon) (n : Nat) (e : BmcEntry) : Prop :=
  ∀ listing, (∀ p, (listing.names p).Perm (s.disk.children p)) →
    (∀ file ∈ e.base.file, listing.constructed file = true) →
    ∃ v t e', restore cfg listing (bare ⟨false⟩ s.disk) = .ok v t ∧ t.entries[n]? = some (some e') ∧ e'.base = e.base

/-- In every run in which no document is lost, a restart gives back a completed entry whose
file lies in its own directory and has not changed since it was stored. -/
theorem restart_keeps_of_keepsDocument (hplat : 2 ^ 32 ≤ cfg.plat.ulongMax + 1) {es : List (Event Request FileEvent)}
    (hs : Started cfg s) (hrun : run (step (bmcOps cfg)) s es = some u)
    (hwrites : EachStep (step (bmcOps cfg)) (Writes cfg) s es)
    (hkeeps : EachStep (step (bmcOps cfg)) (KeepsDocument cfg n) s es) (hdisk : Canonical u.disk) {e : BmcEntry}
    {name : String} (he : u.entries[n]? = some (some e)) (hcompleted : e.base.status = .Completed)
    (hfile : e.base.file = some [toString n, name])
    (hunchanged : Since (step (bmcOps cfg)) (Stores cfg n) (Leaves n) True s es) : RestartKeeps cfg u n e := by
  have hstart := recalledAt_of_started (n := n) hs
  have hrecalled : RecalledAt cfg n u := by
    refine invariant_since (J := fun s => Tracked s ∧ Timed s)
      (A := fun s ev => Writes cfg s ev ∧ KeepsDocument cfg n s ev)
      (fun s ev t hs hA h => ⟨step_tracked cfg s ev t hs.1 h, step_timed hs.2 hA.1 h⟩)
      (fun s ev t hs hA h hstores => ?_)
      (fun s ev t hs hI hA h hleaves => ?_) (eachStep_and hwrites hkeeps) hrun
      ⟨tracked_of_restoring cfg (restoring_of_started cfg hs), hstart.1⟩ (fun _ => hstart.2) hunchanged
    · cases ev with
      | handle io => exact (handle_recalledAt hs.1 hs.2 hA.1 hA.2 h).1 hstores
      | _ => exact absurd hstores id
    · by_cases hev : ∃ io, ev = .handle io
      · obtain ⟨io, rfl⟩ := hev
        exact (handle_recalledAt hs.1 hs.2 hA.1 hA.2 h).2 hI hleaves
      · exact other_recalledAt (fun io h => hev ⟨io, h⟩) hs.1.shallow hI h hleaves
  intro listing hlist hconstructed
  exact restart_yields hdisk hplat hlist (hrecalled e name he hcompleted hfile) (hconstructed _ hfile)

end Runs

section Files

private def aliceRequest : Request :=
  { plainRequest 7 with
    params := (∅ : DumpCreateParams).insert (convertCreateParametersToString .OriginatorId) (.str "alice") }

private def coreRequest : Request :=
  { plainRequest 8 with
    params := (∅ : DumpCreateParams).insert (convertCreateParametersToString .DumpType)
      (.str "xyz.openbmc_project.Dump.Create.DumpType.ApplicationCored") }

private def writtenEvent : FileEvent := { plainEvent with serialization := .written }

private def filesReady : List (Event Request FileEvent) :=
  [.createDump aliceRequest, .createDump coreRequest, .files (.mkdir [] "1"), .watchReady [], .handle plainEvent,
    .files (.openFile ["1"] "obmcdump_1_1.tar"), .files (.openFile ["1"] "obmcdump_2_1.tar"),
    .files (.closeFile ["1"] "obmcdump_1_1.tar"), .files (.closeFile ["1"] "obmcdump_2_1.tar"), .watchReady ["1"]]

private theorem canonical_of_children {disk : FileTree Content} (hroot : disk.children [] = ["1"])
    (hdir : disk.children ["1"] = [".preserve", "obmcdump_1_1.tar"]) : Canonical disk := by
  have hone (d : String) (hnum : Numbered disk d) : d = "1" := by
    have hmem : d ∈ disk.children [] := by
      rw [mem_children]
      exact (mem_iff _ _).mpr ⟨.dir, (isDirectory_iff disk _).mp hnum.1⟩
    rw [hroot] at hmem
    exact List.mem_singleton.mp hmem
  have hfile (name : String) (hname : name ≠ PRESERVE) (h : (disk.content ["1", name]).isSome = true) :
      name = "obmcdump_1_1.tar" := by
    obtain ⟨c, hc⟩ := Option.isSome_iff_exists.mp h
    have hmem : name ∈ disk.children ["1"] := by
      rw [mem_children]
      exact (mem_iff _ _).mpr ⟨_, (content_eq_some disk _ _).mp hc⟩
    rw [hdir] at hmem
    rcases List.mem_cons.mp hmem with h | h
    · exact absurd h hname
    · exact List.mem_singleton.mp h
  refine ⟨fun d hnum => ⟨1, by decide, hone d hnum⟩, fun d name name' hnum hname hname' h h' => ?_⟩
  obtain rfl := hone d hnum
  rw [hfile name hname h, hfile name' hname' h']

private theorem content_of_plain {o : Option Content} {size : Nat}
    (h : (o.map fun c => (c.size, c.json.isNone)) = some (size, true)) : o = some ⟨size, none⟩ := by
  obtain ⟨⟨size', json⟩, rfl, hc⟩ := Option.map_eq_some_iff.mp h
  obtain ⟨rfl, hjson⟩ := Prod.mk.inj hc
  obtain rfl : json = none := Option.isNone_iff_eq_none.mp hjson
  rfl

private theorem leaves_of_file {ev : Event Request FileEvent} {s t : BmcDaemon} {n : Nat} {file : Path}
    (hslot : (s.entries[n]?.join.bind fun e => e.base.file) = some file)
    (hfile : t.disk.content file = s.disk.content file)
    (hfiles : ∀ f, ev = .files f → t.disk.content (document (toString n)) = s.disk.content (document (toString n))) :
    Leaves n s ev t := by
  refine ⟨fun e file' he hfile' => ?_, hfiles⟩
  rw [he] at hslot
  have hsame : e.base.file = some file := hslot
  rw [hfile'] at hsame
  cases hsame
  exact hfile

private theorem content_of_removed (s : BmcDaemon) {p q : Path} (h : ¬ p <+: q) :
    (files s (.removeAll p)).disk.content q = s.disk.content q := by
  rw [FileTree.content, files, removeAll_nodes s h]
  rfl

private def overwritten : List (Event Request FileEvent) :=
  filesReady ++ .handle writtenEvent :: [.handle writtenEvent, .files (.removeAll ["1", "obmcdump_2_1.tar"])]

/-- Two archives are closed in the directory of the first one, then the second archive goes. -/
theorem overwritten_document_forgets_originator : ∃ s u e, Started defaultConfig s ∧
    run (step (bmcOps defaultConfig)) s overwritten = some u ∧
    EachStep (step (bmcOps defaultConfig)) (Writes defaultConfig) s overwritten ∧ Canonical u.disk ∧
    u.entries[1]? = some (some e) ∧ e.base.status = .Completed ∧
    e.base.file = some [toString 1, archiveName 1 1 "tar"] ∧
    Since (step (bmcOps defaultConfig)) (Stores defaultConfig 1) (Leaves 1) True s overwritten ∧
    ¬ RestartKeeps defaultConfig u 1 e := by
  have h : ((run (step (bmcOps defaultConfig)) (bare ⟨false⟩ .root) filesReady).bind fun t =>
      (step (bmcOps defaultConfig) t (.handle writtenEvent)).bind fun (v : BmcDaemon) =>
      (step (bmcOps defaultConfig) v (.handle writtenEvent)).map fun (w : BmcDaemon) =>
      let u := files w (.removeAll ["1", "obmcdump_2_1.tar"])
      decide (Stores defaultConfig 1 t (.handle writtenEvent) ∧
        (v.entries[1]?.join.bind fun e => e.base.file) = some ["1", "obmcdump_1_1.tar"] ∧
        ((v.disk.content ["1", "obmcdump_1_1.tar"]).map fun c => (c.size, c.json.isNone)) = some (0, true) ∧
        ((w.disk.content ["1", "obmcdump_1_1.tar"]).map fun c => (c.size, c.json.isNone)) = some (0, true) ∧
        (w.entries[1]?.join.map fun e => (e.base.originatorId, e.base.status, e.base.file)) =
          some ("alice", .Completed, some ["1", "obmcdump_1_1.tar"]) ∧
        u.disk.children [] = ["1"] ∧ u.disk.children ["1"] = [".preserve", "obmcdump_1_1.tar"] ∧
        ((final (restore defaultConfig ⟨u.disk.children, fun _ => true, 0⟩ (bare ⟨false⟩ u.disk))).entries[1]?.join.map
          fun e => e.base.originatorId) = some "")) = some true := by decide +kernel
  obtain ⟨t, hready, h⟩ := Option.bind_eq_some_iff.mp h
  obtain ⟨v, hfirst, h⟩ := Option.bind_eq_some_iff.mp h
  obtain ⟨w, hsecond, h⟩ := Option.map_eq_some_iff.mp h
  obtain ⟨hstores, hslot, hv, hw, hentry, hroot, hdir, hrestored⟩ := of_decide_eq_true h
  obtain ⟨e, he, hdata⟩ := Option.map_eq_some_iff.mp hentry
  obtain ⟨horiginator, hdata⟩ := Prod.mk.inj hdata
  obtain ⟨hcompleted, hfile⟩ := Prod.mk.inj hdata
  have hjoin := Option.join_eq_some_iff.mp he
  have hkept : w.disk.content ["1", "obmcdump_1_1.tar"] = v.disk.content ["1", "obmcdump_1_1.tar"] :=
    (content_of_plain hw).trans (content_of_plain hv).symm
  have hrun : run (step (bmcOps defaultConfig)) (bare ⟨false⟩ .root) overwritten =
      some (files w (.removeAll ["1", "obmcdump_2_1.tar"])) :=
    run_append.mpr ⟨t, hready, run_cons.mpr ⟨v, hfirst, run_cons.mpr ⟨w, hsecond, rfl⟩⟩⟩
  refine ⟨_, _, e, started_root defaultConfig, hrun, by decide +kernel, canonical_of_children hroot hdir, hjoin,
    hcompleted, hfile, since_of_step hready hstores fun v' hv' => ?_, fun hkeeps => ?_⟩
  · obtain rfl : v = v' := Option.some.inj (hfirst.symm.trans hv')
    intro w' hw'
    obtain rfl : w = w' := Option.some.inj (hsecond.symm.trans hw')
    intro u hu
    cases hu
    have hslot' : (w.entries[1]?.join.bind fun e => e.base.file) = some ["1", "obmcdump_1_1.tar"] := by
      rw [he]
      exact hfile
    refine .inr ⟨.inr ⟨trivial, leaves_of_file hslot hkept (by simp)⟩, leaves_of_file hslot' ?_ fun _ _ => ?_⟩
    · exact content_of_removed w (by decide)
    · exact content_of_removed w (by decide)
  · obtain ⟨x, r, e', hrestore, he', hbase⟩ := hkeeps
      ⟨(files w (.removeAll ["1", "obmcdump_2_1.tar"])).disk.children, fun _ => true, 0⟩ (fun _ => .rfl) fun _ _ => rfl
    rw [hrestore, final_ok, he'] at hrestored
    have hempty : e'.base.originatorId = "" := Option.some.inj hrestored
    rw [hbase, horiginator] at hempty
    exact absurd hempty (by decide)

private def oneReady : List (Event Request FileEvent) :=
  [.createDump aliceRequest, .files (.mkdir [] "1"), .watchReady [], .handle plainEvent,
    .files (.openFile ["1"] "obmcdump_1_1.tar"), .files (.closeFile ["1"] "obmcdump_1_1.tar"), .watchReady ["1"]]

theorem stored_originator_survives : ∃ u e, run (step (bmcOps defaultConfig)) (bare ⟨false⟩ .root)
    (oneReady ++ [.handle writtenEvent]) = some u ∧ u.entries[1]? = some (some e) ∧ e.base.originatorId = "alice" ∧
    RestartKeeps defaultConfig u 1 e := by
  have h : ((run (step (bmcOps defaultConfig)) (bare ⟨false⟩ .root) oneReady).bind fun t =>
      (step (bmcOps defaultConfig) t (.handle writtenEvent)).map fun (u : BmcDaemon) =>
      decide (Stores defaultConfig 1 t (.handle writtenEvent) ∧
        (u.entries[1]?.join.map fun e => (e.base.originatorId, e.base.status, e.base.file)) =
          some ("alice", .Completed, some ["1", "obmcdump_1_1.tar"]) ∧
        u.disk.children [] = ["1"] ∧ u.disk.children ["1"] = [".preserve", "obmcdump_1_1.tar"])) = some true := by
    decide +kernel
  obtain ⟨t, hready, h⟩ := Option.bind_eq_some_iff.mp h
  obtain ⟨u, hlast, h⟩ := Option.map_eq_some_iff.mp h
  obtain ⟨hstores, hentry, hroot, hdir⟩ := of_decide_eq_true h
  obtain ⟨e, he, hdata⟩ := Option.map_eq_some_iff.mp hentry
  obtain ⟨horiginator, hdata⟩ := Prod.mk.inj hdata
  obtain ⟨hcompleted, hfile⟩ := Prod.mk.inj hdata
  have hrun : run (step (bmcOps defaultConfig)) (bare ⟨false⟩ .root) (oneReady ++ [.handle writtenEvent]) = some u :=
    run_append.mpr ⟨t, hready, run_cons.mpr ⟨u, hlast, rfl⟩⟩
  refine ⟨u, e, hrun, Option.join_eq_some_iff.mp he, horiginator, ?_⟩
  exact restart_keeps_of_keepsDocument (by decide) (started_root defaultConfig) hrun (by decide +kernel)
    (by decide +kernel) (canonical_of_children hroot hdir) (Option.join_eq_some_iff.mp he) hcompleted hfile
    (since_of_step hready hstores fun _ _ => trivial)

end Files

end DumpCollector.Bmc.Restart
