import DumpCollector.Dispatch

namespace DumpCollector.Frames

open Std Lib.Directory Lib.Effects Lib.Maps Entries Inotify Requests State Dispatch

variable {E X C R I : Type}

section Watches

structure Grows (w w' : Watch) : Prop where
  path : w'.path = w.path
  mask : w'.mask = w.mask
  queue : w.queue <+: w'.queue

theorem grows_rfl (w : Watch) : Grows w w := ⟨rfl, rfl, List.prefix_rfl⟩

theorem Grows.trans {w₁ w₂ w₃ : Watch} (h : Grows w₁ w₂) (k : Grows w₂ w₃) : Grows w₁ w₃ :=
  ⟨k.path.trans h.path, k.mask.trans h.mask, h.queue.trans k.queue⟩

theorem grows_notify (w : Watch) (dir : Path) (event : InotifyEvent) : Grows w (w.notify dir event) :=
  ⟨notify_path w event dir, notify_mask w event dir, prefix_notify w event dir⟩

theorem grows_ignored (w : Watch) (removed : Path) : Grows w (w.ignored removed) :=
  ⟨ignored_path w removed, ignored_mask w removed, prefix_ignored w removed⟩

/-- The watches of two states are the same, but for events received since. -/
structure WatchesGrow (s t : Daemon E X C) : Prop where
  root : Grows s.dumpWatch t.dumpWatch
  kept : ∀ (p : Path) (w : Watch), s.childWatchMap[p]? = some w → ∃ w', t.childWatchMap[p]? = some w' ∧ Grows w w'
  absent : ∀ (p : Path), s.childWatchMap[p]? = none → t.childWatchMap[p]? = none

theorem watchesGrow_rfl (s : Daemon E X C) : WatchesGrow s s :=
  ⟨grows_rfl _, fun _ w h => ⟨w, h, grows_rfl w⟩, fun _ h => h⟩

theorem watchesGrow_of_eq {s t : Daemon E X C} (hroot : t.dumpWatch = s.dumpWatch)
    (hchild : t.childWatchMap = s.childWatchMap) : WatchesGrow s t := by
  refine ⟨hroot ▸ grows_rfl _, ?_, ?_⟩
  · rw [hchild]
    exact fun _ w hw => ⟨w, hw, grows_rfl w⟩
  · rw [hchild]
    exact fun _ h => h

theorem WatchesGrow.trans {s t u : Daemon E X C} (h : WatchesGrow s t) (k : WatchesGrow t u) :
    WatchesGrow s u := by
  refine ⟨h.root.trans k.root, ?_, fun p hp => k.absent p (h.absent p hp)⟩
  intro p w hw
  obtain ⟨w₁, hw₁, hg₁⟩ := h.kept p w hw
  obtain ⟨w₂, hw₂, hg₂⟩ := k.kept p w₁ hw₁
  exact ⟨w₂, hw₂, hg₁.trans hg₂⟩

theorem WatchesGrow.back {s t : Daemon E X C} (h : WatchesGrow s t) {p : Path} {w' : Watch}
    (hw : t.childWatchMap[p]? = some w') : ∃ w, s.childWatchMap[p]? = some w ∧ Grows w w' := by
  cases hs : s.childWatchMap[p]? with
  | none =>
      rw [h.absent p hs] at hw
      cases hw
  | some w =>
      obtain ⟨w₁, hw₁, hg⟩ := h.kept p w hs
      rw [hw] at hw₁
      cases hw₁
      exact ⟨w, rfl, hg⟩

theorem watchesGrow_map {s t : Daemon E X C} {f : Watch → Watch} (hf : ∀ w, Grows w (f w))
    (hroot : t.dumpWatch = f s.dumpWatch) (hchild : t.childWatchMap = s.childWatchMap.map fun _ w => f w) :
    WatchesGrow s t := by
  refine ⟨hroot ▸ hf _, ?_, ?_⟩
  · intro p w hw
    exact ⟨f w, by rw [hchild, map_get, hw]; rfl, hf w⟩
  · intro p hp
    rw [hchild, map_get, hp]
    rfl

end Watches

section FilesOnly

structure FilesOnly (s t : Daemon E X C) : Prop where
  entries : t.entries = s.entries
  lastEntryId : t.lastEntryId = s.lastEntryId
  childPtrMap : t.childPtrMap = s.childPtrMap
  own : t.own = s.own
  todo : t.todo = s.todo
  procs : t.procs = s.procs
  watches : WatchesGrow s t

theorem filesOnly_rfl (s : Daemon E X C) : FilesOnly s s :=
  ⟨rfl, rfl, rfl, rfl, rfl, rfl, watchesGrow_rfl s⟩

theorem FilesOnly.trans {s t u : Daemon E X C} (h : FilesOnly s t) (k : FilesOnly t u) : FilesOnly s u :=
  ⟨k.entries.trans h.entries, k.lastEntryId.trans h.lastEntryId, k.childPtrMap.trans h.childPtrMap,
    k.own.trans h.own, k.todo.trans h.todo, k.procs.trans h.procs, h.watches.trans k.watches⟩

variable (s : Daemon E X C) (dir : Path) (name : String)

theorem filesOnly_disk (disk : FileTree Content) : FilesOnly s { s with disk := disk } :=
  ⟨rfl, rfl, rfl, rfl, rfl, rfl, watchesGrow_of_eq rfl rfl⟩

theorem filesOnly_notify (event : InotifyEvent) : FilesOnly s (s.notify dir event) :=
  ⟨rfl, rfl, rfl, rfl, rfl, rfl, watchesGrow_map (fun w => grows_notify w dir event) rfl rfl⟩

theorem filesOnly_removeAll (p : Path) : FilesOnly s (s.removeAll p) :=
  ⟨rfl, rfl, rfl, rfl, rfl, rfl, watchesGrow_map (fun w => grows_ignored w p) rfl rfl⟩

theorem filesOnly_mkdir : FilesOnly s (s.mkdir dir name) := by
  rw [Daemon.mkdir]
  split
  · exact (filesOnly_disk s _).trans (filesOnly_notify _ dir _)
  · exact filesOnly_rfl s

theorem filesOnly_openFile : FilesOnly s (s.openFile dir name) := by
  rw [Daemon.openFile]
  split
  · split
    · exact filesOnly_disk s _
    · exact (filesOnly_disk s _).trans (filesOnly_notify _ dir _)
  · exact filesOnly_rfl s

theorem filesOnly_writeFile (content : Content) : FilesOnly s (s.writeFile dir name content) := by
  rw [Daemon.writeFile]
  split
  · exact filesOnly_disk s _
  · exact filesOnly_rfl s

theorem filesOnly_closeFile : FilesOnly s (s.closeFile dir name) := by
  rw [Daemon.closeFile]
  split
  · exact filesOnly_notify s dir _
  · exact filesOnly_rfl s

theorem filesOnly_files (f : FileStep) : FilesOnly s (files s f) := by
  cases f with
  | mkdir dir name => exact filesOnly_mkdir s dir name
  | openFile dir name => exact filesOnly_openFile s dir name
  | writeFile dir name content => exact filesOnly_writeFile s dir name content
  | closeFile dir name => exact filesOnly_closeFile s dir name
  | removeAll p => exact filesOnly_removeAll s p

end FilesOnly

section Nodes

variable (s : Daemon E X C) {dir q : Path} {name : String}

theorem mkdir_nodes (hq : dir ++ [name] ≠ q) : (s.mkdir dir name).disk.nodes[q]? = s.disk.nodes[q]? := by
  rw [Daemon.mkdir]
  split
  · exact (mkdir_get s.disk dir q name).trans (if_neg fun h => hq h.1)
  · rfl

theorem openFile_nodes (hq : dir ++ [name] ≠ q) : (s.openFile dir name).disk.nodes[q]? = s.disk.nodes[q]? := by
  rw [Daemon.openFile]
  split
  · split <;> exact (write_get s.disk dir q name _).trans (if_neg fun h => hq h.1)
  · rfl

theorem writeFile_nodes (content : Content) (hq : dir ++ [name] ≠ q) :
    (s.writeFile dir name content).disk.nodes[q]? = s.disk.nodes[q]? := by
  rw [Daemon.writeFile]
  split
  · exact (write_get s.disk dir q name content).trans (if_neg fun h => hq h.1)
  · rfl

theorem closeFile_nodes : (s.closeFile dir name).disk.nodes[q]? = s.disk.nodes[q]? := by
  rw [Daemon.closeFile]
  split <;> rfl

theorem removeAll_nodes {p : Path} (hq : ¬ p <+: q) : (s.removeAll p).disk.nodes[q]? = s.disk.nodes[q]? :=
  (removeAll_get s.disk p q).trans (if_neg hq)

variable {s}

theorem mkdir_directory (hdir : s.disk.isDirectory dir = true)
    (hfree : (s.disk.content (dir ++ [name])).isNone = true) :
    (s.mkdir dir name).disk.isDirectory (dir ++ [name]) = true := by
  rw [Daemon.mkdir]
  by_cases hmem : dir ++ [name] ∈ s.disk.nodes
  · rw [if_neg fun h => h.2 hmem]
    obtain ⟨node, hnode⟩ := (mem_iff _ _).mp hmem
    cases node with
    | dir => exact (isDirectory_iff _ _).mpr hnode
    | file c =>
        rw [(content_eq_some _ _ _).mpr hnode] at hfree
        cases hfree
  · rw [if_pos ⟨hdir, hmem⟩]
    exact (isDirectory_iff _ _).mpr ((mkdir_get ..).trans (if_pos ⟨rfl, hdir, hmem⟩))

theorem openFile_content (hdir : s.disk.isDirectory dir = true) (hfree : s.disk.isDirectory (dir ++ [name]) = false) :
    (s.openFile dir name).disk.content (dir ++ [name]) = some ⟨0, none⟩ := by
  have hwritten : (s.disk.write dir name ⟨0, none⟩).content (dir ++ [name]) = some ⟨0, none⟩ :=
    (content_eq_some _ _ _).mpr ((write_get ..).trans (if_pos ⟨rfl, hdir, hfree⟩))
  rw [Daemon.openFile, if_pos ⟨hdir, hfree⟩]
  split <;> exact hwritten

theorem writeFile_content {old new : Content} (hold : s.disk.content (dir ++ [name]) = some old) :
    (s.writeFile dir name new).disk.content (dir ++ [name]) = some new := by
  have hmem : dir ++ [name] ∈ s.disk.nodes := (mem_iff _ _).mpr ⟨_, (content_eq_some _ _ _).mp hold⟩
  have hdir : s.disk.isDirectory dir = true := (isDirectory_iff _ _).mpr (s.disk.closed dir name hmem)
  have hfree := not_isDirectory_of_content hold
  have hsome : (s.disk.content (dir ++ [name])).isSome = true := hold ▸ rfl
  rw [Daemon.writeFile, if_pos hsome]
  exact (content_eq_some _ _ _).mpr ((write_get ..).trans (if_pos ⟨rfl, hdir, hfree⟩))

end Nodes

section Trimmed

/-- What is left when entries are deleted, by a request or for want of room: no entry
is new, and apart from the files nothing else of the daemon changes but its own members. -/
structure Trimmed (s t : Daemon E X C) : Prop where
  entries : ∀ (k : Nat) (v : Option E), t.entries[k]? = some v → s.entries[k]? = some v
  lastEntryId : t.lastEntryId = s.lastEntryId
  childPtrMap : t.childPtrMap = s.childPtrMap
  todo : t.todo = s.todo
  procs : t.procs = s.procs
  watches : WatchesGrow s t

instance reflTrimmed : Std.Refl (Trimmed (E := E) (X := X) (C := C)) :=
  ⟨fun s => ⟨fun _ _ h => h, rfl, rfl, rfl, rfl, watchesGrow_rfl s⟩⟩

instance transTrimmed : IsTrans (Daemon E X C) Trimmed :=
  ⟨fun _ _ _ h k => ⟨fun key v hv => h.entries key v (k.entries key v hv),
    k.lastEntryId.trans h.lastEntryId, k.childPtrMap.trans h.childPtrMap, k.todo.trans h.todo,
    k.procs.trans h.procs, h.watches.trans k.watches⟩⟩

theorem Trimmed.not_mem {s t : Daemon E X C} (h : Trimmed s t) {k : Nat} (hk : k ∉ s.entries) : k ∉ t.entries := by
  intro hmem
  obtain ⟨v, hv⟩ := Option.isSome_iff_exists.mp (ExtTreeMap.mem_iff_isSome_getElem?.mp hmem)
  exact hk (ExtTreeMap.mem_iff_isSome_getElem?.mpr (by rw [h.entries k v hv]; rfl))

theorem FilesOnly.trimmed {s t : Daemon E X C} (h : FilesOnly s t) : Trimmed s t :=
  ⟨fun k v hv => by rwa [h.entries] at hv, h.lastEntryId, h.childPtrMap, h.todo, h.procs, h.watches⟩

theorem trimmed_own (s : Daemon E X C) (own : X) : Trimmed s { s with own := own } :=
  ⟨fun _ _ h => h, rfl, rfl, rfl, rfl, watchesGrow_of_eq rfl rfl⟩

theorem keeps_modifyOwn (f : X → X) : Keeps Trimmed (modifyOwn f : Op E X C Unit) :=
  keeps_modify fun s => trimmed_own s _

theorem trimmed_erase (s : Daemon E X C) (key : Nat) : Trimmed s { s with entries := s.entries.erase key } := by
  refine ⟨?_, rfl, rfl, rfl, rfl, watchesGrow_of_eq rfl rfl⟩
  intro k v hv
  rw [erase_get] at hv
  split at hv
  · cases hv
  · exact hv

variable [DumpEntry E]

theorem trimmed_deleteEntry (s : Daemon E X C) (e : E) : Trimmed s (s.deleteEntry e) := by
  rw [Daemon.deleteEntry]
  split
  · exact trans_of Trimmed (filesOnly_removeAll s _).trimmed (trimmed_erase _ _)
  · exact trimmed_erase s _

theorem deleteAt_some {key : Nat} {s : Daemon E X C} {e : E} (h : s.entries[key]? = some (some e)) :
    deleteAt key s = .ok () (s.deleteEntry e) := by
  simp only [deleteAt, get_bind, h, modify_apply]

theorem deleteAt_empty {key : Nat} {s : Daemon E X C} (h : ∀ e, s.entries[key]? ≠ some (some e)) :
    deleteAt key s = .error .nullDereference s := by
  rcases hs : s.entries[key]? with _ | _ | e
  · simp only [deleteAt, get_bind, hs, throw_apply]
  · simp only [deleteAt, get_bind, hs, throw_apply]
  · exact absurd hs (h e)

theorem deleteAt_eq_ok {key : Nat} {s t : Daemon E X C} {u : Unit} :
    deleteAt key s = .ok u t ↔ ∃ e, s.entries[key]? = some (some e) ∧ t = s.deleteEntry e := by
  by_cases h : ∃ e, s.entries[key]? = some (some e)
  · obtain ⟨e, he⟩ := h
    simp [deleteAt_some he, he, eq_comm]
  · rw [deleteAt_empty (fun e he => h ⟨e, he⟩)]
    simp only [reduceCtorEq, false_iff]
    exact fun ⟨e, he, _⟩ => h ⟨e, he⟩

section Deletions

variable {Q : Daemon E X C → Daemon E X C → Prop} [Std.Refl Q] [IsTrans (Daemon E X C) Q]
  (hQ : ∀ s (k : Nat) (e : E), s.entries[k]? = some (some e) → Q s (s.deleteEntry e))
include hQ

omit [IsTrans (Daemon E X C) Q] in
theorem deleteAt_keeps (key : Nat) : Keeps Q (deleteAt key : Op E X C Unit) := by
  intro s
  by_cases h : ∃ e, s.entries[key]? = some (some e)
  · obtain ⟨e, he⟩ := h
    rw [deleteAt_some he]
    exact hQ s key e he
  · rw [deleteAt_empty (fun e he => h ⟨e, he⟩)]
    exact refl s

theorem deleteEach_keeps (keys : List Nat) : Keeps Q (deleteEach keys : Op E X C Unit) := by
  induction keys with
  | nil => exact keeps_pure ()
  | cons key keys ih => exact keeps_bind (deleteAt_keeps hQ key) fun _ => ih

theorem deleteAll_keeps : Keeps Q (deleteAll : Op E X C Unit) :=
  keeps_get_bind fun s => deleteEach_keeps hQ s.entries.keys s

theorem limitDumpEntries_keeps (limit : Nat) : Keeps Q (limitDumpEntries limit : Op E X C Unit) := by
  refine keeps_get_bind fun s => ?_
  exact keeps_ite (keeps_pure ()) (deleteEach_keeps hQ _) s

end Deletions

theorem keeps_deleteAt (key : Nat) : Keeps Trimmed (deleteAt key : Op E X C Unit) :=
  deleteAt_keeps (fun s _ e _ => trimmed_deleteEntry s e) key

theorem keeps_deleteEach (keys : List Nat) : Keeps Trimmed (deleteEach keys : Op E X C Unit) :=
  deleteEach_keeps (fun s _ e _ => trimmed_deleteEntry s e) keys

theorem keeps_deleteAll : Keeps Trimmed (deleteAll : Op E X C Unit) :=
  deleteAll_keeps fun s _ e _ => trimmed_deleteEntry s e

theorem keeps_limitDumpEntries (limit : Nat) : Keeps Trimmed (limitDumpEntries limit : Op E X C Unit) :=
  limitDumpEntries_keeps (fun s _ e _ => trimmed_deleteEntry s e) limit

end Trimmed

section Own

def SameOwn (s t : Daemon E X C) : Prop := t.own = s.own

instance reflSameOwn : Std.Refl (SameOwn (E := E) (X := X) (C := C)) := ⟨fun _ => rfl⟩

instance transSameOwn : IsTrans (Daemon E X C) SameOwn := ⟨fun _ _ _ h k => k.trans h⟩

theorem sameOwn_deleteEntry [DumpEntry E] (s : Daemon E X C) (e : E) : SameOwn s (s.deleteEntry e) := by
  rw [Daemon.deleteEntry]
  split <;> rfl

end Own

section Fork

def forked (pid : Nat) (kind : C) (s : Daemon E X C) : Daemon E X C :=
  { s with procs := s.procs.insert pid ⟨⟨kind, nextEntryId s⟩, .running⟩ }

def registered (pid : Nat) (kind : C) (s : Daemon E X C) : Daemon E X C :=
  { forked pid kind s with
    childPtrMap := s.childPtrMap.insertIfNew pid ⟨kind, nextEntryId s⟩
    lastEntryId := nextEntryId s }

theorem forkCollector_cases (f : Fork) (kind : C) (unregistered : X → X) (s : Daemon E X C) :
    (f.pid = none ∧ forkCollector f kind unregistered s = .error .internalFailure s) ∨
    (∃ pid, f.pid = some pid ∧ f.registered = false ∧ forkCollector f kind unregistered s =
      .error .internalFailure { forked pid kind s with own := unregistered s.own }) ∨
    (∃ pid, f.pid = some pid ∧ f.registered = true ∧ forkCollector f kind unregistered s =
      .ok (nextEntryId s) (registered pid kind s)) := by
  obtain ⟨pid, reg⟩ := f
  cases pid with
  | none => exact .inl ⟨rfl, rfl⟩
  | some pid =>
      cases reg with
      | false => exact .inr (.inl ⟨pid, rfl, rfl, rfl⟩)
      | true => exact .inr (.inr ⟨pid, rfl, rfl, rfl⟩)

/-- What a createDump of any manager can come to. Up to the fork it can only have deleted
entries; after it the new entry is inserted, unless something throws. -/
inductive Outcome [DumpEntry E] (f : Fork) (s : Daemon E X C) :
    EStateM.Result Exn (Daemon E X C) (Option Nat) → Prop
  | refused (e : Exn) (t : Daemon E X C) : Trimmed s t → Outcome f s (.error e t)
  | unregistered (e : Exn) (pid : Nat) (kind : C) (u : Daemon E X C) (own : X) :
      Trimmed s u → f.pid = some pid → f.registered = false →
      Outcome f s (.error e { forked pid kind u with own := own })
  | unfinished (r : EStateM.Result Exn (Daemon E X C) (Option Nat)) (pid : Nat) (kind : C) (u : Daemon E X C) :
      Trimmed s u → f.pid = some pid → f.registered = true → (∀ n t, r ≠ .ok (some n) t) →
      final r = registered pid kind u → Outcome f s r
  | inserted (pid : Nat) (kind : C) (u : Daemon E X C) (e : E) (own : X) :
      Trimmed s u → f.pid = some pid → f.registered = true →
      (DumpEntry.base e).id = nextEntryId u → (DumpEntry.base e).status = .InProgress →
      DumpEntry.file e = none →
      Outcome f s (.ok (some (nextEntryId u)) { registered pid kind u with
        entries := u.entries.insertIfNew (nextEntryId u) (some e)
        own := own })

theorem outcome_of_trimmed [DumpEntry E] {f : Fork} {s u : Daemon E X C} (h : Trimmed s u)
    {r : EStateM.Result Exn (Daemon E X C) (Option Nat)} (hr : Outcome f u r) : Outcome f s r := by
  cases hr with
  | refused e t ht => exact .refused e t (trans_of Trimmed h ht)
  | unregistered e pid kind v own hv hp hreg =>
      exact .unregistered e pid kind v own (trans_of Trimmed h hv) hp hreg
  | unfinished _ pid kind v hv hp hreg hr hfin =>
      exact .unfinished r pid kind v (trans_of Trimmed h hv) hp hreg hr hfin
  | inserted pid kind v e own hv hp hreg hid hst hfile =>
      exact .inserted pid kind v e own (trans_of Trimmed h hv) hp hreg hid hst hfile

/-- The steps in front of a fork keep what the outcome needs. -/
theorem outcome_bind [DumpEntry E] {α : Type} {f : Fork} {m : Op E X C α} {k : α → Op E X C (Option Nat)}
    (hm : Keeps Trimmed m) (hk : ∀ a s, Outcome f s (k a s)) (s : Daemon E X C) : Outcome f s ((m >>= k) s) := by
  cases h : m s with
  | ok a t =>
      rw [bind_of_ok h]
      exact outcome_of_trimmed (hm.ok h) (hk a t)
  | error e t =>
      rw [bind_of_error h]
      exact .refused e t (hm.error h)

def Limited [DumpEntry E] (limit : Nat) (f : Fork) (m : Op E X C (Option Nat)) : Prop :=
  ∃ k : Unit → Op E X C (Option Nat), m = limitDumpEntries limit >>= k ∧ ∀ u s, Outcome f s (k u s)

theorem Limited.outcome [DumpEntry E] {limit : Nat} {f : Fork} {m : Op E X C (Option Nat)} (hm : Limited limit f m)
    (s : Daemon E X C) : Outcome f s (m s) := by
  obtain ⟨k, rfl, hk⟩ := hm
  exact outcome_bind (keeps_limitDumpEntries limit) hk s

theorem outcome_fork [DumpEntry E] {f : Fork} {kind : C} {unregistered : X → X} {mk : Nat → Except Exn E}
    {k : Nat → Op E X C (Option Nat)} (hk : ∀ id s, ∃ own, k id s = .ok (some id) { s with own := own })
    (hmk : ∀ id e, mk id = .ok e →
      (DumpEntry.base e).id = id ∧ (DumpEntry.base e).status = .InProgress ∧ DumpEntry.file e = none)
    (s : Daemon E X C) :
    Outcome f s ((forkCollector f kind unregistered >>= fun id =>
      fromExcept (mk id) >>= fun e => insertEntry id e >>= fun _ => k id) s) := by
  rcases forkCollector_cases f kind unregistered s with ⟨-, h⟩ | ⟨pid, hpid, hreg, h⟩ | ⟨pid, hpid, hreg, h⟩
  · rw [bind_of_error h]
    exact .refused _ s (refl s)
  · rw [bind_of_error h]
    exact .unregistered _ pid kind s _ (refl s) hpid hreg
  · rw [bind_of_ok h]
    cases he : mk (nextEntryId s) with
    | error exn =>
        refine .unfinished _ pid kind s (refl s) hpid hreg ?_ rfl
        intro n t hr
        cases hr
    | ok e =>
        obtain ⟨hid, hst, hfile⟩ := hmk _ e he
        obtain ⟨own, hown⟩ := hk (nextEntryId s)
          { registered pid kind s with entries := s.entries.insertIfNew (nextEntryId s) (some e) }
        have hrun : (fromExcept (.ok e : Except Exn E) >>= fun e =>
            insertEntry (nextEntryId s) e >>= fun _ => k (nextEntryId s)) (registered pid kind s) =
            .ok (some (nextEntryId s)) { registered pid kind s with
              entries := s.entries.insertIfNew (nextEntryId s) (some e)
              own := own } := hown
        rw [hrun]
        exact .inserted pid kind s e own (refl s) hpid hreg hid hst hfile

end Fork

section Filed

theorem fileSize_some {s : Daemon E X C} {file : Path} {c : Content} (h : s.disk.content file = some c) :
    fileSize file s = .ok c.size s := by
  simp only [fileSize, get_bind, h, pure_apply]

theorem fileSize_none {s : Daemon E X C} {file : Path} (h : s.disk.content file = none) :
    fileSize file s = .error .filesystemError s := by
  simp only [fileSize, get_bind, h, throw_apply]

variable [DumpEntry E]

/-- What createEntry does with a file: it touches nothing but the files, the members of
the manager and the entry that the name of the file stands for, which is completed. -/
structure Filed (named : Option Nat) (file : Path) (s t : Daemon E X C) : Prop where
  lastEntryId : t.lastEntryId = s.lastEntryId
  childPtrMap : t.childPtrMap = s.childPtrMap
  todo : t.todo = s.todo
  procs : t.procs = s.procs
  watches : WatchesGrow s t
  entries : (t.entries = s.entries ∧ ∀ n, named = some n → ∀ e, s.entries[n]? ≠ some (some e)) ∨
    ∃ n e, named = some n ∧ t.entries = s.entries.insert n (some e) ∧
      (DumpEntry.base e).status = .Completed ∧ DumpEntry.file e = some file ∧
      ((s.entries[n]? = none ∧ (DumpEntry.base e).id = n) ∨
        ∃ e', s.entries[n]? = some (some e') ∧ (DumpEntry.base e).id = (DumpEntry.base e').id)

theorem filed_of_unchanged {named : Option Nat} {file : Path} {s : Daemon E X C}
    (h : ∀ n, named = some n → ∀ e, s.entries[n]? ≠ some (some e)) : Filed named file s s :=
  ⟨rfl, rfl, rfl, rfl, watchesGrow_rfl s, .inl ⟨rfl, h⟩⟩

theorem filed_insertIfNew {n : Nat} {file : Path} {s : Daemon E X C} {e : E}
    (hs : ∀ e, s.entries[n]? ≠ some (some e)) (hid : (DumpEntry.base e).id = n)
    (hst : (DumpEntry.base e).status = .Completed) (hfile : DumpEntry.file e = some file) :
    Filed (some n) file s { s with entries := s.entries.insertIfNew n (some e) } := by
  refine ⟨rfl, rfl, rfl, rfl, watchesGrow_of_eq rfl rfl, ?_⟩
  rcases hn : s.entries[n]? with _ | _ | e'
  · exact .inr ⟨n, e, rfl, insertIfNew_of_absent hn _, hst, hfile, .inl ⟨hn, hid⟩⟩
  · refine .inl ⟨?_, fun m hm => by cases hm; exact hs⟩
    exact insertIfNew_of_present hn _
  · exact absurd hn (hs e')

end Filed

end DumpCollector.Frames
