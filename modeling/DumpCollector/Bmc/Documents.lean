import DumpCollector.Bmc.Isolation

namespace DumpCollector.Bmc.Documents

open Std Lib.Directory Lib.Effects Lib.Maps Lib.Runs Entries FileNames Inotify JsonText Requests State Dispatch Frames
open DumpCollector.Steps Slots Bmc.Manager Capture Bmc.Steps Isolation

section Serialization

def Writable (disk : FileTree Content) (dir : Path) : Prop :=
  (disk.content (dir ++ [PRESERVE])).isNone = true ∧ disk.isDirectory (dir ++ [PRESERVE] ++ [SERIAL_FILE]) = false

variable {e : BmcEntry} {dir : Path} {name : String} {s : BmcDaemon}

theorem serialize_elsewhere (hfile : e.base.file = some (dir ++ [name])) {q : Path} (hq : ¬ dir ++ [PRESERVE] <+: q) :
    (serialize e .written s).disk.nodes[q]? = s.disk.nodes[q]? := by
  have hdir : dir ++ [PRESERVE] ≠ q := fun h => hq (h ▸ List.prefix_rfl)
  have hdoc : dir ++ [PRESERVE] ++ [SERIAL_FILE] ≠ q := fun h => hq (h ▸ List.prefix_append _ _)
  simp only [serialize, hfile, Option.getD_some, List.dropLast_concat, writeDocument]
  rw [closeFile_nodes, writeFile_nodes _ _ hdoc, openFile_nodes _ hdoc, mkdir_nodes s hdir]

theorem serialize_document (hfile : e.base.file = some (dir ++ [name])) (hdir : s.disk.isDirectory dir = true)
    (hwritable : Writable s.disk dir) : ∃ size,
    (serialize e .written s).disk.content (dir ++ [PRESERVE] ++ [SERIAL_FILE]) = some ⟨size, some (serialized e)⟩ := by
  have hmade := mkdir_directory hdir hwritable.1
  have hne : dir ++ [PRESERVE] ≠ dir ++ [PRESERVE] ++ [SERIAL_FILE] := by simp
  have hfree : (s.mkdir dir PRESERVE).disk.isDirectory (dir ++ [PRESERVE] ++ [SERIAL_FILE]) = false := by
    rw [FileTree.isDirectory, mkdir_nodes s hne]
    exact hwritable.2
  refine ⟨(serialized e).dump.utf8ByteSize, ?_⟩
  simp only [serialize, hfile, Option.getD_some, List.dropLast_concat, writeDocument]
  rw [FileTree.content, closeFile_nodes]
  exact writeFile_content (openFile_content hmade hfree)

end Serialization

section Pruned

def Pruned (s t : BmcDaemon) : Prop :=
  ∀ d, (∀ p : Path, t.disk.nodes[d :: p]? = s.disk.nodes[d :: p]?) ∨ ∀ p : Path, t.disk.nodes[d :: p]? = none

def Clears (s t : BmcDaemon) : Prop := Shallow s → Shallow t ∧ Pruned s t

theorem pruned_of_disk {s t : BmcDaemon} (h : t.disk = s.disk) : Pruned s t := fun _ => .inl fun _ => by rw [h]

theorem Pruned.trans {s t u : BmcDaemon} (h : Pruned s t) (k : Pruned t u) : Pruned s u := by
  intro d
  rcases k d with hkept | hgone
  · rcases h d with hkept' | hgone'
    · exact .inl fun p => (hkept p).trans (hkept' p)
    · exact .inr fun p => (hkept p).trans (hgone' p)
  · exact .inr hgone

instance reflClears : Std.Refl Clears := ⟨fun _ hs => ⟨hs, pruned_of_disk rfl⟩⟩

instance transClears : IsTrans BmcDaemon Clears := by
  refine ⟨fun s t u h k hs => ?_⟩
  obtain ⟨ht, hst⟩ := h hs
  obtain ⟨hu, htu⟩ := k ht
  exact ⟨hu, hst.trans htu⟩

theorem pruned_removeAll (s : BmcDaemon) {file : Path} (hlen : file.length = 1 ∨ file.length = 2) :
    Pruned s (s.removeAll file.dropLast) := by
  intro d
  rcases file with _ | ⟨x, _ | ⟨y, _ | ⟨z, file⟩⟩⟩
  · simp at hlen
  · exact .inr fun p => (removeAll_get ..).trans (if_pos List.nil_prefix)
  · have hdir : [x, y].dropLast = [x] := rfl
    rw [hdir]
    by_cases hd : x = d
    · subst hd
      exact .inr fun p => (removeAll_get ..).trans (if_pos ⟨p, rfl⟩)
    · refine .inl fun p => removeAll_nodes s fun hp => hd ?_
      simpa using hp
  · simp at hlen

theorem clears_deleteEntry (s : BmcDaemon) (k : Nat) (e : BmcEntry) (he : s.entries[k]? = some (some e)) :
    Clears s (s.deleteEntry e) := by
  intro hs
  refine ⟨fun i e' file hi hfile => hs i e' file ((trimmed_deleteEntry s e).entries i _ hi) hfile, ?_⟩
  cases hfile : e.base.file with
  | none =>
      have hfile' : DumpEntry.file e = none := hfile
      apply pruned_of_disk
      rw [Daemon.deleteEntry, hfile']
  | some file =>
      have hfile' : DumpEntry.file e = some file := hfile
      have hremoved := pruned_removeAll s (hs k e file he hfile)
      rw [Daemon.deleteEntry, hfile']
      exact hremoved

variable (cfg : Config) {s t : BmcDaemon}

theorem createDump_pruned (r : Request) (hs : Shallow s) : Pruned s (final (createDump cfg r s)) := by
  have hprepare : Pruned s (final (prepare cfg r s)) := (prepare_keeps clears_deleteEntry r s hs).2
  have hcaptured := createDump_captured cfg r s
  generalize createDump cfg r s = result at hcaptured
  cases hcaptured with
  | refused e t hstarts ht => exact ht ▸ hprepare
  | unregistered pid type u hstarts hu hregistered => exact hu ▸ hprepare
  | unconstructed e pid type u hstarts hu hregistered hconstruction => exact hu ▸ hprepare
  | inserted pid type u originatorId originatorType hstarts hu hregistered hconstruction => exact hu ▸ hprepare

theorem step_pruned {ev : Event Request FileEvent} (hs : Shallow s) (h : step (bmcOps cfg) s ev = some t)
    (hfiles : ∀ f, ev ≠ .files f) (hhandle : ∀ io, ev ≠ .handle io) : Pruned s t := by
  cases ev with
  | createDump r =>
      obtain ⟨-, -, hresult⟩ := step_createDump h
      have hfinal := (final_map some (createDump cfg r) s).symm.trans (final_of_reply (reply_eq_some.mpr hresult))
      exact hfinal ▸ createDump_pruned cfg r hs
  | delete id =>
      obtain ⟨-, e, he, rfl⟩ := step_delete h
      exact (clears_deleteEntry s id e he hs).2
  | deleteAll =>
      obtain ⟨-, hresult⟩ := step_deleteAll h
      have hcleared := deleteAll_keeps clears_deleteEntry s
      rw [final_of_reply (reply_eq_some.mpr hresult)] at hcleared
      exact (hcleared hs).2
  | files f => exact absurd rfl (hfiles f)
  | exits pid status =>
      obtain ⟨p, -, -, rfl⟩ := step_exits h
      exact pruned_of_disk rfl
  | stops pid signal =>
      obtain ⟨p, -, -, -, rfl⟩ := step_stops h
      exact pruned_of_disk rfl
  | continues pid =>
      obtain ⟨p, signal, -, -, rfl⟩ := step_continues h
      exact pruned_of_disk rfl
  | watchReady p =>
      obtain ⟨-, w, -, rfl⟩ := step_watchReady h
      apply pruned_of_disk
      rw [setWatch]
      split <;> rfl
  | handle io => exact absurd rfl (hhandle io)
  | childNotification pid =>
      obtain ⟨-, c, p, status, -, -, -, rfl⟩ := step_childNotification h
      apply pruned_of_disk
      cases p.state <;> rfl

end Pruned

end DumpCollector.Bmc.Documents
