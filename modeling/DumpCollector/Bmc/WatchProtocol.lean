import DumpCollector.Bmc.Confluence
import DumpCollector.WatchPaths

namespace DumpCollector.Bmc.WatchProtocol

open Std Lib.Directory Lib.Effects Lib.Maps Lib.Runs Entries FileNames Inotify Requests State Dispatch Frames
open DumpCollector.Steps Slots WatchPaths Bmc.Manager Bmc.Steps Confluence

section Unread

/-- What holds of each event that has not been read, with the directory that is watched. -/
def Unread (R : Path → InotifyEvent → Prop) (s : BmcDaemon) : Prop :=
  (∀ e ∈ s.dumpWatch.queue, R s.dumpWatch.path e) ∧
  ∀ (p : Path) (w : Watch), s.childWatchMap[p]? = some w → ∀ e ∈ w.queue, R w.path e

variable {R : Path → InotifyEvent → Prop} {s : BmcDaemon} {dir : Path} {name : String}

theorem unread_map {t : BmcDaemon} (f : Watch → Watch)
    (hf : ∀ w, (∀ e ∈ w.queue, R w.path e) → ∀ e ∈ (f w).queue, R (f w).path e)
    (hroot : t.dumpWatch = f s.dumpWatch) (hchild : t.childWatchMap = s.childWatchMap.map fun _ w => f w)
    (hs : Unread R s) : Unread R t := by
  refine ⟨hroot ▸ hf _ hs.1, fun p w hw => ?_⟩
  rw [hchild, map_get] at hw
  obtain ⟨w₀, hw₀, rfl⟩ := Option.map_eq_some_iff.mp hw
  exact hf w₀ (hs.2 p w₀ hw₀)

theorem unread_notify {event : InotifyEvent} (hR : R dir event) (hs : Unread R s) : Unread R (s.notify dir event) := by
  refine unread_map (fun w => w.notify dir event) (fun w hw e he => ?_) rfl rfl hs
  rw [notify_path]
  rcases of_mem_notify w event dir he with he | ⟨rfl, rfl⟩
  · exact hw e he
  · exact hR

theorem unread_removeAll (hR : ∀ q, R q ⟨IN_IGNORED, ""⟩) (p : Path) (hs : Unread R s) : Unread R (s.removeAll p) := by
  refine unread_map (fun w => w.ignored p) (fun w hw e he => ?_) rfl rfl hs
  rw [ignored_path]
  rcases of_mem_ignored w p he with he | rfl
  · exact hw e he
  · exact hR _

theorem unread_mkdir (hR : R dir ⟨IN_CREATE ||| IN_ISDIR, name⟩) (hs : Unread R s) : Unread R (s.mkdir dir name) := by
  rw [Daemon.mkdir]
  split
  · exact unread_notify hR hs
  · exact hs

theorem unread_openFile (hR : R dir ⟨IN_CREATE, name⟩) (hs : Unread R s) : Unread R (s.openFile dir name) := by
  rw [Daemon.openFile]
  split
  · split
    · exact hs
    · exact unread_notify hR hs
  · exact hs

theorem unread_writeFile (content : Content) (hs : Unread R s) : Unread R (s.writeFile dir name content) := by
  rw [Daemon.writeFile]
  split <;> exact hs

theorem unread_closeFile (hR : R dir ⟨IN_CLOSE_WRITE, name⟩) (hs : Unread R s) : Unread R (s.closeFile dir name) := by
  rw [Daemon.closeFile]
  split
  · exact unread_notify hR hs
  · exact hs

end Unread

variable (cfg : Config) (n : Nat) (path : Path)

def OnlyFrom (dir : Path) (e : InotifyEvent) : Prop :=
  e.closes → namedId cfg.plat e.name = some n → dir ++ [e.name] = path

/-- What holds while the collector of an entry and the manager take their steps: the entry
is there, and nothing but its dump file can be taken for it. -/
structure Collecting (s : BmcDaemon) : Prop where
  entry : ∃ e, s.entries[n]? = some (some e)
  regular : s.disk.isDirectory path = false
  unread : Unread (OnlyFrom cfg n path) s
  todo : ∀ x ∈ s.todo, x.2 = IN_CLOSE_WRITE → namedId cfg.plat (filename x.1) = some n → x.1 = path

/-- The steps of collectors and those of the manager that handle what is reported of files.
Nothing is removed, and of the files that are closed only one has the id in its name. -/
def Interleaved : Event Request FileEvent → Prop
  | .files (.mkdir dir name) => dir ++ [name] ≠ path
  | .files (.openFile _ _) | .files (.writeFile _ _ _) => True
  | .files (.closeFile dir name) => namedId cfg.plat name = some n → dir ++ [name] = path
  | .files (.removeAll _) => False
  | .exits _ _ | .stops _ _ | .continues _ | .watchReady _ | .handle _ => True
  | .createDump _ | .delete _ | .deleteAll | .childNotification _ => False

section Collecting

variable {cfg : Config} {n : Nat} {path : Path} {s t : BmcDaemon}

theorem onlyFrom_of_open (dir : Path) (name : String) {mask : Nat} (h : mask &&& IN_CLOSE_WRITE = 0) :
    OnlyFrom cfg n path dir ⟨mask, name⟩ := fun hcloses => absurd h hcloses

theorem unread_serialize (e : BmcEntry) (outcome : Serialization) (hs : Unread (OnlyFrom cfg n path) s) :
    Unread (OnlyFrom cfg n path) (serialize e outcome s) := by
  have hignored : ∀ q, OnlyFrom cfg n path q ⟨IN_IGNORED, ""⟩ := fun q => onlyFrom_of_open q _ (by decide)
  have hclose : ∀ q, OnlyFrom cfg n path q ⟨IN_CLOSE_WRITE, SERIAL_FILE⟩ := fun q _ h => by
    have hnone : namedId cfg.plat SERIAL_FILE = none := rfl
    rw [hnone] at h
    cases h
  have hmkdir : ∀ parent, Unread (OnlyFrom cfg n path) (s.mkdir parent PRESERVE) :=
    fun parent => unread_mkdir (onlyFrom_of_open parent _ (by decide)) hs
  have hopen : ∀ parent dir, Unread (OnlyFrom cfg n path) ((s.mkdir parent PRESERVE).openFile dir SERIAL_FILE) :=
    fun parent dir => unread_openFile (onlyFrom_of_open dir _ (by decide)) (hmkdir parent)
  simp only [serialize]
  cases outcome with
  | notCreated => exact unread_removeAll hignored _ hs
  | notOpened => exact hmkdir _
  | notEncoded => exact unread_removeAll hignored _ (unread_closeFile (hclose _) (hopen _ _))
  | written => exact unread_closeFile (hclose _) (unread_writeFile _ (hopen _ _))

theorem preserves_createEntry (io : FileEvent) (file : Path) :
    Preserves (Unread (OnlyFrom cfg n path)) (createEntry cfg io file) := by
  intro s u t hs h
  cases createEntry_cases h with
  | ignored _ _ ht => exact ht ▸ hs
  | created _ _ _ _ _ _ _ ht =>
      subst ht
      exact hs
  | updated id timestamp c e _ _ _ ht =>
      subst ht
      exact unread_serialize _ _ hs

theorem handle_unread {io : FileEvent} (hs : Unread (OnlyFrom cfg n path) s)
    (h : step (bmcOps cfg) s (.handle io) = some t) : Unread (OnlyFrom cfg n path) t := by
  have herase : ∀ rest q, Unread (OnlyFrom cfg n path) (unwatched s rest q) := by
    refine fun rest q => ⟨hs.1, fun p w hw => hs.2 p w ?_⟩
    change (s.childWatchMap.erase q)[p]? = some w at hw
    rw [erase_get] at hw
    split at hw
    · cases hw
    · exact hw
  obtain ⟨file, mask, rest, -, ⟨-, -, u, hc⟩ | ⟨-, -, rfl⟩ | ⟨-, -, -, rfl⟩ | ⟨-, -, rfl⟩⟩ := step_handle h
  · exact preserves_createEntry io file _ u t (herase rest _) hc
  · exact herase rest _
  · refine ⟨hs.1, fun p w hw => ?_⟩
    change (s.childWatchMap.insertIfNew file (.new file IN_CLOSE_WRITE))[p]? = some w at hw
    rcases insertIfNew_cases hw with hw | ⟨-, -, rfl⟩
    · exact hs.2 p w hw
    · intro e he
      cases he
  · exact hs

theorem ready_unread {p : Path} (hs : Unread (OnlyFrom cfg n path) s)
    (h : step (bmcOps cfg) s (.watchReady p) = some t) :
    Unread (OnlyFrom cfg n path) t ∧
      ∀ x ∈ t.todo, x.2 = IN_CLOSE_WRITE → namedId cfg.plat (filename x.1) = some n → x.1 = path := by
  obtain ⟨-, w, hw, rfl⟩ := step_watchReady h
  have hqueue : ∀ e ∈ w.queue, OnlyFrom cfg n path w.path e := by
    rw [watchAt] at hw
    split at hw
    · cases hw
      exact hs.1
    · exact hs.2 p w hw
  have hsplit := fitting_append (maxBytes - 1) w.queue
  have hleft : ∀ e ∈ w.callback.1.queue, OnlyFrom cfg n path w.path e := fun e he =>
    hqueue e (by rw [← hsplit]; exact List.mem_append_right _ he)
  refine ⟨?_, fun x hx hclose hnamed => ?_⟩
  · rw [setWatch]
    split
    · exact ⟨hleft, hs.2⟩
    · refine ⟨hs.1, fun q w' hw' => ?_⟩
      change (s.childWatchMap.insert p w.callback.1)[q]? = some w' at hw'
      rw [insert_get] at hw'
      split at hw'
      · cases hw'
        exact hleft
      · exact hs.2 q w' hw'
  · obtain ⟨e, he, hcloses, hpath⟩ := close_of_mem_callback w hx hclose
    have hname : filename x.1 = e.name := by rw [hpath, filename_append]
    rw [hpath]
    exact hqueue e (by rw [← hsplit]; exact List.mem_append_left _ he) hcloses (hname ▸ hnamed)

/-- The steps that neither read nor handle what is reported of files change neither the
entries nor what is still to be handled. -/
theorem interleaved_frame {ev : Event Request FileEvent} (hev : Interleaved cfg n path ev)
    (hready : ∀ p, ev ≠ .watchReady p) (hhandle : ∀ io, ev ≠ .handle io) (h : step (bmcOps cfg) s ev = some t) :
    t.entries = s.entries ∧ t.todo = s.todo := by
  cases ev with
  | files f =>
      obtain rfl := step_files h
      exact ⟨(filesOnly_files s f).entries, (filesOnly_files s f).todo⟩
  | exits pid status =>
      obtain ⟨p, -, -, rfl⟩ := step_exits h
      exact ⟨rfl, rfl⟩
  | stops pid signal =>
      obtain ⟨p, -, -, -, rfl⟩ := step_stops h
      exact ⟨rfl, rfl⟩
  | continues pid =>
      obtain ⟨p, signal, -, -, rfl⟩ := step_continues h
      exact ⟨rfl, rfl⟩
  | watchReady p => exact absurd rfl (hready p)
  | handle io => exact absurd rfl (hhandle io)
  | createDump _ | delete _ | deleteAll | childNotification _ => exact hev.elim

theorem files_collecting {f : FileStep} (hnamed : namedId cfg.plat (filename path) = some n)
    (hs : Collecting cfg n path s) (hf : Interleaved cfg n path (.files f)) : Collecting cfg n path (files s f) := by
  have hfiles := filesOnly_files s f
  refine ⟨hfiles.entries ▸ hs.entry, ?_, ?_, hfiles.todo ▸ hs.todo⟩
  · cases f with
    | mkdir dir name =>
        rw [Bool.eq_false_iff]
        intro hdir
        simp only [files, Daemon.mkdir] at hdir
        split at hdir
        · exact Bool.eq_false_iff.mp hs.regular ((isDirectory_of_mkdir hdir).resolve_right (Ne.symm hf))
        · exact Bool.eq_false_iff.mp hs.regular hdir
    | openFile dir name => exact (dirsFrom_openFile s dir name).regular hnamed hs.regular
    | writeFile dir name content => exact (dirsFrom_writeFile s dir name content).regular hnamed hs.regular
    | closeFile dir name => exact (dirsFrom_closeFile s dir name).regular hnamed hs.regular
    | removeAll p => exact hf.elim
  · cases f with
    | mkdir dir name => exact unread_mkdir (onlyFrom_of_open dir _ (by decide)) hs.unread
    | openFile dir name => exact unread_openFile (onlyFrom_of_open dir _ (by decide)) hs.unread
    | writeFile dir name content => exact unread_writeFile content hs.unread
    | closeFile dir name => exact unread_closeFile (fun _ => hf) hs.unread
    | removeAll p => exact hf.elim

theorem step_collecting (hnamed : namedId cfg.plat (filename path) = some n) {ev : Event Request FileEvent}
    (hs : Collecting cfg n path s) (hev : Interleaved cfg n path ev) (h : step (bmcOps cfg) s ev = some t) :
    Collecting cfg n path t := by
  cases ev with
  | files f =>
      obtain rfl := step_files h
      exact files_collecting hnamed hs hev
  | exits pid status =>
      obtain ⟨p, -, -, rfl⟩ := step_exits h
      exact ⟨hs.entry, hs.regular, hs.unread, hs.todo⟩
  | stops pid signal =>
      obtain ⟨p, -, -, -, rfl⟩ := step_stops h
      exact ⟨hs.entry, hs.regular, hs.unread, hs.todo⟩
  | continues pid =>
      obtain ⟨p, signal, -, -, rfl⟩ := step_continues h
      exact ⟨hs.entry, hs.regular, hs.unread, hs.todo⟩
  | watchReady p =>
      obtain ⟨hunread, htodo⟩ := ready_unread hs.unread h
      obtain ⟨-, w, -, rfl⟩ := step_watchReady h
      refine ⟨?_, ?_, hunread, htodo⟩
      · have hentry := hs.entry
        rw [setWatch]
        split <;> exact hentry
      · have hregular := hs.regular
        rw [setWatch]
        split <;> exact hregular
  | handle io =>
      obtain ⟨e, he⟩ := hs.entry
      obtain ⟨e', he', -⟩ := handle_entry h he
      refine ⟨⟨e', he'⟩, (handle_dirs h).regular hnamed hs.regular, handle_unread hs.unread h, fun x hx => hs.todo x ?_⟩
      rw [(handle_frame h).1] at hx
      exact List.mem_of_mem_tail hx
  | createDump _ | delete _ | deleteAll | childNotification _ => exact hev.elim

end Collecting

section Reading

def CompletedWith (n : Nat) (path : Path) (s : BmcDaemon) : Prop :=
  ∃ e, s.entries[n]? = some (some e) ∧ e.base.status = .Completed ∧ e.base.file = some path

def Reported (n : Nat) (path : Path) (s : BmcDaemon) : Prop :=
  (path, IN_CLOSE_WRITE) ∈ s.todo ∨ CompletedWith n path s

def ReadsClose (d name : String) (s : BmcDaemon) : Event Request FileEvent → Prop
  | .watchReady p => p = [d] ∧ ∃ w ∈ s.childWatchMap[[d]]?, ∃ e ∈ (fitting (maxBytes - 1) w.queue).1,
      e.mask &&& IN_CLOSE_WRITE ≠ 0 ∧ e.name = name
  | _ => False

instance decidableReadsClose (d name : String) (s : BmcDaemon) (ev : Event Request FileEvent) :
    Decidable (ReadsClose d name s ev) :=
  match ev with
  | .watchReady p => inferInstanceAs (Decidable (p = [d] ∧ ∃ w ∈ s.childWatchMap[[d]]?,
      ∃ e ∈ (fitting (maxBytes - 1) w.queue).1, e.mask &&& IN_CLOSE_WRITE ≠ 0 ∧ e.name = name))
  | .createDump _ | .delete _ | .deleteAll | .files _ | .exits _ _ | .stops _ _ | .continues _ | .handle _
  | .childNotification _ => isFalse id

variable {cfg : Config} {n : Nat} {d name : String} {s t : BmcDaemon}

theorem completedWith_of_entries (h : t.entries = s.entries) (path : Path) :
    CompletedWith n path t ↔ CompletedWith n path s := by
  rw [CompletedWith, h, CompletedWith]

theorem ready_reported_iff {p : Path} (hw : Watching s) (h : step (bmcOps cfg) s (.watchReady p) = some t) :
    Reported n [d, name] t ↔ Reported n [d, name] s ∨ ReadsClose d name s (.watchReady p) := by
  obtain ⟨hdone, w, hwatch, rfl⟩ := step_watchReady h
  have hentries : CompletedWith n [d, name] { setWatch s p w.callback.1 with todo := w.callback.2.toList } ↔
      CompletedWith n [d, name] s := completedWith_of_entries (by unfold setWatch; split <;> rfl) _
  have htodo : ([d, name], IN_CLOSE_WRITE) ∉ s.todo := by
    rw [hdone]
    exact List.not_mem_nil
  have hread : ([d, name], IN_CLOSE_WRITE) ∈ w.callback.2.toList ↔ ReadsClose d name s (.watchReady p) := by
    by_cases hp : p = []
    · -- what the root watch reports lies directly in the dump directory
      subst hp
      cases hwatch
      refine ⟨fun hmem => ?_, fun hr => absurd hr.1 (by simp)⟩
      obtain ⟨name', m, heq⟩ := mem_callback hmem
      rw [hw.rootPath] at heq
      cases heq
    · rw [watchAt, if_neg hp] at hwatch
      obtain ⟨hpath, -, hmask⟩ := hw.child p w hwatch
      constructor
      · intro hmem
        obtain ⟨e, he, hcloses, heq⟩ := close_of_mem_callback w hmem rfl
        have heq' : [d] ++ [name] = w.path ++ [e.name] := heq
        obtain ⟨hd, hname⟩ := List.append_inj' heq' rfl
        have hpd : p = [d] := hpath.symm.trans hd.symm
        subst hpd
        exact ⟨rfl, w, hwatch, e, he, hcloses, (List.cons.inj hname).1.symm⟩
      · rintro ⟨rfl, w', hw', e, he, hcloses, rfl⟩
        rw [Option.mem_def, hwatch] at hw'
        cases hw'
        have hmem := mem_callback_of_close w hmask he hcloses
        rw [hpath] at hmem
        exact hmem
  rw [Reported, Reported, hentries, or_iff_right htodo, or_comm]
  exact or_congr_right hread

theorem handle_reported_iff {io : FileEvent} {path : Path} (hnamed : namedId cfg.plat (filename path) = some n)
    (hs : Collecting cfg n path s) (h : step (bmcOps cfg) s (.handle io) = some t) :
    Reported n path t ↔ Reported n path s := by
  obtain ⟨e, he⟩ := hs.entry
  obtain ⟨e', he', hcases⟩ := handle_entry h he
  constructor
  · rintro (hmem | ⟨e₁, he₁, hst, hfile⟩)
    · rw [(handle_frame h).1] at hmem
      exact .inl (List.mem_of_mem_tail hmem)
    · rw [he'] at he₁
      cases he₁
      rcases hcases with rfl | ⟨file, rest, htodo, hname, -, hfile'⟩
      · exact .inr ⟨e', he, hst, hfile⟩
      · have hmem : (file, IN_CLOSE_WRITE) ∈ s.todo := by rw [htodo]; exact List.mem_cons_self
        obtain rfl : file = path := hs.todo _ hmem rfl hname
        exact .inl hmem
  · rintro (hmem | ⟨e₁, he₁, hst, hfile⟩)
    · cases htodo : s.todo with
      | nil =>
          rw [htodo] at hmem
          cases hmem
      | cons x rest =>
          rw [htodo] at hmem
          rcases List.mem_cons.mp hmem with rfl | hrest
          · exact .inr (handle_completed h htodo hs.regular hnamed he)
          · exact .inl (by rw [(handle_frame h).1, htodo]; exact hrest)
    · rw [he] at he₁
      cases he₁
      rcases hcases with rfl | ⟨file, rest, htodo, hname, hst', hfile'⟩
      · exact .inr ⟨e', he', hst, hfile⟩
      · have hmem : (file, IN_CLOSE_WRITE) ∈ s.todo := by rw [htodo]; exact List.mem_cons_self
        obtain rfl : file = path := hs.todo _ hmem rfl hname
        exact .inr ⟨e', he', hst', hfile'⟩

/-- The step lemma: only a read of the watch on the directory brings the close of the dump
file to the manager. -/
theorem step_reported_iff (hnamed : namedId cfg.plat name = some n) (hw : Watching s)
    (hs : Collecting cfg n [d, name] s) {ev : Event Request FileEvent} (hev : Interleaved cfg n [d, name] ev)
    (h : step (bmcOps cfg) s ev = some t) :
    Reported n [d, name] t ↔ Reported n [d, name] s ∨ ReadsClose d name s ev := by
  by_cases hready : ∃ p, ev = .watchReady p
  · obtain ⟨p, rfl⟩ := hready
    exact ready_reported_iff hw h
  · have hreads : ¬ ReadsClose d name s ev := by
      cases ev with
      | watchReady p => exact absurd ⟨p, rfl⟩ hready
      | _ => exact id
    rw [or_iff_left hreads]
    by_cases hhandle : ∃ io, ev = .handle io
    · obtain ⟨io, rfl⟩ := hhandle
      exact handle_reported_iff hnamed hs h
    · obtain ⟨hentries, htodo⟩ := interleaved_frame hev (fun p hp => hready ⟨p, hp⟩) (fun io hio => hhandle ⟨io, hio⟩) h
      rw [Reported, Reported, htodo, completedWith_of_entries hentries]

structure Awaiting (cfg : Config) (n : Nat) (d : String) (s : BmcDaemon) : Prop where
  entry : ∃ e, s.entries[n]? = some (some e) ∧ e.base.status = .InProgress
  absent : [d] ∉ s.disk.nodes
  unread : Unread (fun _ e => namedId cfg.plat e.name ≠ some n) s
  todo : s.todo = []

theorem collecting_of_awaiting (h : Awaiting cfg n d s) : Collecting cfg n [d, name] s where
  entry := h.entry.imp fun _ he => he.1
  regular := by
    rw [Bool.eq_false_iff, ne_eq, isDirectory_iff]
    intro hdir
    have hparent := s.disk.closed [d] name ((mem_iff _ _).mpr ⟨_, hdir⟩)
    exact h.absent ((mem_iff _ _).mpr ⟨_, hparent⟩)
  unread := ⟨fun e he _ hname => absurd hname (h.unread.1 e he), fun p w hw e he _ hname =>
    absurd hname (h.unread.2 p w hw e he)⟩
  todo x hx := by
    rw [h.todo] at hx
    cases hx

theorem not_reported_of_awaiting (h : Awaiting cfg n d s) (path : Path) : ¬ Reported n path s := by
  rintro (hmem | ⟨e, he, hst, -⟩)
  · rw [h.todo] at hmem
    cases hmem
  · obtain ⟨e', he', hst'⟩ := h.entry
    rw [he] at he'
    cases he'
    rw [hst] at hst'
    cases hst'

/-- Whatever the order of the steps, once the manager has handled what was reported to it
the entry is completed with the dump file exactly if a read of the watch on the directory
returned the close of that file. -/
theorem completed_iff_readsClose {s₀ : BmcDaemon} {es₀ es : List (Event Request FileEvent)} (hs : Started cfg s₀)
    (hreach : run (step (bmcOps cfg)) s₀ es₀ = some s) (hwait : Awaiting cfg n d s)
    (hnamed : namedId cfg.plat name = some n) (hes : ∀ ev ∈ es, Interleaved cfg n [d, name] ev)
    (hrun : run (step (bmcOps cfg)) s es = some t) (hdone : t.todo = []) :
    CompletedWith n [d, name] t ↔ SomeStep (step (bmcOps cfg)) (ReadsClose d name) s es := by
  have hwatching : Watching s := invariant_run (step_watching (sound cfg)) hreach
    (watching_of_idle (restoring_of_started cfg hs).idle)
  have hkey := reached_iff_someStep (A := Interleaved cfg n [d, name])
    (J := fun s => Watching s ∧ Collecting cfg n [d, name] s) (P := Reported n [d, name]) (C := ReadsClose d name)
    (fun s ev t hJ hA h => ⟨step_watching (sound cfg) s ev t hJ.1 h, step_collecting hnamed hJ.2 hA h⟩)
    (fun s ev t hJ hA h => step_reported_iff hnamed hJ.1 hJ.2 hA h) hes hrun
    ⟨hwatching, collecting_of_awaiting hwait⟩
  rw [or_iff_right (not_reported_of_awaiting hwait _), Reported, hdone, or_iff_right List.not_mem_nil] at hkey
  exact hkey

end Reading

section Races

private def requested : BmcDaemon :=
  (run (step (bmcOps defaultConfig)) (bare ⟨false⟩ .root) [.createDump (plainRequest 7)]).getD (bare ⟨false⟩ .root)

private theorem requested_awaiting : Awaiting defaultConfig 1 "1" requested := by
  refine ⟨⟨create 1 1000000 0 none .InProgress "" 0 0, rfl, rfl⟩, by decide +kernel, ⟨nofun, fun p w hw => ?_⟩, rfl⟩
  have hnone : requested.childWatchMap[p]? = none := ExtTreeMap.getElem?_empty
  rw [hnone] at hw
  cases hw

def fastCollector : List (Event Request FileEvent) :=
  [.files (.mkdir [] "1"), .files (.openFile ["1"] "obmcdump_1_1.tar"), .files (.closeFile ["1"] "obmcdump_1_1.tar"),
    .watchReady [], .handle plainEvent, .watchReady ["1"]]

theorem unwatched_close_is_lost : ∃ s t, Started defaultConfig s ∧
    run (step (bmcOps defaultConfig)) s (.createDump (plainRequest 7) :: fastCollector) = some t ∧
    t.todo = [] ∧ t.dumpWatch.queue = [] ∧ (t.childWatchMap[["1"]]?.map Watch.queue) = some [] ∧
    (t.entries[1]?.join.map fun e => e.base.status) = some .InProgress :=
  ⟨_, _, started_root defaultConfig, rfl, rfl, rfl, rfl, rfl⟩

def watchedCollector : List (Event Request FileEvent) :=
  [.files (.mkdir [] "1"), .watchReady [], .handle plainEvent, .files (.openFile ["1"] "obmcdump_1_1.tar"),
    .files (.closeFile ["1"] "obmcdump_1_1.tar"), .watchReady ["1"], .handle plainEvent]

theorem watched_close_completes : ∃ t, run (step (bmcOps defaultConfig)) requested watchedCollector = some t ∧
    CompletedWith 1 ["1", "obmcdump_1_1.tar"] t := by
  have hreach : run (step (bmcOps defaultConfig)) (bare ⟨false⟩ .root) [.createDump (plainRequest 7)] =
      some requested := rfl
  have hnamed : namedId defaultConfig.plat "obmcdump_1_1.tar" = some 1 := by decide +kernel
  have hes : ∀ ev ∈ watchedCollector, Interleaved defaultConfig 1 ["1", "obmcdump_1_1.tar"] ev := by
    simp [watchedCollector, Interleaved]
  exact ⟨_, rfl, (completed_iff_readsClose (started_root defaultConfig) hreach requested_awaiting hnamed hes rfl
    rfl).mpr
    (by decide +kernel)⟩

end Races

end DumpCollector.Bmc.WatchProtocol
