import DumpCollector.Bmc.Steps

namespace DumpCollector.Bmc.Confluence

open Std Lib.Directory Lib.Effects Lib.Maps Lib.Runs Entries FileNames Inotify Requests State Dispatch Frames
open DumpCollector.Steps Slots Bmc.Manager Bmc.Steps

def finalEntry (s : BmcDaemon) (n : Nat) : Option (OperationStatus × Option Path × Nat × Nat) :=
  s.entries[n]?.join.map fun e => (e.base.status, e.base.file, e.base.size, e.base.completedTime)

section Blind

/-- A daemon without the members that only requests and the notifications of children use. -/
def childless (s : BmcDaemon) : BmcDaemon :=
  { s with lastEntryId := 0, childPtrMap := ∅, own := ⟨false⟩, procs := ∅ }

variable (s : BmcDaemon) (dir p : Path) (name : String)

theorem childless_mkdir : (childless s).mkdir dir name = childless (s.mkdir dir name) := by
  simp only [Daemon.mkdir]
  rw [apply_ite childless]
  rfl

theorem childless_openFile : (childless s).openFile dir name = childless (s.openFile dir name) := by
  simp only [Daemon.openFile]
  rw [apply_ite childless, apply_ite childless]
  rfl

theorem childless_writeFile (content : Content) :
    (childless s).writeFile dir name content = childless (s.writeFile dir name content) := by
  simp only [Daemon.writeFile]
  rw [apply_ite childless]
  rfl

theorem childless_closeFile : (childless s).closeFile dir name = childless (s.closeFile dir name) := by
  simp only [Daemon.closeFile]
  rw [apply_ite childless]
  rfl

theorem childless_removeAll : (childless s).removeAll p = childless (s.removeAll p) := rfl

theorem childless_serialize (e : BmcEntry) (outcome : Serialization) :
    serialize e outcome (childless s) = childless (serialize e outcome s) := by
  simp only [serialize]
  cases outcome with
  | notCreated => rfl
  | notOpened => exact childless_mkdir s _ _
  | notEncoded => simp only [childless_mkdir, childless_openFile, childless_closeFile, childless_removeAll]
  | written => simp only [writeDocument, childless_mkdir, childless_openFile, childless_writeFile, childless_closeFile]

variable (cfg : Config) (io : FileEvent) (file : Path)

theorem blind_fileSize : Blind childless (fileSize file : BmcOp Nat) := by
  refine blind_get_bind (fun _ => rfl) fun s => ?_
  cases s.disk.content file with
  | none => exact blind_throw _
  | some content => exact blind_pure _

theorem blind_createOrUpdate (id timestamp : Nat) : Blind childless (createOrUpdate cfg io file id timestamp) := by
  refine blind_get_bind (fun _ => rfl) fun s => blind_bind (blind_fileSize file) fun size => ?_
  rcases s.entries[id]? with _ | _ | e
  · cases io.construction with
    | done => exact blind_modify fun _ => rfl
    | invalidArgument => exact blind_pure _
    | failed => exact blind_throw _
  · exact blind_pure _
  · exact blind_modify fun s => childless_serialize
      { s with entries := s.entries.insert id (some (updated e timestamp size file)) } _ _

theorem blind_createEntry : Blind childless (createEntry cfg io file) := by
  refine blind_bind (blind_bind (blind_fromExcept _) fun details => ?_) fun details => ?_
  · rcases details with _ | ⟨id, timestamp⟩
    · exact blind_pure _
    · exact blind_bind (blind_fileSize file) fun size => blind_pure _
  · rcases details with _ | ⟨id, timestamp, size⟩
    · exact blind_pure _
    · exact blind_createOrUpdate cfg io file id timestamp

theorem blind_watchItem (path : Path) (mask : Nat) : Blind childless (watchItem (bmcOps cfg) io path mask) := by
  refine blind_get_bind (fun _ => rfl) fun s => ?_
  refine blind_ite (blind_ite (blind_bind (blind_modify fun _ => rfl) fun _ => blind_createEntry cfg io path)
    (blind_modify fun _ => rfl)) ?_
  exact blind_ite (blind_bind (blind_throwIf _ _) fun _ => blind_modify fun _ => rfl) (blind_pure _)

theorem step_childless :
    step (bmcOps cfg) (childless s) (.handle io) = (step (bmcOps cfg) s (.handle io)).map childless := by
  cases htodo : s.todo with
  | nil => simp only [step, childless, htodo, Option.map_none]
  | cons x rest =>
      have hblind := blind_watchItem cfg io x.1 x.2 { s with todo := rest }
      have hstep : ∀ u : BmcDaemon, u.todo = x :: rest →
          step (bmcOps cfg) u (.handle io) = dispatched (watchItem (bmcOps cfg) io x.1 x.2 { u with todo := rest }) :=
        fun u hu => by simp only [step, hu]
      rw [hstep _ htodo, hstep (childless s) htodo]
      change dispatched (watchItem (bmcOps cfg) io x.1 x.2 (childless { s with todo := rest })) = _
      rw [hblind]
      cases watchItem (bmcOps cfg) io x.1 x.2 { s with todo := rest } <;> rfl

end Blind

section Directories

def DirsFrom (s t : BmcDaemon) : Prop :=
  ∀ q, t.disk.isDirectory q = true → s.disk.isDirectory q = true ∨ filename q = PRESERVE

instance reflDirsFrom : Std.Refl DirsFrom := ⟨fun _ _ h => .inl h⟩

theorem DirsFrom.trans {s t u : BmcDaemon} (h : DirsFrom s t) (k : DirsFrom t u) : DirsFrom s u :=
  fun q hq => (k q hq).elim (h q) .inr

instance transDirsFrom : IsTrans BmcDaemon DirsFrom := ⟨fun _ _ _ h k => h.trans k⟩

variable (s : BmcDaemon) (dir : Path) (name : String)

theorem dirsFrom_mkdir : DirsFrom s (s.mkdir dir PRESERVE) := by
  intro q hq
  rw [Daemon.mkdir] at hq
  split at hq
  · rcases isDirectory_of_mkdir hq with hq | rfl
    · exact .inl hq
    · exact .inr (filename_append dir PRESERVE)
  · exact .inl hq

theorem dirsFrom_openFile : DirsFrom s (s.openFile dir name) := by
  intro q hq
  rw [Daemon.openFile] at hq
  split at hq
  · split at hq <;> exact .inl (isDirectory_of_write hq)
  · exact .inl hq

theorem dirsFrom_writeFile (content : Content) : DirsFrom s (s.writeFile dir name content) := by
  intro q hq
  rw [Daemon.writeFile] at hq
  split at hq
  · exact .inl (isDirectory_of_write hq)
  · exact .inl hq

theorem dirsFrom_closeFile : DirsFrom s (s.closeFile dir name) := by
  intro q hq
  rw [Daemon.closeFile] at hq
  split at hq <;> exact .inl hq

theorem dirsFrom_removeAll (p : Path) : DirsFrom s (s.removeAll p) := fun _ hq => .inl (isDirectory_of_removeAll hq)

theorem dirsFrom_serialize (e : BmcEntry) (outcome : Serialization) : DirsFrom s (serialize e outcome s) := by
  simp only [serialize]
  cases outcome with
  | notCreated => exact dirsFrom_removeAll s _
  | notOpened => exact dirsFrom_mkdir s _
  | notEncoded =>
      exact (((dirsFrom_mkdir s _).trans (dirsFrom_openFile _ _ _)).trans (dirsFrom_closeFile _ _ _)).trans
        (dirsFrom_removeAll _ _)
  | written =>
      exact (((dirsFrom_mkdir s _).trans (dirsFrom_openFile _ _ _)).trans (dirsFrom_writeFile _ _ _ _)).trans
        (dirsFrom_closeFile _ _ _)

theorem keeps_createEntry (cfg : Config) (io : FileEvent) (file : Path) : Keeps DirsFrom (createEntry cfg io file) := by
  have hsize : Keeps DirsFrom (fileSize file : BmcOp Nat) := by
    refine keeps_get_bind fun s => ?_
    cases s.disk.content file with
    | none => exact keeps_throw _ s
    | some content => exact keeps_pure _ s
  refine keeps_bind (keeps_bind (keeps_fromExcept _) fun details => ?_) fun details => ?_
  · rcases details with _ | ⟨id, timestamp⟩
    · exact keeps_pure _
    · exact keeps_bind hsize fun size => keeps_pure _
  · rcases details with _ | ⟨id, timestamp, size⟩
    · exact keeps_pure _
    · refine keeps_bind keeps_get fun s => keeps_bind hsize fun size => ?_
      rcases s.entries[id]? with _ | _ | e
      · cases io.construction with
        | done => exact keeps_modify fun s q hq => .inl hq
        | invalidArgument => exact keeps_pure _
        | failed => exact keeps_throw _
      · exact keeps_pure _
      · exact keeps_modify fun s => dirsFrom_serialize
          { s with entries := s.entries.insert id (some (updated e timestamp size file)) } _ _

theorem DirsFrom.regular {s t : BmcDaemon} (h : DirsFrom s t) {plat : Platform} {path : Path} {n : Nat}
    (hnamed : namedId plat (filename path) = some n) (hs : s.disk.isDirectory path = false) :
    t.disk.isDirectory path = false := by
  rw [Bool.eq_false_iff]
  intro hdir
  rcases h path hdir with hdir | hname
  · rw [hs] at hdir
    cases hdir
  · have hnone : namedId plat PRESERVE = none := rfl
    rw [hname, hnone] at hnamed
    cases hnamed

end Directories

section Batch

variable {cfg : Config} {s t : BmcDaemon} {n : Nat} {path : Path}

def handles (ios : List FileEvent) : List (Event Request FileEvent) := ios.map .handle

theorem run_childless {ios : List FileEvent} :
    run (step (bmcOps cfg)) (childless s) (handles ios) = (run (step (bmcOps cfg)) s (handles ios)).map childless := by
  induction ios generalizing s with
  | nil => rfl
  | cons io ios ih =>
      simp only [handles, List.map_cons, run, step_childless]
      cases step (bmcOps cfg) s (.handle io) with
      | none => rfl
      | some u => exact ih

theorem handle_frame {io : FileEvent} (h : step (bmcOps cfg) s (.handle io) = some t) :
    t.todo = s.todo.tail ∧ t.childPtrMap = s.childPtrMap ∧ t.procs = s.procs := by
  obtain ⟨path, mask, rest, htodo, ⟨-, -, u, hc⟩ | ⟨-, -, rfl⟩ | ⟨-, -, -, rfl⟩ | ⟨-, -, rfl⟩⟩ := step_handle h
  · have hfiled := createEntry_filed hc
    rw [htodo]
    exact ⟨hfiled.todo, hfiled.childPtrMap, hfiled.procs⟩
  all_goals
    rw [htodo]
    exact ⟨rfl, rfl, rfl⟩

theorem handles_frame {ios : List FileEvent} (h : run (step (bmcOps cfg)) s (handles ios) = some t) :
    t.todo = s.todo.drop ios.length ∧ t.childPtrMap = s.childPtrMap ∧ t.procs = s.procs := by
  induction ios generalizing s with
  | nil =>
      cases h
      exact ⟨rfl, rfl, rfl⟩
  | cons io ios ih =>
      obtain ⟨u, hu, hrun⟩ := run_cons.mp h
      obtain ⟨htodo, hchildren, hprocs⟩ := handle_frame hu
      obtain ⟨htodo', hchildren', hprocs'⟩ := ih hrun
      refine ⟨?_, hchildren'.trans hchildren, hprocs'.trans hprocs⟩
      rw [htodo', htodo, List.drop_tail, List.length_cons]

theorem handle_entry {io : FileEvent} (h : step (bmcOps cfg) s (.handle io) = some t) {e : BmcEntry}
    (he : s.entries[n]? = some (some e)) :
    ∃ e', t.entries[n]? = some (some e') ∧ (e' = e ∨ ∃ path rest, s.todo = (path, IN_CLOSE_WRITE) :: rest ∧
      namedId cfg.plat (filename path) = some n ∧ e'.base.status = .Completed ∧ e'.base.file = some path) := by
  obtain ⟨path, mask, rest, htodo, ⟨rfl, -, u, hc⟩ | ⟨-, -, rfl⟩ | ⟨-, -, -, rfl⟩ | ⟨-, -, rfl⟩⟩ := step_handle h
  · rcases (createEntry_filed hc).entries with ⟨heq, -⟩ | ⟨m, e', hnamed, heq, hst, hfile, -⟩
    · exact ⟨e, heq ▸ he, .inl rfl⟩
    · rw [heq, insert_get]
      split
      · rename_i hm
        subst hm
        exact ⟨e', rfl, .inr ⟨path, rest, htodo, hnamed, hst, hfile⟩⟩
      · exact ⟨e, he, .inl rfl⟩
  all_goals exact ⟨e, he, .inl rfl⟩

theorem handle_completed {io : FileEvent} (h : step (bmcOps cfg) s (.handle io) = some t) {rest : List (Path × Nat)}
    (htodo : s.todo = (path, IN_CLOSE_WRITE) :: rest) (hregular : s.disk.isDirectory path = false)
    (hnamed : namedId cfg.plat (filename path) = some n) {e : BmcEntry} (he : s.entries[n]? = some (some e)) :
    ∃ e', t.entries[n]? = some (some e') ∧ e'.base.status = .Completed ∧ e'.base.file = some path := by
  obtain ⟨path', mask, rest', htodo', hcases⟩ := step_handle h
  rw [htodo] at htodo'
  cases htodo'
  rcases hcases with ⟨-, -, u, hc⟩ | ⟨-, hdir, -⟩ | ⟨hmask, -⟩ | ⟨hmask, -⟩
  · rcases (createEntry_filed hc).entries with ⟨-, hnone⟩ | ⟨m, e', hm, heq, hst, hfile, -⟩
    · exact absurd he (hnone n hnamed e)
    · rw [hnamed] at hm
      cases hm
      exact ⟨e', by rw [heq, insert_get, if_pos rfl], hst, hfile⟩
  · rw [hregular] at hdir
    cases hdir
  · cases hmask
  · exact absurd rfl hmask

theorem handles_entry {ios : List FileEvent} (h : run (step (bmcOps cfg)) s (handles ios) = some t) {e : BmcEntry}
    (he : s.entries[n]? = some (some e)) :
    ∃ e', t.entries[n]? = some (some e') ∧ (e' = e ∨ e'.base.status = .Completed) := by
  induction ios generalizing s e with
  | nil =>
      cases h
      exact ⟨e, he, .inl rfl⟩
  | cons io ios ih =>
      obtain ⟨u, hu, hrun⟩ := run_cons.mp h
      obtain ⟨e₁, he₁, hcases₁⟩ := handle_entry hu he
      obtain ⟨e₂, he₂, hcases₂⟩ := ih hrun he₁
      refine ⟨e₂, he₂, ?_⟩
      rcases hcases₂ with rfl | hst
      · exact hcases₁.imp_right fun ⟨_, _, _, _, hst, _⟩ => hst
      · exact .inr hst

theorem handle_dirs {io : FileEvent} (h : step (bmcOps cfg) s (.handle io) = some t) : DirsFrom s t := by
  obtain ⟨path, mask, rest, -, ⟨-, -, u, hc⟩ | ⟨-, -, rfl⟩ | ⟨-, -, -, rfl⟩ | ⟨-, -, rfl⟩⟩ := step_handle h
  · have hdirs := (keeps_createEntry cfg io path).ok hc
    exact hdirs
  all_goals exact fun q hq => .inl hq

/-- A daemon that goes through a batch with the close of the dump file of an entry
completes the entry, whatever else is in the batch. -/
theorem handles_completed {ios : List FileEvent} (h : run (step (bmcOps cfg)) s (handles ios) = some t)
    (hdone : t.todo = []) (hmem : (path, IN_CLOSE_WRITE) ∈ s.todo) (hregular : s.disk.isDirectory path = false)
    (hnamed : namedId cfg.plat (filename path) = some n) {e : BmcEntry} (he : s.entries[n]? = some (some e)) :
    ∃ e', t.entries[n]? = some (some e') ∧ e'.base.status = .Completed := by
  induction ios generalizing s e with
  | nil =>
      cases h
      rw [hdone] at hmem
      cases hmem
  | cons io ios ih =>
      obtain ⟨u, hu, hrun⟩ := run_cons.mp h
      obtain ⟨e₁, he₁, -⟩ := handle_entry hu he
      cases htodo : s.todo with
      | nil =>
          rw [htodo] at hmem
          cases hmem
      | cons x rest =>
          rw [htodo] at hmem
          rcases List.mem_cons.mp hmem with rfl | hrest
          · obtain ⟨e₂, he₂, hst, -⟩ := handle_completed hu htodo hregular hnamed he
            obtain ⟨e₃, he₃, rfl | hst₃⟩ := handles_entry hrun he₂
            · exact ⟨_, he₃, hst⟩
            · exact ⟨_, he₃, hst₃⟩
          · refine ih hrun ?_ ?_ he₁
            · rw [(handle_frame hu).1, htodo]
              exact hrest
            · exact (handle_dirs hu).regular hnamed hregular

end Batch

section Orders

variable {cfg : Config} {s t u : BmcDaemon} {n pid status : Nat} {dir path : Path} {ios : List FileEvent}

def endFirst (pid status : Nat) (dir : Path) (ios : List FileEvent) : List (Event Request FileEvent) :=
  .exits pid status :: .childNotification pid :: .watchReady dir :: handles ios

def filesFirst (pid status : Nat) (dir : Path) (ios : List FileEvent) : List (Event Request FileEvent) :=
  .exits pid status :: .watchReady dir :: (handles ios ++ [.childNotification pid])

theorem run_endFirst (h : run (step (bmcOps cfg)) s (endFirst pid status dir ios) = some t) :
    ∃ s₁ s₂ s₃, step (bmcOps cfg) s (.exits pid status) = some s₁ ∧
      step (bmcOps cfg) s₁ (.childNotification pid) = some s₂ ∧ step (bmcOps cfg) s₂ (.watchReady dir) = some s₃ ∧
      run (step (bmcOps cfg)) s₃ (handles ios) = some t := by
  obtain ⟨s₁, h₁, h⟩ := run_cons.mp h
  obtain ⟨s₂, h₂, h⟩ := run_cons.mp h
  obtain ⟨s₃, h₃, h⟩ := run_cons.mp h
  exact ⟨s₁, s₂, s₃, h₁, h₂, h₃, h⟩

theorem run_filesFirst (h : run (step (bmcOps cfg)) s (filesFirst pid status dir ios) = some u) :
    ∃ s₁ s₂ s₃, step (bmcOps cfg) s (.exits pid status) = some s₁ ∧
      step (bmcOps cfg) s₁ (.watchReady dir) = some s₂ ∧ run (step (bmcOps cfg)) s₂ (handles ios) = some s₃ ∧
      step (bmcOps cfg) s₃ (.childNotification pid) = some u := by
  obtain ⟨s₁, h₁, h⟩ := run_cons.mp h
  obtain ⟨s₂, h₂, h⟩ := run_cons.mp h
  obtain ⟨s₃, h₃, h⟩ := (run_append ..).mp h
  obtain ⟨s₄, h₄, h⟩ := run_cons.mp h
  cases h
  exact ⟨s₁, s₂, s₃, h₁, h₂, h₃, h₄⟩

theorem notify_exited {c : Collector DumpTypes} {p : Process DumpTypes} (hchild : s.childPtrMap[pid]? = some c)
    (hp : s.procs[pid]? = some p) (hstate : p.state = .exited status)
    (h : step (bmcOps cfg) s (.childNotification pid) = some t) :
    t = { s with
      entries := (ended (bmcOps cfg) pid status c s).entries
      own := childEnded c.kind s.own
      childPtrMap := s.childPtrMap.erase pid
      procs := s.procs.erase pid } := by
  obtain ⟨-, c', p', status', hchild', hp', hstatus, rfl⟩ := step_childNotification h
  rw [hchild] at hchild'
  rw [hp] at hp'
  cases hchild'
  cases hp'
  rw [hstate] at hstatus ⊢
  cases hstatus
  rfl

theorem ready_frame {w : Watch} (hw : watchAt s dir = some w) (h : step (bmcOps cfg) s (.watchReady dir) = some t) :
    t.todo = w.callback.2.toList ∧ t.entries = s.entries ∧ t.disk = s.disk ∧ t.childPtrMap = s.childPtrMap ∧
      t.procs = s.procs := by
  obtain ⟨-, w', hw', rfl⟩ := step_watchReady h
  rw [hw] at hw'
  cases hw'
  rw [setWatch]
  split <;> exact ⟨rfl, rfl, rfl, rfl, rfl⟩

theorem ready_childless (hst : childless s = childless t) (hs : step (bmcOps cfg) s (.watchReady dir) = some u)
    {v : BmcDaemon} (ht : step (bmcOps cfg) t (.watchReady dir) = some v) : childless u = childless v := by
  have hready : ∀ s u : BmcDaemon, step (bmcOps cfg) s (.watchReady dir) = some u →
      step (bmcOps cfg) (childless s) (.watchReady dir) = some (childless u) := by
    intro s u h
    obtain ⟨htodo, w, hw, rfl⟩ := step_watchReady h
    have hw' : watchAt (childless s) dir = some w := hw
    have htodo' : (childless s).todo = [] := htodo
    simp only [step, htodo', if_true, hw', Option.map_some]
    simp only [setWatch]
    split <;> rfl
  have hu := hready s u hs
  rw [hst, hready t v ht] at hu
  exact (Option.some.inj hu).symm

/-- What the callbacks make of a batch does not depend on what they are blind for. -/
theorem batch_childless {s₁ s₂ t₁ t₂ : BmcDaemon} (hst : childless s = childless t)
    (hs₁ : step (bmcOps cfg) s (.watchReady dir) = some s₁) (hs₂ : run (step (bmcOps cfg)) s₁ (handles ios) = some s₂)
    (ht₁ : step (bmcOps cfg) t (.watchReady dir) = some t₁) (ht₂ : run (step (bmcOps cfg)) t₁ (handles ios) = some t₂) :
    childless s₂ = childless t₂ := by
  have hrun : run (step (bmcOps cfg)) (childless s₁) (handles ios) = _ := run_childless
  rw [ready_childless hst hs₁ ht₁, run_childless, ht₂, hs₂] at hrun
  exact (Option.some.inj hrun).symm

variable {c : Collector DumpTypes} {e : BmcEntry} {w : Watch}

theorem ended_entry (cfg : Config) (pid : Nat) (v : BmcDaemon) (hstatus : status ≠ 0)
    (hv : v.entries[c.entryId]? = some (some e)) :
    (ended (bmcOps cfg) pid status c v).entries[c.entryId]? = some (some (DumpEntry.setFailedStatus e)) := by
  rw [ended_get, if_pos ⟨hstatus, rfl⟩, hv]
  rfl

/-- Both orders lead to the same entry exactly when the collector ends with status zero. -/
theorem orders_agree_iff (hchild : s.childPtrMap[pid]? = some c) (he : s.entries[c.entryId]? = some (some e))
    (hw : watchAt s dir = some w) (hfile : (path, IN_CLOSE_WRITE) ∈ w.callback.2.toList)
    (hregular : s.disk.isDirectory path = false) (hnamed : namedId cfg.plat (filename path) = some c.entryId)
    (ht : run (step (bmcOps cfg)) s (endFirst pid status dir ios) = some t)
    (hu : run (step (bmcOps cfg)) s (filesFirst pid status dir ios) = some u) :
    finalEntry t c.entryId = finalEntry u c.entryId ↔ status = 0 := by
  obtain ⟨s₁, s₂, s₃, h₁, hnotify, hready, hhandles⟩ := run_endFirst ht
  obtain ⟨v₁, v₂, v₃, hv₁, hready', hhandles', hnotify'⟩ := run_filesFirst hu
  obtain rfl : s₁ = v₁ := Option.some.inj (h₁.symm.trans hv₁)
  obtain ⟨p, hp, -, rfl⟩ := step_exits h₁
  have hchild₁ : (changeState s pid p (.exited status)).childPtrMap[pid]? = some c := hchild
  have hprocs : (changeState s pid p (.exited status)).procs[pid]? = some ⟨p.collector, .exited status⟩ :=
    (insert_get ..).trans (if_pos rfl)
  have hs₂ := notify_exited hchild₁ hprocs rfl hnotify
  have hw₁ : watchAt (changeState s pid p (.exited status)) dir = some w := hw
  have hw₂ : watchAt s₂ dir = some w := by rw [hs₂]; exact hw
  obtain ⟨htodo, hentries, hdisk, -, -⟩ := ready_frame hw₂ hready
  obtain ⟨htodo', hentries', -, hchildren', hprocs'⟩ := ready_frame hw₁ hready'
  obtain ⟨hrest, hchildren₃, hprocs₃⟩ := handles_frame hhandles'
  have hchild₃ : v₃.childPtrMap[pid]? = some c := by rw [hchildren₃, hchildren']; exact hchild
  have hp₃ : v₃.procs[pid]? = some ⟨p.collector, .exited status⟩ := by rw [hprocs₃, hprocs']; exact hprocs
  have hs₃ := notify_exited hchild₃ hp₃ rfl hnotify'
  by_cases hstatus : status = 0
  · -- nothing that the notification changes is looked at by the callbacks
    refine iff_of_true ?_ hstatus
    have hblind : childless s₂ = childless (changeState s pid p (.exited status)) := by
      rw [hs₂]
      simp only [ended, hstatus, if_true]
      rfl
    have hafter : childless t = childless v₃ := batch_childless hblind hready hhandles hready' hhandles'
    have hall : t.entries = u.entries := by
      have h := congrArg Daemon.entries hafter
      rw [hs₃]
      simp only [ended, hstatus, if_true]
      exact h
    rw [finalEntry, finalEntry, hall]
  · -- one order ends with the file, the other with the failure
    refine iff_of_false (fun heq => ?_) hstatus
    have hfailed : s₃.entries[c.entryId]? = some (some (DumpEntry.setFailedStatus e)) := by
      rw [hentries, hs₂]
      exact ended_entry cfg pid _ hstatus he
    have hdone : t.todo = [] := by
      rw [(handles_frame hhandles).1, htodo, ← htodo', ← hrest]
      exact (step_childNotification hnotify').1
    have hregular₃ : s₃.disk.isDirectory path = false := by
      rw [hdisk, hs₂]
      exact hregular
    obtain ⟨e₁, he₁, hst₁⟩ := handles_completed hhandles hdone (htodo ▸ hfile) hregular₃ hnamed hfailed
    obtain ⟨e₂, he₂, -⟩ := handles_entry hhandles' (e := e) (by rw [hentries']; exact he)
    have he₃ : u.entries[c.entryId]? = some (some (DumpEntry.setFailedStatus e₂)) := by
      rw [hs₃]
      exact ended_entry cfg pid v₃ hstatus he₂
    simp only [finalEntry, he₁, he₃, Option.join_some, Option.map_some, Option.some.injEq, Prod.mk.injEq] at heq
    rw [hst₁] at heq
    cases heq.1

end Orders

section Archive

private def archive : Path := ["1", "obmcdump_1_1.tar"]

private def packaged : List (Event Request FileEvent) :=
  [.createDump (plainRequest 7), .files (.mkdir [] "1"), .watchReady [], .handle plainEvent,
    .files (.openFile ["1"] "obmcdump_1_1.tar"), .files (.closeFile ["1"] "obmcdump_1_1.tar")]

private def packagedState : BmcDaemon :=
  (run (step (bmcOps defaultConfig)) (bare ⟨false⟩ .root) packaged).getD (bare ⟨false⟩ .root)

theorem late_failure_overwrites_completion : ∃ s t u, Started defaultConfig s ∧
    run (step (bmcOps defaultConfig)) s (packaged ++ endFirst 7 1 ["1"] [plainEvent]) = some t ∧
    run (step (bmcOps defaultConfig)) s (packaged ++ filesFirst 7 1 ["1"] [plainEvent]) = some u ∧
    finalEntry t 1 = some (.Completed, some archive, 0, 1000000) ∧
    finalEntry u 1 = some (.Failed, some archive, 0, 1000000) :=
  ⟨_, _, _, started_root defaultConfig, rfl, rfl, rfl, rfl⟩

theorem orders_agree_for_success : ∃ t u,
    run (step (bmcOps defaultConfig)) packagedState (endFirst 7 0 ["1"] [plainEvent]) = some t ∧
    run (step (bmcOps defaultConfig)) packagedState (filesFirst 7 0 ["1"] [plainEvent]) = some u ∧
    finalEntry t 1 = finalEntry u 1 := by
  have hchild : packagedState.childPtrMap[7]? = some ⟨.USER, 1⟩ := rfl
  have hw : watchAt packagedState ["1"] =
      some ⟨["1"], IN_CLOSE_WRITE, true, [⟨IN_CLOSE_WRITE, "obmcdump_1_1.tar"⟩]⟩ := rfl
  have hregular : packagedState.disk.isDirectory archive = false := by decide +kernel
  have hnamed : namedId defaultConfig.plat (filename archive) = some 1 := by decide +kernel
  obtain ⟨t, ht⟩ := Option.isSome_iff_exists.mp
    (show (run (step (bmcOps defaultConfig)) packagedState (endFirst 7 0 ["1"] [plainEvent])).isSome by decide +kernel)
  obtain ⟨u, hu⟩ := Option.isSome_iff_exists.mp
    (show (run (step (bmcOps defaultConfig)) packagedState (filesFirst 7 0 ["1"] [plainEvent])).isSome by
      decide +kernel)
  exact ⟨t, u, ht, hu, (orders_agree_iff hchild rfl hw (by decide +kernel) hregular hnamed ht hu).mpr rfl⟩

end Archive

end DumpCollector.Bmc.Confluence
