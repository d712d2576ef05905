import DumpCollector.Frames

namespace DumpCollector.Steps

open Std Lib.Directory Lib.Effects Lib.Maps Entries Inotify Requests State Dispatch Frames

variable {E X C R I : Type}

/-- What the shared code relies on in a manager: a request has one of the outcomes, and
a file changes nothing but the entry its name stands for. -/
structure Sound [DumpEntry E] (ops : Ops E X C R I) (named : Path → Option Nat) : Prop where
  createDump : ∀ r s, Outcome (ops.fork r) s (ops.createDump r s)
  createEntry : ∀ io file s u t, ops.createEntry io file s = .ok u t → Filed (named file) file s t

section Results

theorem reply_eq_some {α : Type} {r : EStateM.Result Exn (Daemon E X C) α} {t : Daemon E X C} :
    reply r = some t ↔ (∃ a, r = .ok a t) ∨ ∃ e, e ≠ .nullDereference ∧ r = .error e t := by
  rcases r with ⟨a, u⟩ | ⟨e, u⟩
  · simp [reply]
  · cases e <;> simp [reply]

theorem final_of_reply {α : Type} {r : EStateM.Result Exn (Daemon E X C) α} {t : Daemon E X C}
    (h : reply r = some t) : final r = t := by
  rcases reply_eq_some.mp h with ⟨a, rfl⟩ | ⟨e, -, rfl⟩ <;> rfl

theorem dispatched_eq_some {α : Type} {r : EStateM.Result Exn (Daemon E X C) α} {t : Daemon E X C} :
    dispatched r = some t ↔ ∃ a, r = .ok a t := by
  rcases r with ⟨a, u⟩ | ⟨e, u⟩ <;> simp [dispatched]

end Results

section Callbacks

variable {ops : Ops E X C R I}

theorem watchItem_cases {io : I} {path : Path} {mask : Nat} {s t : Daemon E X C} {u : Unit}
    (h : watchItem ops io path mask s = .ok u t) :
    (mask = IN_CLOSE_WRITE ∧ s.disk.isDirectory path = false ∧
      ops.createEntry io path { s with childWatchMap := s.childWatchMap.erase path.dropLast } = .ok u t) ∨
    (mask = IN_CLOSE_WRITE ∧ s.disk.isDirectory path = true ∧
      t = { s with childWatchMap := s.childWatchMap.erase path }) ∨
    (mask = IN_CREATE ∧ s.disk.isDirectory path = true ∧ ops.watchInstalled io = true ∧
      t = { s with childWatchMap := s.childWatchMap.insertIfNew path (.new path IN_CLOSE_WRITE) }) ∨
    (mask ≠ IN_CLOSE_WRITE ∧ (mask = IN_CREATE → s.disk.isDirectory path = false) ∧ t = s) := by
  rw [watchItem] at h
  rw [get_bind] at h
  by_cases hclose : mask = IN_CLOSE_WRITE
  · cases hdir : s.disk.isDirectory path with
    | false =>
        simp only [hclose, hdir, if_true] at h
        exact .inl ⟨hclose, rfl, h⟩
    | true =>
        simp only [hclose, hdir, if_true, Bool.true_eq_false, if_false] at h
        cases h
        exact .inr (.inl ⟨hclose, rfl, rfl⟩)
  · simp only [hclose, if_false] at h
    by_cases hcreate : mask = IN_CREATE ∧ s.disk.isDirectory path = true
    · simp only [hcreate, and_self, if_true] at h
      cases hw : ops.watchInstalled io with
      | false =>
          rw [hw] at h
          cases h
      | true =>
          rw [hw] at h
          cases h
          exact .inr (.inr (.inl ⟨hcreate.1, hcreate.2, rfl, rfl⟩))
    · simp only [hcreate, if_false] at h
      cases h
      refine .inr (.inr (.inr ⟨hclose, fun hm => ?_, rfl⟩))
      exact Bool.eq_false_iff.mpr fun hd => hcreate ⟨hm, hd⟩

def unwatched (s : Daemon E X C) (rest : List (Path × Nat)) (p : Path) : Daemon E X C :=
  { s with todo := rest, childWatchMap := s.childWatchMap.erase p }

def watched (s : Daemon E X C) (rest : List (Path × Nat)) (p : Path) : Daemon E X C :=
  { s with todo := rest, childWatchMap := s.childWatchMap.insertIfNew p (.new p IN_CLOSE_WRITE) }

variable [DumpEntry E]

def ended (ops : Ops E X C R I) (pid status : Nat) (c : Collector C) (s : Daemon E X C) : Daemon E X C :=
  { s with
    entries :=
      if status = 0 then s.entries
      else s.entries.alter c.entryId fun slot => some ((slot.getD none).map DumpEntry.setFailedStatus)
    own := ops.childEnded c.kind s.own
    childPtrMap := s.childPtrMap.erase pid }

theorem childCallback_eq (pid status : Nat) (c : Collector C) (s : Daemon E X C) :
    childCallback ops pid status c s = .ok () (ended ops pid status c s) := by
  by_cases h : status = 0
  · simp only [childCallback, whenever, ended, h, ne_eq, not_true_eq_false, decide_false, if_true]
    rfl
  · simp only [childCallback, whenever, ended, h, ne_eq, not_false_eq_true, decide_true, if_true, if_false]
    rfl

end Callbacks

section Step

variable [DumpEntry E] {ops : Ops E X C R I} {s t : Daemon E X C}

theorem step_createDump {r : R} (h : step ops s (.createDump r) = some t) :
    s.todo = [] ∧ (ops.fork r).fresh s = true ∧
      ((∃ n, ops.createDump r s = .ok n t) ∨ ∃ e, e ≠ .nullDereference ∧ ops.createDump r s = .error e t) := by
  simp only [step] at h
  split at h
  · rename_i hc
    exact ⟨hc.1, hc.2, reply_eq_some.mp h⟩
  · cases h

theorem step_delete {id : Nat} (h : step ops s (.delete id) = some t) :
    s.todo = [] ∧ ∃ e, s.entries[id]? = some (some e) ∧ t = s.deleteEntry e := by
  simp only [step] at h
  split at h
  · rename_i hc
    refine ⟨hc.1, ?_⟩
    rcases hs : s.entries[id]? with _ | _ | e
    · simp [hs] at hc
    · simp [hs] at hc
    · rw [deleteAt_some hs] at h
      cases h
      exact ⟨e, rfl, rfl⟩
  · cases h

theorem step_deleteAll (h : step ops s .deleteAll = some t) :
    s.todo = [] ∧ ((∃ u, deleteAll s = .ok u t) ∨ ∃ e, e ≠ .nullDereference ∧ deleteAll s = .error e t) := by
  simp only [step] at h
  split at h
  · rename_i hc
    exact ⟨hc, reply_eq_some.mp h⟩
  · cases h

theorem step_files {f : FileStep} (h : step ops s (.files f) = some t) : t = files s f := by
  cases h
  rfl

theorem step_exits {pid status : Nat} (h : step ops s (.exits pid status) = some t) :
    ∃ p, s.procs[pid]? = some p ∧ (∀ status', p.state ≠ .exited status') ∧
      t = changeState s pid p (.exited status) := by
  simp only [step] at h
  split at h
  · cases h
  · rename_i p hne hp
    cases h
    exact ⟨p, hp, fun status' hs => hne p.collector status' (by rw [← hs]), rfl⟩
  · cases h

theorem step_stops {pid signal : Nat} (h : step ops s (.stops pid signal) = some t) :
    ∃ p, s.procs[pid]? = some p ∧ p.state = .running ∧ signal ≠ 0 ∧
      t = changeState s pid p (.stopped signal) := by
  simp only [step] at h
  split at h
  · rename_i c hp
    split at h
    · cases h
    · rename_i hsig
      cases h
      exact ⟨_, hp, rfl, hsig, rfl⟩
  · cases h

theorem step_continues {pid : Nat} (h : step ops s (.continues pid) = some t) :
    ∃ p signal, s.procs[pid]? = some p ∧ p.state = .stopped signal ∧ t = changeState s pid p .running := by
  simp only [step] at h
  split at h
  · rename_i c signal hp
    cases h
    exact ⟨_, signal, hp, rfl, rfl⟩
  · cases h

theorem step_watchReady {p : Path} (h : step ops s (.watchReady p) = some t) :
    s.todo = [] ∧ ∃ w, watchAt s p = some w ∧
      t = { setWatch s p w.callback.1 with todo := w.callback.2.toList } := by
  simp only [step] at h
  split at h
  · rename_i hc
    obtain ⟨w, hw, rfl⟩ := Option.map_eq_some_iff.mp h
    exact ⟨hc, w, hw, rfl⟩
  · cases h

theorem step_handle {io : I} (h : step ops s (.handle io) = some t) :
    ∃ path mask rest, s.todo = (path, mask) :: rest ∧
      ((mask = IN_CLOSE_WRITE ∧ s.disk.isDirectory path = false ∧
          ∃ u, ops.createEntry io path (unwatched s rest path.dropLast) = .ok u t) ∨
        (mask = IN_CLOSE_WRITE ∧ s.disk.isDirectory path = true ∧ t = unwatched s rest path) ∨
        (mask = IN_CREATE ∧ s.disk.isDirectory path = true ∧ ops.watchInstalled io = true ∧
          t = watched s rest path) ∨
        (mask ≠ IN_CLOSE_WRITE ∧ (mask = IN_CREATE → s.disk.isDirectory path = false) ∧
          t = { s with todo := rest })) := by
  simp only [step] at h
  split at h
  · cases h
  · rename_i path mask rest htodo
    obtain ⟨u, hitem⟩ := dispatched_eq_some.mp h
    refine ⟨path, mask, rest, htodo, ?_⟩
    rcases watchItem_cases hitem with ⟨hm, hd, hc⟩ | hc | hc | hc
    · exact .inl ⟨hm, hd, u, hc⟩
    · exact .inr (.inl hc)
    · exact .inr (.inr (.inl hc))
    · exact .inr (.inr (.inr hc))

theorem step_childNotification {pid : Nat} (h : step ops s (.childNotification pid) = some t) :
    s.todo = [] ∧ ∃ c p status, s.childPtrMap[pid]? = some c ∧ s.procs[pid]? = some p ∧
      siStatus p.state = some status ∧ t = reap pid p.state (ended ops pid status c s) := by
  simp only [step] at h
  split at h
  · rename_i hc
    refine ⟨hc, ?_⟩
    split at h
    · rename_i c p hchild hp
      split at h
      · rename_i status hstatus
        rw [childCallback_eq] at h
        cases h
        exact ⟨c, p, status, hchild, hp, hstatus, rfl⟩
      · cases h
    · cases h
  · cases h

/-- What a step can do, by its kind: it is a request, or it trims what is there, or it
changes the state of a process, or it is one of the three that step the event loop. -/
inductive StepCases (ops : Ops E X C R I) (s t : Daemon E X C) : Event R I → Prop
  | request (r : R) (hfresh : (ops.fork r).fresh s = true) (hfinal : final (ops.createDump r s) = t) :
      StepCases ops s t (.createDump r)
  | trimmed (ev : Event R I) (hev : ∀ r, ev ≠ .createDump r) (htrim : Trimmed s t) (hown : t.own = s.own) :
      StepCases ops s t ev
  | changed (ev : Event R I) (hev : ∀ r, ev ≠ .createDump r) (pid : Nat) (p : Process C) (state : ProcessState)
      (hp : s.procs[pid]? = some p) (halive : ∀ status, p.state ≠ .exited status)
      (ht : t = changeState s pid p state) : StepCases ops s t ev
  | read (p : Path) : StepCases ops s t (.watchReady p)
  | handled (io : I) : StepCases ops s t (.handle io)
  | notified (pid : Nat) : StepCases ops s t (.childNotification pid)

theorem step_cases {ev : Event R I} (h : step ops s ev = some t) : StepCases ops s t ev := by
  cases ev with
  | createDump r =>
      obtain ⟨-, hfresh, hrun⟩ := step_createDump h
      exact .request r hfresh (final_of_reply (reply_eq_some.mpr hrun))
  | delete id =>
      obtain ⟨-, e, -, rfl⟩ := step_delete h
      exact .trimmed _ nofun (trimmed_deleteEntry s e) (sameOwn_deleteEntry s e)
  | deleteAll =>
      obtain ⟨-, hrun⟩ := step_deleteAll h
      have hfinal := final_of_reply (reply_eq_some.mpr hrun)
      have htrim := keeps_deleteAll s
      have hown := deleteAll_keeps (fun s _ e _ => sameOwn_deleteEntry s e) s
      rw [hfinal] at htrim hown
      exact .trimmed _ nofun htrim hown
  | files f =>
      obtain rfl := step_files h
      exact .trimmed _ nofun (filesOnly_files s f).trimmed (filesOnly_files s f).own
  | exits pid status =>
      obtain ⟨p, hp, halive, ht⟩ := step_exits h
      exact .changed _ nofun pid p _ hp halive ht
  | stops pid signal =>
      obtain ⟨p, hp, hrunning, -, ht⟩ := step_stops h
      exact .changed _ nofun pid p _ hp (fun status hs => by rw [hrunning] at hs; cases hs) ht
  | continues pid =>
      obtain ⟨p, signal, hp, hstopped, ht⟩ := step_continues h
      exact .changed _ nofun pid p _ hp (fun status hs => by rw [hstopped] at hs; cases hs) ht
  | watchReady p => exact .read p
  | handle io => exact .handled io
  | childNotification pid => exact .notified pid

end Step

end DumpCollector.Steps
