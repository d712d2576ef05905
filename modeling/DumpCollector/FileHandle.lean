import DumpCollector.Bmc.Steps
import DumpCollector.FaultLog.Steps
import DumpCollector.Fdr.Steps
import DumpCollector.System.Steps

namespace DumpCollector.FileHandle

open Std Lib.Directory Lib.Effects Lib.Maps Lib.Runs Entries FileNames Inotify Requests State Dispatch Frames
open DumpCollector.Steps Slots

variable {E X C R I : Type} [DumpEntry E]

section GetFileHandle

inductive Refusal
  | unavailable
  | openFailed (errno : Nat) (path : Path)

/-- The handle that is given or the error, and the descriptor that the entry holds after that.
What is opened is the member of the base class. -/
def getFileHandle (openAt : Path → Except Nat Nat) (e : Entry) (fdCloseEventSource : Option Nat) :
    Except Refusal Nat × Option Nat :=
  match e.file with
  | none => (.error .unavailable, fdCloseEventSource)
  | some file =>
      match fdCloseEventSource with
      | some fd => (.ok fd, some fd)
      | none =>
          match openAt file with
          | .ok fd => (.ok fd, some fd)
          | .error err => (.error (.openFailed err file), none)

def Opens (e : Entry) (path : Path) : Prop :=
  ∀ openAt fd, (getFileHandle openAt e none).1 = .ok fd ↔ openAt path = .ok fd

def Refuses (e : Entry) : Prop := ∀ openAt held, (getFileHandle openAt e held).1 = .error .unavailable

theorem opens_iff {e : Entry} {path : Path} : Opens e path ↔ e.file = some path := by
  constructor
  · intro h
    have hok := (h (fun p => if p = path then .ok 0 else .error 0) 0).mpr (if_pos rfl)
    cases hfile : e.file with
    | none =>
        simp only [getFileHandle, hfile] at hok
        cases hok
    | some file =>
        by_cases hpath : file = path
        · rw [hpath]
        · simp only [getFileHandle, hfile, hpath, if_false] at hok
          cases hok
  · intro hfile openAt fd
    simp only [getFileHandle, hfile]
    cases openAt path <;> simp

theorem refuses_iff {e : Entry} : Refuses e ↔ e.file = none := by
  constructor
  · intro h
    have herror := h (fun _ => .ok 0) none
    cases hfile : e.file with
    | none => rfl
    | some file =>
        simp only [getFileHandle, hfile] at herror
        cases herror
  · intro hfile openAt held
    simp only [getFileHandle, hfile]

end GetFileHandle

section Recording

/-- The path that a step takes up for the entry of the slot: that of the file that has been
closed, if its name stands for the id. -/
def takenUp (named : Path → Option Nat) (s : Daemon E X C) (k : Nat) : Option Path :=
  match s.todo with
  | (path, mask) :: _ =>
      if mask = IN_CLOSE_WRITE ∧ s.disk.isDirectory path = false ∧ named path = some k then some path else none
  | [] => none

open Classical in
/-- The path that was last stored for the entry of each slot, by its construction for a request
or for a file, or by its update. -/
noncomputable def stored (named : Path → Option Nat) (s : Daemon E X C) (ev : Event R I) (t : Daemon E X C)
    (last : Nat → Option Path) (k : Nat) : Option Path :=
  match ev with
  | .createDump _ => if t.entries[k]? = s.entries[k]? then last k else none
  | .handle _ => (takenUp named s k).or (last k)
  | _ => last k

structure Recorded (E X C : Type) where
  daemon : Daemon E X C
  last : Nat → Option Path

def recorded (s : Daemon E X C) : Recorded E X C := ⟨s, fun k => (s.entries[k]?.getD none).bind DumpEntry.file⟩

noncomputable def recording (ops : Ops E X C R I) (named : Path → Option Nat) (x : Recorded E X C) (ev : Event R I) :
    Option (Recorded E X C) :=
  (step ops x.daemon ev).map fun t => ⟨t, stored named x.daemon ev t x.last⟩

/-- For a completed entry the path that was last stored is the one that getFileHandle opens, and
the one that its class acts on; and where the handle is refused for an empty path, none was
stored. -/
structure Current (x : Recorded E X C) : Prop where
  completed : ∀ (k : Nat) (e : E), x.daemon.entries[k]? = some (some e) → (DumpEntry.base e).status = .Completed →
    ∃ path, x.last k = some path ∧ Opens (DumpEntry.base e) path ∧ DumpEntry.file e = some path
  refused : ∀ (k : Nat) (e : E), x.daemon.entries[k]? = some (some e) → Refuses (DumpEntry.base e) → x.last k = none

end Recording

section Members

variable {ops : Ops E X C R I} {named : Path → Option Nat} {x y : Recorded E X C}

/-- What the class of the entry acts on is what was last stored. -/
def Follows (x : Recorded E X C) : Prop :=
  ∀ (k : Nat) (e : E), x.daemon.entries[k]? = some (some e) → DumpEntry.file e = x.last k

def HasFile (e : E) : Prop := (DumpEntry.base e).status = .Completed → ∃ file, DumpEntry.file e = some file

theorem follows_recorded (s : Daemon E X C) : Follows (recorded s) := by
  intro k e he
  have hslot : s.entries[k]? = some (some e) := he
  simp only [recorded, hslot, Option.getD_some, Option.bind_some]

theorem recording_eq_some {ev : Event R I} : recording ops named x ev = some y ↔
    ∃ t, step ops x.daemon ev = some t ∧ y = ⟨t, stored named x.daemon ev t x.last⟩ := by
  rw [recording, Option.map_eq_some_iff]
  exact exists_congr fun t => and_congr_right fun _ => eq_comm

theorem handle_file (hops : Sound ops named) {s t : Daemon E X C} {io : I} (h : step ops s (.handle io) = some t)
    {k : Nat} {e : E} (he : t.entries[k]? = some (some e)) :
    (DumpEntry.file e).isSome = true ∧ takenUp named s k = DumpEntry.file e ∨
      takenUp named s k = none ∧ s.entries[k]? = some (some e) := by
  obtain ⟨path, mask, rest, htodo, hcases⟩ := step_handle h
  rw [takenUp, htodo]
  dsimp only
  rcases hcases with ⟨rfl, hregular, u, hc⟩ | ⟨-, hdirectory, rfl⟩ | ⟨rfl, -, -, rfl⟩ | ⟨hmask, -, rfl⟩
  · rcases (hops.createEntry _ _ _ _ _ hc).entries with ⟨heq, hno⟩ | ⟨n, e', hnamed, heq, -, hfile, -⟩
    · rw [heq] at he
      refine .inr ⟨if_neg fun h => ?_, he⟩
      exact hno k h.2.2 e he
    · rw [heq, insert_get] at he
      split at he
      · rename_i hk
        cases he
        subst hk
        rw [if_pos ⟨rfl, hregular, hnamed⟩, hfile]
        exact .inl ⟨rfl, rfl⟩
      · rename_i hk
        refine .inr ⟨if_neg fun h => hk ?_, he⟩
        exact Option.some.inj (hnamed.symm.trans h.2.2)
  · refine .inr ⟨if_neg fun h => ?_, he⟩
    rw [hdirectory] at h
    cases h.2.1
  · exact .inr ⟨if_neg fun h => absurd h.1 (by decide), he⟩
  · exact .inr ⟨if_neg fun h => hmask h.1, he⟩

/-- The step lemma: by what may have been done to the entry of a slot. -/
theorem recording_follows (hops : Sound ops named) (x : Recorded E X C) (ev : Event R I) (y : Recorded E X C)
    (hx : Follows x) (h : recording ops named x ev = some y) : Follows y := by
  obtain ⟨t, hstep, rfl⟩ := recording_eq_some.mp h
  intro k e he
  change DumpEntry.file e = stored named x.daemon ev t x.last k
  have hslot := step_slot hops hstep he
  generalize hv : some e = v at hslot
  cases ev with
  | createDump r =>
      by_cases hkept : t.entries[k]? = x.daemon.entries[k]?
      · rw [stored, if_pos hkept]
        exact hx k e (hkept ▸ he)
      · rw [stored, if_neg hkept]
        cases hslot with
        | kept _ _ hold => exact absurd (he.trans (hv ▸ hold.symm)) hkept
        | created _ pid kind e' _ _ _ _ _ _ hfile =>
            cases hv
            exact hfile
  | handle io =>
      rw [stored]
      rcases handle_file hops hstep he with ⟨hsome, htaken⟩ | ⟨htaken, hold⟩
      · rw [htaken, Option.or_of_isSome hsome]
      · rw [htaken, Option.none_or]
        exact hx k e hold
  | childNotification pid =>
      cases hslot with
      | kept _ _ hold => exact hx k e (hv ▸ hold)
      | failed _ _ =>
          obtain ⟨e', he', rfl⟩ := Option.map_eq_some_iff.mp hv.symm
          rw [DumpEntry.file_setFailedStatus]
          exact hx k e' (getD_eq_some he')
  | delete | deleteAll | files | exits | stops | continues | watchReady =>
      cases hslot with
      | kept _ _ hold => exact hx k e (hv ▸ hold)

theorem hasFile_of_inProgress {e : E} (h : (DumpEntry.base e).status = .InProgress) : HasFile e := by
  intro hst
  rw [h] at hst
  cases hst

theorem preserves_hasFile (hops : Sound ops named) (io : I) (path : Path) :
    Preserves (EveryEntry HasFile) (ops.createEntry io path) := by
  intro s u t hs h
  exact everyEntry_filed (hops.createEntry io path s u t h) (fun e _ hfile _ => ⟨path, hfile⟩) hs

theorem step_hasFile (hops : Sound ops named) (s : Daemon E X C) (ev : Event R I) (t : Daemon E X C)
    (hs : EveryEntry HasFile s) (h : step ops s ev = some t) : EveryEntry HasFile t := by
  refine step_everyEntry (fun e _ hst => ?_) (fun r s => ?_) (preserves_hasFile hops) s ev t hs h
  · rw [DumpEntry.base_setFailedStatus] at hst
    cases hst
  · exact (keeps_requested hops r s).mono fun k e hrequested => hasFile_of_inProgress hrequested.2.1

theorem recording_everyEntry {P : E → Prop}
    (hstep : ∀ s ev t, EveryEntry P s → step ops s ev = some t → EveryEntry P t) (x : Recorded E X C) (ev : Event R I)
    (y : Recorded E X C) (hx : EveryEntry P x.daemon) (h : recording ops named x ev = some y) :
    EveryEntry P y.daemon := by
  obtain ⟨t, ht, rfl⟩ := recording_eq_some.mp h
  exact hstep _ ev t hx ht

theorem exists_recorded {s t : Daemon E X C} {es : List (Event R I)} (hrun : run (step ops) s es = some t)
    (last : Nat → Option Path) : ∃ last', run (recording ops named) ⟨s, last⟩ es = some ⟨t, last'⟩ := by
  induction es generalizing s last with
  | nil =>
      cases hrun
      exact ⟨last, rfl⟩
  | cons ev es ih =>
      obtain ⟨u, hu, hrun⟩ := run_cons.mp hrun
      obtain ⟨last', hlast⟩ := ih hrun (stored named s ev u last)
      exact ⟨last', run_cons.mpr ⟨_, recording_eq_some.mpr ⟨u, hu, rfl⟩, hlast⟩⟩

theorem current_of_sameMember (hsame : ∀ e : E, (DumpEntry.base e).file = DumpEntry.file e) (hx : Follows x)
    (hfiles : EveryEntry HasFile x.daemon) : Current x := by
  refine ⟨fun k e he hst => ?_, fun k e he hrefuses => ?_⟩
  · obtain ⟨path, hpath⟩ := hfiles k e he hst
    refine ⟨path, ?_, opens_iff.mpr ?_, hpath⟩
    · rw [← hx k e he, hpath]
    · rw [hsame e, hpath]
  · rw [← hx k e he, ← hsame e]
    exact refuses_iff.mp hrefuses

theorem current_iff_of_emptyMember (hempty : EveryEntry (fun e => (DumpEntry.base e).file = none) x.daemon)
    (hx : Follows x) (hfiles : EveryEntry HasFile x.daemon) :
    Current x ↔ EveryEntry (fun e => DumpEntry.file e = none) x.daemon := by
  constructor
  · intro h k e he
    rw [hx k e he]
    exact h.refused k e he (refuses_iff.mpr (hempty k e he))
  · intro h
    refine ⟨fun k e he hst => ?_, fun k e he _ => ?_⟩
    · obtain ⟨path, hpath⟩ := hfiles k e he hst
      rw [h k e he] at hpath
      cases hpath
    · rw [← hx k e he]
      exact h k e he

end Members

section Managers

theorem hasFile_bmc {cfg : Bmc.Manager.Config} {s : Bmc.Manager.BmcDaemon} (h : Bmc.Manager.Started cfg s) :
    EveryEntry HasFile s := by
  intro k e he _
  obtain ⟨dir, name, -, -, -, hfile⟩ := (Bmc.Steps.restoring_of_started cfg h).entries k e he
  exact ⟨[dir, name], hfile⟩

theorem hasFile_system {cfg : System.Manager.Config} {s : System.Manager.SystemDaemon}
    (h : System.Manager.Started cfg s) : EveryEntry HasFile s :=
  System.Steps.invariant_started cfg (everyEntry_bare _) (preserves_hasFile (System.Steps.sound cfg))
    (fun _ _ => everyEntry_of_entries rfl) h

theorem hasFile_fdr {cfg : Fdr.Manager.Config} {s : Fdr.Manager.FdrDaemon} (h : Fdr.Manager.Started cfg s) :
    EveryEntry HasFile s :=
  Fdr.Steps.invariant_started cfg (everyEntry_bare _) (preserves_hasFile (Fdr.Steps.sound cfg))
    (fun _ _ => everyEntry_of_entries rfl) h

section FaultLog

open FaultLog.Manager FaultLog.Steps

variable {cfg : FaultLog.Manager.Config}

def EmptyMember (e : FaultLogEntry) : Prop := e.base.file = none

theorem preserves_emptyMember (io : FileEvent) (path : Path) :
    Preserves (EveryEntry EmptyMember) (createEntry cfg io path) := by
  intro s u t hs h
  cases createEntry_cases h with
  | ignored _ ht =>
      subst ht
      exact hs
  | created n timestamp c _ _ ht =>
      subst ht
      refine EntriesFrom.everyEntry (P := EmptyMember) (entriesFrom_insertIfNew ?_) hs
      rfl
  | completed n timestamp c e _ he ht =>
      subst ht
      exact (entriesFrom_insert (hs n e he)).everyEntry hs

theorem step_emptyMember (s : FaultLogDaemon) (ev : Event Request FileEvent) (t : FaultLogDaemon)
    (hs : EveryEntry EmptyMember s) (h : step (faultLogOps cfg) s ev = some t) : EveryEntry EmptyMember t := by
  refine step_everyEntry (fun e he => ?_) (fun r => ?_) preserves_emptyMember s ev t hs h
  · exact he
  · have hrequest : Keeps (EntriesFrom fun _ e => EmptyMember e) (some <$> createDump cfg r) := by
      rw [createDump_eq]
      refine keeps_bind (keeps_trimmed (keeps_limitDumpEntries _)) fun _ => ?_
      refine keeps_bind (keeps_trimmed (keeps_limitTotalDumpSize cfg _)) fun _ => ?_
      refine keeps_bind (keeps_trimmed (keeps_faultData cfg _)) fun data => ?_
      refine keeps_fork (fun _ _ => entriesFrom_of_entries) (fun s id e he _ => entriesFrom_insertIfNew ?_)
        fun id => keeps_pure _
      obtain ⟨originatorId, originatorType, rfl⟩ := construct_eq cfg he
      rfl
    exact hrequest

theorem emptyMember_started {s : FaultLogDaemon} (h : Started cfg s) : EveryEntry EmptyMember s :=
  invariant_started cfg (everyEntry_bare _) preserves_emptyMember (fun _ _ => everyEntry_of_entries rfl) h

theorem hasFile_faultLog {s : FaultLogDaemon} (h : Started cfg s) : EveryEntry HasFile s :=
  invariant_started cfg (everyEntry_bare _) (preserves_hasFile (sound cfg)) (fun _ _ => everyEntry_of_entries rfl) h

end FaultLog

variable {ops : Ops E X C R I} {named : Path → Option Nat} {s : Daemon E X C} {x : Recorded E X C}
  {es : List (Event R I)}

/-- The run lemma. -/
theorem run_follows (hops : Sound ops named) (hs : EveryEntry HasFile s)
    (hrun : run (recording ops named) (recorded s) es = some x) : Follows x ∧ EveryEntry HasFile x.daemon :=
  ⟨invariant_run (fun _ _ _ => recording_follows hops _ _ _) hrun (follows_recorded s),
    invariant_run (I := fun x => EveryEntry HasFile x.daemon)
      (fun _ _ _ => recording_everyEntry (step_hasFile hops) _ _ _) hrun hs⟩

def CurrentInRuns (ops : Ops E X C R I) (named : Path → Option Nat) (started : Daemon E X C → Prop) : Prop :=
  ∀ s x es, started s → run (recording ops named) (recorded s) es = some x → Current x

/-- In every run of three of the managers the handle is that of the path that was last stored;
in those of the fault log manager it is so exactly while no entry has a dump file. -/
theorem handles_current_iff (bmc : Bmc.Manager.Config) (system : System.Manager.Config) (fdr : Fdr.Manager.Config)
    (faultLog : FaultLog.Manager.Config) :
    CurrentInRuns (Bmc.Manager.bmcOps bmc) (fun file => namedId bmc.plat (filename file)) (Bmc.Manager.Started bmc) ∧
    CurrentInRuns (System.Manager.systemOps system) (fun file => namedId system.plat (filename file))
      (System.Manager.Started system) ∧
    CurrentInRuns (Fdr.Manager.fdrOps fdr) (fun file => namedId fdr.plat (filename file)) (Fdr.Manager.Started fdr) ∧
    ∀ s x es, FaultLog.Manager.Started faultLog s →
      run (recording (FaultLog.Manager.faultLogOps faultLog) fun file => namedId faultLog.plat (filename file))
        (recorded s) es = some x →
      (Current x ↔ EveryEntry (fun e => DumpEntry.file e = none) x.daemon) := by
  refine ⟨fun s x es hs hrun => ?_, fun s x es hs hrun => ?_, fun s x es hs hrun => ?_, fun s x es hs hrun => ?_⟩
  · obtain ⟨hx, hfiles⟩ := run_follows (Bmc.Steps.sound bmc) (hasFile_bmc hs) hrun
    exact current_of_sameMember (fun _ => rfl) hx hfiles
  · obtain ⟨hx, hfiles⟩ := run_follows (System.Steps.sound system) (hasFile_system hs) hrun
    exact current_of_sameMember (fun _ => rfl) hx hfiles
  · obtain ⟨hx, hfiles⟩ := run_follows (Fdr.Steps.sound fdr) (hasFile_fdr hs) hrun
    exact current_of_sameMember (fun _ => rfl) hx hfiles
  · obtain ⟨hx, hfiles⟩ := run_follows (FaultLog.Steps.sound faultLog) (hasFile_faultLog hs) hrun
    have hempty : EveryEntry EmptyMember x.daemon :=
      invariant_run (I := fun x => EveryEntry EmptyMember x.daemon)
        (fun _ _ _ => recording_everyEntry step_emptyMember _ _ _) hrun (emptyMember_started hs)
    exact current_iff_of_emptyMember hempty hx hfiles

end Managers

section Handles

def dumpArrives (io : I) : List (Event R I) :=
  [.files (.mkdir [] "1"), .watchReady [], .handle io, .files (.openFile ["1"] "obmcdump_1_1.tar"),
    .files (.closeFile ["1"] "obmcdump_1_1.tar"), .watchReady ["1"], .handle io]

theorem bmc_handle_current : ∃ x, run (recording (Bmc.Manager.bmcOps Bmc.Manager.defaultConfig)
      fun file => namedId Bmc.Manager.defaultConfig.plat (filename file)) (recorded (bare ⟨false⟩ .root))
      (dumpArrives Bmc.Manager.plainEvent) = some x ∧ 1 ∈ x.daemon.entries ∧ Current x := by
  have h : ((run (step (Bmc.Manager.bmcOps Bmc.Manager.defaultConfig)) (bare ⟨false⟩ .root)
      (dumpArrives Bmc.Manager.plainEvent)).map fun t => decide (1 ∈ t.entries)) = some true := by decide +kernel
  obtain ⟨t, hrun, ht⟩ := Option.map_eq_some_iff.mp h
  obtain ⟨last, hrecorded⟩ := exists_recorded hrun (recorded (bare ⟨false⟩ .root : Bmc.Manager.BmcDaemon)).last
  refine ⟨⟨t, last⟩, hrecorded, of_decide_eq_true ht, ?_⟩
  exact (handles_current_iff Bmc.Manager.defaultConfig System.Manager.defaultConfig Fdr.Manager.defaultConfig
    FaultLog.Manager.defaultConfig).1 _ _ _ (Bmc.Manager.started_root _) hrecorded

open FaultLog.Manager

def plainFile : FaultLog.Manager.FileEvent := ⟨true, .done, none, 0⟩

/-- The dump of a fault log has its file, and its handle is refused for an empty path. -/
theorem faultLog_handle_refused : Started defaultConfig (bare ⟨0⟩ .root) ∧ ∃ x e,
    run (recording (faultLogOps defaultConfig) fun file => namedId defaultConfig.plat (filename file))
      (recorded (bare ⟨0⟩ .root)) (dumpArrives plainFile) = some x ∧
    x.daemon.entries[1]? = some (some e) ∧ e.base.status = .Completed ∧ e.file = some ["1", "obmcdump_1_1.tar"] ∧
    Refuses e.base ∧ ¬Current x := by
  have h : (run (step (faultLogOps defaultConfig)) (bare ⟨0⟩ .root) (dumpArrives plainFile)).bind (fun t =>
      (t.entries[1]?.getD none).map fun e => (e.base.status, e.file, e.base.file)) =
      some (.Completed, some ["1", "obmcdump_1_1.tar"], none) := by decide +kernel
  obtain ⟨t, hrun, ht⟩ := Option.bind_eq_some_iff.mp h
  obtain ⟨last, hrecorded⟩ := exists_recorded hrun (recorded (bare ⟨0⟩ .root : FaultLogDaemon)).last
  obtain ⟨e, hslot, hobserved⟩ := Option.map_eq_some_iff.mp ht
  have he : t.entries[1]? = some (some e) := getD_eq_some hslot
  obtain ⟨hst, hrest⟩ := Prod.mk.inj hobserved
  obtain ⟨hfile, hempty⟩ := Prod.mk.inj hrest
  refine ⟨started_root _, ⟨t, last⟩, e, hrecorded, he, hst, hfile, refuses_iff.mpr hempty, fun hcurrent => ?_⟩
  obtain ⟨path, -, hopens, -⟩ := hcurrent.completed 1 e he hst
  cases hempty.symm.trans (opens_iff.mp hopens)

end Handles

end DumpCollector.FileHandle
