import DumpCollector.FileHandle
import DumpCollector.Lib.Refinement

namespace DumpCollector.Lifecycle

open Std Lib.Directory Lib.Effects Lib.Maps Lib.Refinement Lib.Runs Entries FileNames Inotify Requests State Dispatch
open Frames DumpCollector.Steps Slots FileHandle

section Specification

variable {O F : Type}

/-- How far the collection of a dump has come. One that is being collected has no file yet, and
one that has failed may have one. -/
inductive Phase (F : Type)
  | collecting
  | collected (file : F)
  | failed (file : Option F)

def Phase.file : Phase F → Option F
  | .collecting => none
  | .collected file => some file
  | .failed file => file

/-- What a store of dumps holds under an id: nothing, or something that is no dump, or a dump
with what was fixed when it was made. -/
inductive Slot (O F : Type)
  | vacant
  | unusable
  | dump (origin : O) (phase : Phase F)

inductive Label (F : Type)
  | requested
  | stored (file : F)
  | failed
  | removed
  | unchanged

/-- The life of a dump. It begins with a request, or with a file that nobody has requested. A
failure that is reported for no dump spoils the slot. -/
inductive Moves : Slot O F → Label F → Slot O F → Prop
  | requested (before : Slot O F) (origin : O) : Moves before .requested (.dump origin .collecting)
  | found (origin : O) (file : F) : Moves .vacant (.stored file) (.dump origin (.collected file))
  | stored (origin : O) (phase : Phase F) (file : F) :
      Moves (.dump origin phase) (.stored file) (.dump origin (.collected file))
  | failed (origin : O) (phase : Phase F) : Moves (.dump origin phase) .failed (.dump origin (.failed phase.file))
  | spoilt (before : Slot O F) (h : ∀ origin phase, before ≠ .dump origin phase) : Moves before .failed .unusable
  | removed (before : Slot O F) : Moves before .removed .vacant
  | unchanged (slot : Slot O F) : Moves slot .unchanged slot

def Phase.after (phase : Phase F) : Label F → Phase F
  | .stored file => .collected file
  | .failed => .failed phase.file
  | .requested | .removed | .unchanged => phase

/-- A dump that is neither removed nor made anew keeps what was fixed when it was made, and the
labels alone say how far it has come. -/
theorem path_dump {origin : O} {phase : Phase F} {ls : List (Label F)} {slot : Slot O F}
    (h : Path Moves (.dump origin phase) ls slot) (hremoved : .removed ∉ ls) (hrequested : .requested ∉ ls) :
    slot = .dump origin (ls.foldl Phase.after phase) := by
  induction ls generalizing phase with
  | nil => exact (path_nil.mp h).symm
  | cons l ls ih =>
      obtain ⟨mid, hmove, hrest⟩ := path_cons.mp h
      rw [List.mem_cons, not_or] at hremoved hrequested
      cases hmove with
      | requested => exact absurd rfl hrequested.1
      | stored _ _ file => exact ih hrest hremoved.2 hrequested.2
      | failed => exact ih hrest hremoved.2 hrequested.2
      | spoilt _ hno => exact absurd rfl (hno origin phase)
      | removed => exact absurd rfl hremoved.1
      | unchanged => exact ih hrest hremoved.2 hrequested.2

theorem foldl_after_unchanged {ls : List (Label F)} {phase : Phase F} (hfailed : .failed ∉ ls)
    (hstored : ∀ file, .stored file ∉ ls) : ls.foldl Phase.after phase = phase := by
  induction ls with
  | nil => rfl
  | cons l ls ih =>
      have hrest := ih (fun h => hfailed (List.mem_cons_of_mem _ h))
        fun file h => hstored file (List.mem_cons_of_mem _ h)
      cases l with
      | stored file => exact absurd List.mem_cons_self (hstored file)
      | failed => exact absurd List.mem_cons_self hfailed
      | requested | removed | unchanged => exact hrest

theorem foldl_after_started {ls : List (Label F)} {phase : Phase F} (h : phase ≠ .collecting) :
    ls.foldl Phase.after phase ≠ .collecting := by
  induction ls generalizing phase with
  | nil => exact h
  | cons l ls ih =>
      apply ih
      cases l with
      | stored | failed => exact nofun
      | requested | removed | unchanged => exact h

theorem foldl_after_file {ls : List (Label F)} {phase : Phase F} (h : phase.file.isSome = true) :
    (ls.foldl Phase.after phase).file.isSome = true := by
  induction ls generalizing phase with
  | nil => exact h
  | cons l ls ih =>
      apply ih
      cases l with
      | stored => rfl
      | failed | requested | removed | unchanged => exact h

end Specification

variable {E X C R I : Type} [DumpEntry E]

section Representation

structure Origin where
  id : Nat
  originatorId : String
  originatorType : OriginatorTypes
  startTime : Nat
  deriving DecidableEq

def origin (e : E) : Origin :=
  ⟨(DumpEntry.base e).id, (DumpEntry.base e).originatorId, (DumpEntry.base e).originatorType,
    (DumpEntry.base e).startTime⟩

def Phase.status : Phase Path → OperationStatus
  | .collecting => .InProgress
  | .collected _ => .Completed
  | .failed _ => .Failed

inductive Represents : Option (Option E) → Slot Origin Path → Prop
  | vacant : Represents none .vacant
  | unusable : Represents (some none) .unusable
  | collecting (e : E) (hst : (DumpEntry.base e).status = .InProgress) (hfile : DumpEntry.file e = none) :
      Represents (some (some e)) (.dump (origin e) .collecting)
  | collected (e : E) (file : Path) (hst : (DumpEntry.base e).status = .Completed)
      (hfile : DumpEntry.file e = some file) : Represents (some (some e)) (.dump (origin e) (.collected file))
  | failed (e : E) (hst : (DumpEntry.base e).status = .Failed) :
      Represents (some (some e)) (.dump (origin e) (.failed (DumpEntry.file e)))

def Holds (n : Nat) (s : Daemon E X C) (slot : Slot Origin Path) : Prop := Represents s.entries[n]? slot

theorem holds_collecting {n : Nat} {s : Daemon E X C} {e : E} (he : s.entries[n]? = some (some e))
    (hst : (DumpEntry.base e).status = .InProgress) (hfile : DumpEntry.file e = none) :
    Holds n s (.dump (origin e) .collecting) := by
  rw [Holds, he]
  exact .collecting e hst hfile

theorem setFailedStatus_origin (e : E) : origin (DumpEntry.setFailedStatus e) = origin e := by
  rw [origin, DumpEntry.base_setFailedStatus]
  rfl

theorem represents_entry {e : E} {slot : Slot Origin Path} (h : Represents (some (some e)) slot) :
    ∃ phase, slot = .dump (origin e) phase ∧ (DumpEntry.base e).status = phase.status ∧
      DumpEntry.file e = phase.file := by
  cases h with
  | collecting _ hst hfile => exact ⟨.collecting, rfl, hst, hfile⟩
  | collected _ file hst hfile => exact ⟨.collected file, rfl, hst, hfile⟩
  | failed _ hst => exact ⟨.failed _, rfl, hst, rfl⟩

theorem represents_dump {v : Option (Option E)} {o : Origin} {phase : Phase Path} (h : Represents v (.dump o phase)) :
    ∃ e, v = some (some e) ∧ origin e = o ∧ (DumpEntry.base e).status = phase.status ∧
      DumpEntry.file e = phase.file := by
  cases h with
  | collecting e hst hfile => exact ⟨e, rfl, rfl, hst, hfile⟩
  | collected e file hst hfile => exact ⟨e, rfl, rfl, hst, hfile⟩
  | failed e hst => exact ⟨e, rfl, rfl, hst, rfl⟩

end Representation

section Steps

/-- An event that is about the entry with the id: its file is taken up, or the failure of its
collector is reported. -/
def Concerns (named : Path → Option Nat) (n : Nat) (s : Daemon E X C) : Event R I → Prop
  | .handle _ => (takenUp named s n).isSome = true
  | .childNotification pid => failure s pid = some n
  | _ => False

inductive Shows (ops : Ops E X C R I) (named : Path → Option Nat) (n : Nat) (s : Daemon E X C) :
    Event R I → Label Path → Prop
  | requested (r : R) (t : Daemon E X C) (h : ops.createDump r s = .ok (some n) t) :
      Shows ops named n s (.createDump r) .requested
  | stored (io : I) (file : Path) (h : takenUp named s n = some file) : Shows ops named n s (.handle io) (.stored file)
  | failed (pid : Nat) (h : failure s pid = some n) : Shows ops named n s (.childNotification pid) .failed
  | removed (ev : Event R I) (t : Daemon E X C) (h : step ops s ev = some t) (hgone : n ∉ t.entries) :
      Shows ops named n s ev .removed
  | unchanged (ev : Event R I) (h : Concerns named n s ev → ∀ e, s.entries[n]? ≠ some (some e)) :
      Shows ops named n s ev .unchanged

/-- A file that is taken up for an entry leaves what was fixed when the entry was made. -/
def KeepsOrigin (ops : Ops E X C R I) : Prop :=
  ∀ io file s u t, ops.createEntry io file s = .ok u t → ∀ (n : Nat) (e e' : E), s.entries[n]? = some (some e) →
    t.entries[n]? = some (some e') → origin e' = origin e

variable {ops : Ops E X C R I} {named : Path → Option Nat} {s t : Daemon E X C} {n : Nat}

theorem handle_slot (hops : Sound ops named) (horigin : KeepsOrigin ops) {io : I}
    (h : step ops s (.handle io) = some t) :
    t.entries[n]? = s.entries[n]? ∧ ((takenUp named s n).isSome = true → ∀ e, s.entries[n]? ≠ some (some e)) ∨
    ∃ file e, takenUp named s n = some file ∧ t.entries[n]? = some (some e) ∧
      (DumpEntry.base e).status = .Completed ∧ DumpEntry.file e = some file ∧
      (s.entries[n]? = none ∨ ∃ e', s.entries[n]? = some (some e') ∧ origin e = origin e') := by
  obtain ⟨path, mask, rest, htodo,
    ⟨rfl, hregular, u, hc⟩ | ⟨-, hdirectory, rfl⟩ | ⟨rfl, -, -, rfl⟩ | ⟨hmask, -, rfl⟩⟩ := step_handle h
  · have htaken : takenUp named s n = if named path = some n then some path else none := by
      simp [takenUp, htodo, hregular]
    rcases (hops.createEntry _ _ _ _ _ hc).entries with ⟨heq, hno⟩ | ⟨k, e, hnamed, heq, hst, hfile, hold⟩
    · refine .inl ⟨congrArg (·[n]?) heq, fun hsome => ?_⟩
      rw [htaken] at hsome
      split at hsome
      · rename_i hnamed
        exact hno n hnamed
      · cases hsome
    · by_cases hk : k = n
      · subst hk
        have hslot : t.entries[k]? = some (some e) := by rw [heq, insert_get, if_pos rfl]
        refine .inr ⟨path, e, by rw [htaken, if_pos hnamed], hslot, hst, hfile, ?_⟩
        rcases hold with ⟨hnone, -⟩ | ⟨e', he', -⟩
        · exact .inl hnone
        · exact .inr ⟨e', he', horigin _ _ _ _ _ hc k e' e he' hslot⟩
      · refine .inl ⟨?_, fun hsome => ?_⟩
        · rw [heq, insert_get, if_neg hk]
          rfl
        · rw [htaken, hnamed, if_neg fun hkn => hk (Option.some.inj hkn)] at hsome
          cases hsome
  · refine .inl ⟨rfl, fun hsome => ?_⟩
    simp [takenUp, htodo, hdirectory] at hsome
  · refine .inl ⟨rfl, fun hsome => ?_⟩
    simp [takenUp, htodo, IN_CREATE, IN_CLOSE_WRITE] at hsome
  · refine .inl ⟨rfl, fun hsome => ?_⟩
    simp [takenUp, htodo, hmask] at hsome

theorem notified_slot {pid : Nat} (h : step ops s (.childNotification pid) = some t) :
    t.entries[n]? =
      if failure s pid = some n then some ((s.entries[n]?.getD none).map DumpEntry.setFailedStatus)
      else s.entries[n]? := by
  obtain ⟨-, c, p, status, hchild, hp, hstatus, rfl⟩ := step_childNotification h
  rw [reap_entries, ended_get, failure_eq hchild hp hstatus]
  by_cases hzero : status = 0
  · simp [hzero]
  · simp [hzero]

theorem represents_failed {v : Option (Option E)} {slot : Slot Origin Path} (h : Represents v slot) :
    ∃ slot', Moves slot .failed slot' ∧ Represents (some ((v.getD none).map DumpEntry.setFailedStatus)) slot' := by
  cases h with
  | vacant => exact ⟨.unusable, .spoilt _ nofun, .unusable⟩
  | unusable => exact ⟨.unusable, .spoilt _ nofun, .unusable⟩
  | collecting e _ hfile | collected e _ _ hfile | failed e =>
      have hafter := Represents.failed (DumpEntry.setFailedStatus e) (by rw [DumpEntry.base_setFailedStatus])
      rw [setFailedStatus_origin, DumpEntry.file_setFailedStatus] at hafter
      first
      | rw [hfile] at hafter
        exact ⟨_, .failed _ _, hafter⟩
      | exact ⟨_, .failed _ _, hafter⟩

/-- The step lemma: whatever happens, a slot makes a move that its event shows. -/
theorem step_refines (hops : Sound ops named) (horigin : KeepsOrigin ops) (n : Nat) :
    Refines (step ops) (Holds n) Moves (Shows ops named n) := by
  intro s slot ev t hs h
  rcases htn : t.entries[n]? with _ | v
  · refine ⟨.removed, .vacant, .removed ev t h ((not_mem_iff _ _).mpr htn), .removed slot, ?_⟩
    rw [Holds, htn]
    exact .vacant
  have hkept : s.entries[n]? = some v → Holds n t slot := fun hv => by
    rw [Holds, htn, ← hv]
    exact hs
  cases ev with
  | handle io =>
      rcases handle_slot hops horigin h (n := n) with ⟨heq, hno⟩ | ⟨file, e, htaken, hslot, hst, hfile, hold⟩
      · exact ⟨.unchanged, slot, .unchanged _ hno, .unchanged slot, hkept (heq.symm.trans htn)⟩
      · refine ⟨.stored file, .dump (origin e) (.collected file), .stored io file htaken, ?_, ?_⟩
        · rcases hold with hnone | ⟨e', he', hsame⟩
          · rw [Holds, hnone] at hs
            cases hs
            exact .found _ file
          · rw [Holds, he'] at hs
            obtain ⟨phase, rfl, -, -⟩ := represents_entry hs
            rw [hsame]
            exact .stored _ phase file
        · rw [Holds, hslot]
          exact .collected e file hst hfile
  | childNotification pid =>
      have hslot := notified_slot (n := n) h
      by_cases hfail : failure s pid = some n
      · rw [if_pos hfail] at hslot
        obtain ⟨slot', hmove, hafter⟩ := represents_failed hs
        refine ⟨.failed, slot', .failed pid hfail, hmove, ?_⟩
        rw [Holds, hslot]
        exact hafter
      · rw [if_neg hfail] at hslot
        exact ⟨.unchanged, slot, .unchanged _ fun hc => absurd hc hfail, .unchanged slot, hkept (hslot.symm.trans htn)⟩
  | createDump r =>
      cases step_slot hops h htn with
      | kept _ _ hv => exact ⟨.unchanged, slot, .unchanged _ nofun, .unchanged slot, hkept hv⟩
      | created _ pid kind e hr _ _ _ _ hst hfile =>
          refine ⟨.requested, .dump (origin e) .collecting, .requested r t hr, .requested slot _, ?_⟩
          rw [Holds, htn]
          exact .collecting e hst hfile
  | delete | deleteAll | files | exits | stops | continues | watchReady =>
      cases step_slot hops h htn with
      | kept _ _ hv => exact ⟨.unchanged, slot, .unchanged _ nofun, .unchanged slot, hkept hv⟩

end Steps

end DumpCollector.Lifecycle
