import DumpCollector.Children
import DumpCollector.Lifecycle

namespace DumpCollector.Lives

open Std Lib.Directory Lib.Effects Lib.Maps Lib.Refinement Lib.Runs Entries FileNames Inotify Requests State Dispatch
open Frames DumpCollector.Steps Slots Children FileHandle Lifecycle

variable {E X C R I : Type} [DumpEntry E]

section Origins

variable {s t : Daemon E X C} {k n : Nat} {v : Option E} {e e' e₀ e₁ : E}

theorem origin_of_entries (h : t.entries = s.entries) (he : s.entries[n]? = some (some e))
    (he' : t.entries[n]? = some (some e')) : origin e' = origin e := by
  rw [h, he] at he'
  cases he'
  rfl

theorem origin_insertIfNew (h : t.entries = s.entries.insertIfNew k v) (he : s.entries[n]? = some (some e))
    (he' : t.entries[n]? = some (some e')) : origin e' = origin e := by
  rw [h] at he'
  rcases insertIfNew_cases he' with hold | ⟨rfl, hnone, -⟩
  · rw [he] at hold
    cases hold
    rfl
  · rw [he] at hnone
    cases hnone

theorem origin_insert (h : t.entries = s.entries.insert k (some e₁)) (hold : s.entries[k]? = some (some e₀))
    (hsame : origin e₁ = origin e₀) (he : s.entries[n]? = some (some e)) (he' : t.entries[n]? = some (some e')) :
    origin e' = origin e := by
  rw [h, insert_get] at he'
  split at he'
  · rename_i hk
    subst hk
    rw [hold] at he
    cases he
    cases he'
    exact hsame
  · rw [he] at he'
    cases he'
    rfl

theorem keepsOrigin_bmc (cfg : Bmc.Manager.Config) : KeepsOrigin (Bmc.Manager.bmcOps cfg) := by
  intro io file s u t h n e e' he he'
  cases Bmc.Steps.createEntry_cases h with
  | ignored _ _ ht =>
      subst ht
      exact origin_of_entries rfl he he'
  | created id timestamp c _ _ _ _ ht =>
      subst ht
      exact origin_insertIfNew rfl he he'
  | updated id timestamp c e₀ _ _ hold ht =>
      subst ht
      refine origin_insert (Bmc.Steps.filesOnly_serialize _ _ _).entries hold ?_ he he'
      rfl

theorem keepsOrigin_system (cfg : System.Manager.Config) : KeepsOrigin (System.Manager.systemOps cfg) := by
  intro io file s u t h n e e' he he'
  cases System.Steps.createEntry_cases h with
  | ignored _ ht =>
      subst ht
      exact origin_of_entries rfl he he'
  | created k timestamp c _ _ ht =>
      subst ht
      exact origin_insertIfNew rfl he he'
  | completed k timestamp c e₀ _ hold ht =>
      subst ht
      refine origin_insert rfl hold ?_ he he'
      rfl

theorem keepsOrigin_faultLog (cfg : FaultLog.Manager.Config) : KeepsOrigin (FaultLog.Manager.faultLogOps cfg) := by
  intro io file s u t h n e e' he he'
  cases FaultLog.Steps.createEntry_cases h with
  | ignored _ ht =>
      subst ht
      exact origin_of_entries rfl he he'
  | created k timestamp c _ _ ht =>
      subst ht
      exact origin_insertIfNew rfl he he'
  | completed k timestamp c e₀ _ hold ht =>
      subst ht
      refine origin_insert rfl hold ?_ he he'
      rfl

theorem keepsOrigin_fdr (cfg : Fdr.Manager.Config) : KeepsOrigin (Fdr.Manager.fdrOps cfg) := by
  intro io file s u t h n e e' he he'
  change Fdr.Manager.createEntry cfg io file s = .ok u t at h
  cases hp : parseName cfg.plat (filename file) with
  | error exn =>
      rw [Fdr.Steps.createEntry_refused hp] at h
      cases h
  | ok details =>
      rcases details with _ | ⟨id, timestamp⟩
      · rw [Fdr.Steps.createEntry_unnamed hp] at h
        cases h
        exact origin_of_entries rfl he he'
      · cases hc : s.disk.content file with
        | none =>
            rw [Fdr.Steps.createEntry_absent hp hc] at h
            cases h
        | some c =>
            rcases hold : s.entries[uint32 id]? with _ | _ | e₀
            · rw [Fdr.Steps.createEntry_new hp hc hold] at h
              cases hcon : io.construction with
              | done =>
                  rw [hcon] at h
                  cases h
                  exact origin_insertIfNew rfl he he'
              | invalidArgument =>
                  rw [hcon] at h
                  cases h
                  exact origin_of_entries rfl he he'
              | failed =>
                  rw [hcon] at h
                  cases h
            · rw [Fdr.Steps.createEntry_empty hp hc hold] at h
              cases h
            · rw [Fdr.Steps.createEntry_present hp hc hold] at h
              cases h
              refine origin_insert rfl hold ?_ he he'
              rfl

end Origins

section Startup

def Found (e : E) : Prop := (DumpEntry.base e).status = .Completed ∧ ∃ file, DumpEntry.file e = some file

structure Begun (s : Daemon E X C) : Prop where
  idle : Idle s
  found : EveryEntry Found s

theorem preserves_found {ops : Ops E X C R I} {named : Path → Option Nat} (hops : Sound ops named) (io : I)
    (path : Path) : Preserves (EveryEntry Found) (ops.createEntry io path) := by
  intro s u t hs h
  exact everyEntry_filed (hops.createEntry io path s u t h) (fun e hst hfile => ⟨hst, path, hfile⟩) hs

theorem begun_bmc {cfg : Bmc.Manager.Config} {s : Bmc.Manager.BmcDaemon} (h : Bmc.Manager.Started cfg s) : Begun s := by
  have hrestoring := Bmc.Steps.restoring_of_started cfg h
  refine ⟨hrestoring.idle, fun k e he => ?_⟩
  obtain ⟨dir, name, -, -, hst, hfile⟩ := hrestoring.entries k e he
  exact ⟨hst, [dir, name], hfile⟩

theorem begun_system {cfg : System.Manager.Config} {s : System.Manager.SystemDaemon}
    (h : System.Manager.Started cfg s) : Begun s :=
  ⟨System.Steps.idle_of_started cfg h, System.Steps.invariant_started cfg (everyEntry_bare _)
    (preserves_found (System.Steps.sound cfg)) (fun _ _ => everyEntry_of_entries rfl) h⟩

theorem begun_faultLog {cfg : FaultLog.Manager.Config} {s : FaultLog.Manager.FaultLogDaemon}
    (h : FaultLog.Manager.Started cfg s) : Begun s :=
  ⟨FaultLog.Steps.idle_of_started cfg h, FaultLog.Steps.invariant_started cfg (everyEntry_bare _)
    (preserves_found (FaultLog.Steps.sound cfg)) (fun _ _ => everyEntry_of_entries rfl) h⟩

theorem begun_fdr {cfg : Fdr.Manager.Config} {s : Fdr.Manager.FdrDaemon} (h : Fdr.Manager.Started cfg s) : Begun s :=
  ⟨Fdr.Steps.idle_of_started cfg h, Fdr.Steps.invariant_started cfg (everyEntry_bare _)
    (preserves_found (Fdr.Steps.sound cfg)) (fun _ _ => everyEntry_of_entries rfl) h⟩

theorem Begun.slot {s : Daemon E X C} (hs : Begun s) (n : Nat) : ∃ slot, Holds n s slot ∧
    (slot = .vacant ∨ ∃ origin file, slot = .dump origin (.collected file)) := by
  rcases hn : s.entries[n]? with _ | _ | e
  · refine ⟨.vacant, ?_, .inl rfl⟩
    rw [Holds, hn]
    exact .vacant
  · exact absurd hn (hs.idle.nonNull n)
  · obtain ⟨hst, file, hfile⟩ := hs.found n e hn
    refine ⟨.dump (origin e) (.collected file), ?_, .inr ⟨_, file, rfl⟩⟩
    rw [Holds, hn]
    exact .collected e file hst hfile

end Startup

section Runs

variable {ops : Ops E X C R I} {named : Path → Option Nat} {s t u : Daemon E X C} {es fs : List (Event R I)} {n : Nat}

/-- What is seen of a run under an id is the life of a dump. -/
def LivesUp (ops : Ops E X C R I) (named : Path → Option Nat) (started : Daemon E X C → Prop) : Prop :=
  ∀ s t es n, started s → run (step ops) s es = some t → ∃ before ls after, Holds n s before ∧
    (before = .vacant ∨ ∃ origin file, before = .dump origin (.collected file)) ∧
    Seen (step ops) (Shows ops named n) s es ls ∧ Path Moves before ls after ∧ Holds n t after

def requestedId (ops : Ops E X C R I) (s : Daemon E X C) : Event R I → Option Nat
  | .createDump r =>
      match ops.createDump r s with
      | .ok id _ => id
      | .error _ _ => none
  | _ => none

/-- The entry is there after the event, and no request has been answered with its id. -/
def Stays (ops : Ops E X C R I) (n : Nat) (s : Daemon E X C) (ev : Event R I) : Prop :=
  requestedId ops s ev ≠ some n ∧ ∀ t ∈ step ops s ev, n ∈ t.entries

instance decidableStays (ops : Ops E X C R I) (n : Nat) (s : Daemon E X C) (ev : Event R I) :
    Decidable (Stays ops n s ev) := inferInstanceAs (Decidable (_ ∧ _))

def Untouched (named : Path → Option Nat) (n : Nat) (s : Daemon E X C) (ev : Event R I) : Prop :=
  ¬ Concerns named n s ev

theorem not_requested_of_stays {ev : Event R I} (h : Stays ops n s ev) : ¬ Shows ops named n s ev .requested := by
  intro hshows
  cases hshows with
  | requested r t hr =>
      apply h.1
      rw [requestedId, hr]

theorem not_removed_of_stays {ev : Event R I} (h : Stays ops n s ev) : ¬ Shows ops named n s ev .removed := by
  intro hshows
  cases hshows with
  | removed _ t ht hgone => exact hgone (h.2 t ht)

theorem untouched_labels {ev : Event R I} (h : Untouched named n s ev) :
    ¬ Shows ops named n s ev .failed ∧ ∀ file, ¬ Shows ops named n s ev (.stored file) := by
  constructor
  · intro hshows
    cases hshows with
    | failed pid hfail => exact h hfail
  · intro file hshows
    cases hshows with
    | stored io _ htaken =>
        apply h
        rw [Concerns, htaken]
        rfl

/-- What an entry that stays may become: it is still the same dump, it is not being collected
again, and its file is not taken from it. -/
structure Continues (e e' : E) : Prop where
  origin : origin e' = origin e
  status : (DumpEntry.base e).status ≠ .InProgress → (DumpEntry.base e').status ≠ .InProgress
  file : (DumpEntry.file e).isSome = true → (DumpEntry.file e').isSome = true

theorem status_ne_inProgress {phase : Phase Path} : phase.status ≠ .InProgress ↔ phase ≠ .collecting := by
  cases phase <;> simp [Phase.status]

/-- The labels that can be seen of such an entry leave what the specification says they leave. -/
theorem run_continues (hops : Sound ops named) (horigin : KeepsOrigin ops) {slot : Slot Origin Path}
    (hslot : Holds n u slot) (hrun : run (step ops) u fs = some t) {e : E} (he : u.entries[n]? = some (some e))
    (hstays : EachStep (step ops) (Stays ops n) u fs) : ∃ e', t.entries[n]? = some (some e') ∧ Continues e e' ∧
      (EachStep (step ops) (Untouched named n) u fs →
        (DumpEntry.base e').status = (DumpEntry.base e).status ∧ DumpEntry.file e' = DumpEntry.file e) := by
  have hentry := hslot
  rw [Holds, he] at hentry
  obtain ⟨phase, rfl, hst, hfile⟩ := represents_entry hentry
  obtain ⟨ls, after, hseen, hpath, hafter⟩ := (step_refines hops horigin n).run hrun hslot
  have hlabels : ∀ l, EachStep (step ops) (fun s ev => ¬ Shows ops named n s ev l) u fs → l ∉ ls :=
    fun l => not_mem_of_eachStep hrun hseen
  have hremoved := hlabels _ (eachStep_mono (fun _ _ => not_removed_of_stays) hstays)
  have hrequested := hlabels _ (eachStep_mono (fun _ _ => not_requested_of_stays) hstays)
  have hend := path_dump hpath hremoved hrequested
  rw [hend] at hafter
  obtain ⟨e', he', horigin', hst', hfile'⟩ := represents_dump hafter
  refine ⟨e', he', ⟨horigin', fun hne => ?_, fun hsome => ?_⟩, fun huntouched => ?_⟩
  · rw [hst] at hne
    rw [hst']
    exact status_ne_inProgress.mpr (foldl_after_started (status_ne_inProgress.mp hne))
  · rw [hfile']
    rw [hfile] at hsome
    exact foldl_after_file hsome
  · have hfailed : .failed ∉ ls := hlabels _ (eachStep_mono (fun _ _ h => (untouched_labels h).1) huntouched)
    have hstored : ∀ file, .stored file ∉ ls :=
      fun file => hlabels _ (eachStep_mono (fun _ _ h => (untouched_labels h).2 file) huntouched)
    rw [foldl_after_unchanged hfailed hstored] at hst' hfile'
    exact ⟨hst'.trans hst.symm, hfile'.trans hfile.symm⟩

/-- A request that returns an id that was not in use has made an entry in progress. -/
theorem requested_entry (hops : Sound ops named) {s : Daemon E X C} {r : R} {n : Nat}
    (hreturned : ops.createDump r s = .ok (some n) t) (hunused : n ∉ s.entries) :
    ∃ e, t.entries[n]? = some (some e) ∧ (DumpEntry.base e).status = .InProgress ∧ DumpEntry.file e = none := by
  have houtcome := hops.createDump r s
  rw [hreturned] at houtcome
  generalize hresult : (EStateM.Result.ok (some n) t : EStateM.Result Requests.Exn (Daemon E X C) (Option Nat)) = result
    at houtcome
  cases houtcome with
  | refused | unregistered => cases hresult
  | unfinished _ _ _ _ _ _ _ hno => exact absurd hresult.symm (hno n t)
  | inserted pid kind u e own hu _ _ _ hst hfile =>
      cases hresult
      refine ⟨e, ?_, hst, hfile⟩
      rw [insertIfNew_get]
      have habsent : u.entries[nextEntryId u]? = none := by
        cases hold : u.entries[nextEntryId u]? with
        | none => rfl
        | some v => exact absurd ((mem_iff _ _).mpr ⟨v, hu.entries _ v hold⟩) hunused
      simp [habsent]

/-- The file, when the watch takes it up, completes the entry, unless that has been deleted by then. -/
def CompletedBy (ops : Ops E X C R I) (n : Nat) (file : Path) (s : Daemon E X C) (e : E) : Prop :=
  ∀ es u v io rest, run (step ops) s es = some u → EachStep (step ops) (Stays ops n) s es →
    u.todo = (file, IN_CLOSE_WRITE) :: rest → u.disk.isDirectory file = false → step ops u (.handle io) = some v →
    ∃ e', v.entries[n]? = some (some e') ∧ (DumpEntry.base e').status = .Completed ∧ DumpEntry.file e' = some file ∧
      origin e' = origin e

theorem completedBy (hops : Sound ops named) (horigin : KeepsOrigin ops) {slot : Slot Origin Path}
    (hslot : Holds n s slot) {e : E} (he : s.entries[n]? = some (some e)) {file : Path}
    (hnamed : named file = some n) : CompletedBy ops n file s e := by
  intro es u v io rest hrun hstays htodo hregular h
  obtain ⟨e₁, he₁, hcontinues, -⟩ := run_continues hops horigin hslot hrun he hstays
  have htaken : takenUp named u n = some file := by simp [takenUp, htodo, hregular, hnamed]
  rcases handle_slot hops horigin h with ⟨-, hno⟩ | ⟨file', e', htaken', hslot', hst, hfile, hold⟩
  · exact absurd he₁ (hno (by rw [htaken]; rfl) e₁)
  · cases htaken.symm.trans htaken'
    refine ⟨e', hslot', hst, hfile, ?_⟩
    rcases hold with hnone | ⟨e₂, he₂, horigin₂⟩
    · cases hnone.symm.trans he₁
    · cases he₁.symm.trans he₂
      exact horigin₂.trans hcontinues.origin

end Runs

section Accounts

variable {ops : Ops E X C R I} {named : Path → Option Nat} {s t : Daemon E X C} {es : List (Event R I)} {n : Nat}

def EndsBadly (pid : Nat) : Event R I → Prop
  | .exits p status => p = pid ∧ status ≠ 0
  | .stops p _ => p = pid
  | _ => False

/-- A collector of the dump has ended badly, or has been stopped. -/
def Broken (n : Nat) (s : Daemon E X C) : Prop :=
  ∃ (pid : Nat) (p : Process C) (status : Nat), s.procs[pid]? = some p ∧ p.collector.entryId = n ∧
    siStatus p.state = some status ∧ status ≠ 0

def Breaks (n : Nat) (s : Daemon E X C) (ev : Event R I) : Prop :=
  ∃ (pid : Nat) (p : Process C), s.procs[pid]? = some p ∧ p.collector.entryId = n ∧ EndsBadly pid ev

omit [DumpEntry E] in
theorem broken_changeState {pid : Nat} {p : Process C} {state : ProcessState}
    (h : Broken n (changeState s pid p state)) :
    Broken n s ∨ p.collector.entryId = n ∧ ∃ status, siStatus state = some status ∧ status ≠ 0 := by
  obtain ⟨q, p', status, hq, hcollector, hstatus, hne⟩ := h
  change (s.procs.insert pid { p with state := state })[q]? = some p' at hq
  rw [insert_get] at hq
  split at hq
  · cases hq
    exact .inr ⟨hcollector, status, hstatus, hne⟩
  · exact .inl ⟨q, p', status, hq, hcollector, hstatus, hne⟩

omit [DumpEntry E] in
theorem broken_of_procs (hprocs : ∀ (pid : Nat) (p : Process C), t.procs[pid]? = some p →
    s.procs[pid]? = some p ∨ p.state = .running) (h : Broken n t) : Broken n s := by
  obtain ⟨pid, p, status, hp, hcollector, hstatus, hne⟩ := h
  rcases hprocs pid p hp with hold | hrunning
  · exact ⟨pid, p, status, hold, hcollector, hstatus, hne⟩
  · rw [hrunning] at hstatus
    cases hstatus

/-- The step lemma for the processes. -/
theorem step_broken (hops : Sound ops named) {ev : Event R I} (h : step ops s ev = some t) (hbroken : Broken n t) :
    Broken n s ∨ Breaks n s ev := by
  cases ev with
  | exits pid status =>
      obtain ⟨p, hp, -, rfl⟩ := step_exits h
      rcases broken_changeState hbroken with hold | ⟨hcollector, _, hstatus, hne⟩
      · exact .inl hold
      · cases hstatus
        exact .inr ⟨pid, p, hp, hcollector, rfl, hne⟩
  | stops pid signal =>
      obtain ⟨p, hp, -, -, rfl⟩ := step_stops h
      rcases broken_changeState hbroken with hold | ⟨hcollector, -⟩
      · exact .inl hold
      · exact .inr ⟨pid, p, hp, hcollector, rfl⟩
  | continues pid =>
      obtain ⟨p, signal, hp, -, rfl⟩ := step_continues h
      rcases broken_changeState hbroken with hold | ⟨-, _, hstatus, -⟩
      · exact .inl hold
      · cases hstatus
  | createDump r =>
      obtain ⟨-, -, hrun⟩ := step_createDump h
      have hfinal := final_of_reply (reply_eq_some.mpr hrun)
      refine .inl (broken_of_procs (fun q p hq => ?_) hbroken)
      rcases outcome_children (hops.createDump r s) with ⟨hprocs, -⟩ | ⟨pid, c, -, hprocs, -⟩
      · rw [hfinal] at hprocs
        rw [hprocs] at hq
        exact .inl hq
      · rw [hfinal] at hprocs
        rw [hprocs, insert_get] at hq
        split at hq
        · cases hq
          exact .inr rfl
        · exact .inl hq
  | childNotification pid =>
      obtain ⟨-, c, p, status, -, -, -, rfl⟩ := step_childNotification h
      refine .inl (broken_of_procs (fun q p' hq => .inl ?_) hbroken)
      cases hstate : p.state with
      | exited code =>
          rw [hstate] at hq
          change (s.procs.erase pid)[q]? = some p' at hq
          rw [erase_get] at hq
          split at hq
          · cases hq
          · exact hq
      | running | stopped =>
          rw [hstate] at hq
          exact hq
  | watchReady path =>
      obtain ⟨-, w, -, rfl⟩ := step_watchReady h
      refine .inl (broken_of_procs (fun q p hq => .inl ?_) hbroken)
      rw [setWatch] at hq
      split at hq <;> exact hq
  | handle io =>
      refine .inl (broken_of_procs (fun q p hq => .inl ?_) hbroken)
      obtain ⟨path, mask, rest, -, ⟨-, -, u, hfile⟩ | ⟨-, -, rfl⟩ | ⟨-, -, -, rfl⟩ | ⟨-, -, rfl⟩⟩ := step_handle h
      · rw [(hops.createEntry _ _ _ _ _ hfile).procs] at hq
        exact hq
      all_goals exact hq
  | delete id =>
      obtain ⟨-, e, -, rfl⟩ := step_delete h
      exact .inl (broken_of_procs (fun q p hq => .inl ((trimmed_deleteEntry s e).procs ▸ hq)) hbroken)
  | deleteAll =>
      obtain ⟨-, hrun⟩ := step_deleteAll h
      have htrim := keeps_deleteAll s
      rw [final_of_reply (reply_eq_some.mpr hrun)] at htrim
      exact .inl (broken_of_procs (fun q p hq => .inl (htrim.procs ▸ hq)) hbroken)
  | files f =>
      obtain rfl := step_files h
      exact .inl (broken_of_procs (fun q p hq => .inl ((filesOnly_files s f).procs ▸ hq)) hbroken)

def HasFailed (n : Nat) (s : Daemon E X C) : Prop :=
  ∃ e, s.entries[n]? = some (some e) ∧ (DumpEntry.base e).status = .Failed

theorem step_hasFailed (hops : Sound ops named) (hs : Registered s) {ev : Event R I} (h : step ops s ev = some t)
    (hfailed : HasFailed n t) : HasFailed n s ∨ Broken n s := by
  obtain ⟨e, he, hst⟩ := hfailed
  have hslot := step_slot hops h he
  generalize hv : some e = v at hslot
  cases hslot with
  | kept _ _ hkept => exact .inl ⟨e, hv ▸ hkept, hst⟩
  | created _ _ _ _ _ _ _ _ _ hnew =>
      cases hv
      rw [hst] at hnew
      cases hnew
  | filed _ _ _ _ _ _ hnew =>
      cases hv
      rw [hst] at hnew
      cases hnew
  | failed pid hfail =>
      obtain ⟨-, c, p, status, hchild, hp, hstatus, -⟩ := step_childNotification h
      rw [failure_eq hchild hp hstatus] at hfail
      obtain ⟨p', hp', hcollector⟩ := hs pid c hchild
      cases hp.symm.trans hp'
      split at hfail
      · cases hfail
      · rename_i hne
        cases hfail
        exact .inr ⟨pid, p, status, hp, by rw [hcollector], hstatus, hne⟩

/-- Where the entries of a run come from. -/
structure Accounted (ops : Ops E X C R I) (named : Path → Option Nat) (s : Daemon E X C) (es : List (Event R I))
    (n : Nat) (e : E) : Prop where
  inProgress : (DumpEntry.base e).status = .InProgress →
    SomeStep (step ops) (fun u ev => requestedId ops u ev = some n) s es
  failed : (DumpEntry.base e).status = .Failed → SomeStep (step ops) (Breaks n) s es
  file : ∀ file, DumpEntry.file e = some file → (∃ e₀, s.entries[n]? = some (some e₀) ∧ DumpEntry.file e₀ = some file) ∨
    SomeStep (step ops) (fun u ev => (∃ io, ev = .handle io) ∧ takenUp named u n = some file) s es

theorem run_failed (hops : Sound ops named) (hs : Registered s) (hrun : run (step ops) s es = some t)
    (h : HasFailed n t) : (HasFailed n s ∨ Broken n s) ∨ SomeStep (step ops) (Breaks n) s es := by
  have hregistered : EachStep (step ops) (fun u _ => Registered u) s es :=
    eachStep_along (I := Registered) (C := fun _ _ => True) (fun _ _ hu _ => hu)
      (fun u ev v hu _ => step_registered hops u ev v hu) hs (eachStep_of_forall (fun _ _ => trivial) s es)
  have hstep : ∀ u ev v, Registered u → step ops u ev = some v → HasFailed n v ∨ Broken n v →
      (HasFailed n u ∨ Broken n u) ∨ Breaks n u ev := by
    intro u ev v hu hv hP
    rcases hP with hfailed | hbroken
    · exact .inl (step_hasFailed hops hu hv hfailed)
    · exact (step_broken hops hv hbroken).imp_left .inr
  exact someStep_of_reached hstep hregistered hrun (.inl h)

theorem run_file (hops : Sound ops named) (horigin : KeepsOrigin ops) {slot : Slot Origin Path} (hslot : Holds n s slot)
    (hrun : run (step ops) s es = some t) {e : E} (he : t.entries[n]? = some (some e)) {file : Path}
    (hfile : DumpEntry.file e = some file) : (∃ o phase, slot = .dump o phase ∧ phase.file = some file) ∨
      SomeStep (step ops) (fun u ev => (∃ io, ev = .handle io) ∧ takenUp named u n = some file) s es := by
  have hmove : ∀ (a : Slot Origin Path) l b, Moves a l b → (∃ o phase, b = .dump o phase ∧ phase.file = some file) →
      (∃ o phase, a = .dump o phase ∧ phase.file = some file) ∨ l = .stored file := by
    rintro a l b hmove ⟨o, phase, rfl, hphase⟩
    cases hmove with
    | requested => cases hphase
    | found | stored =>
        cases hphase
        exact .inr rfl
    | failed o phase => exact .inl ⟨o, phase, rfl, hphase⟩
    | unchanged => exact .inl ⟨o, phase, rfl, hphase⟩
  obtain ⟨after, hafter, hreached⟩ := (step_refines hops horigin n).reached hmove hrun hslot
  rw [Holds, he] at hafter
  obtain ⟨phase, rfl, -, hphase⟩ := represents_entry hafter
  rcases hreached ⟨_, phase, rfl, by rw [← hphase, hfile]⟩ with hbefore | ⟨l, rfl, hsome⟩
  · exact .inl hbefore
  · refine .inr (someStep_mono (fun u ev hshows => ?_) hsome)
    cases hshows with
    | stored io _ htaken => exact ⟨⟨io, rfl⟩, htaken⟩

theorem accounted (hops : Sound ops named) (horigin : KeepsOrigin ops) (hs : Begun s)
    (hrun : run (step ops) s es = some t) {e : E} (he : t.entries[n]? = some (some e)) :
    Accounted ops named s es n e := by
  obtain ⟨slot, hslot, hbegins⟩ := hs.slot n
  refine ⟨fun hst => ?_, fun hst => ?_, fun file hfile => ?_⟩
  · have hmove : ∀ (a : Slot Origin Path) l b, Moves a l b → (∃ o, b = .dump o .collecting) →
        (∃ o, a = .dump o .collecting) ∨ l = .requested := by
      rintro a l b hmove ⟨o, rfl⟩
      cases hmove with
      | requested => exact .inr rfl
      | unchanged => exact .inl ⟨o, rfl⟩
    obtain ⟨after, hafter, hreached⟩ := (step_refines hops horigin n).reached hmove hrun hslot
    rw [Holds, he] at hafter
    obtain ⟨phase, rfl, hphase, -⟩ := represents_entry hafter
    rw [hst] at hphase
    cases phase with
    | collecting =>
        rcases hreached ⟨_, rfl⟩ with ⟨o, rfl⟩ | ⟨l, rfl, hsome⟩
        · rcases hbegins with h | ⟨_, _, h⟩ <;> cases h
        · refine someStep_mono (fun u ev hshows => ?_) hsome
          cases hshows with
          | requested r v hr => rw [requestedId, hr]
    | collected | failed => cases hphase
  · rcases run_failed hops (registered_of_idle hs.idle) hrun ⟨e, he, hst⟩ with
      (⟨e, he, hst⟩ | ⟨pid, p, status, hp, -⟩) | hsome
    · rw [(hs.found n e he).1] at hst
      cases hst
    · rw [hs.idle.procs] at hp
      cases hp
    · exact hsome
  · rcases run_file hops horigin hslot hrun he hfile with ⟨o, before, rfl, hbefore⟩ | hsome
    · obtain ⟨e₀, he₀, -, -, hfile₀⟩ := represents_dump hslot
      exact .inl ⟨e₀, he₀, hfile₀.trans hbefore⟩
    · exact .inr hsome

end Accounts

section Managers

variable {ops : Ops E X C R I} {named : Path → Option Nat} {started : Daemon E X C → Prop}

def KeptInRuns (ops : Ops E X C R I) (named : Path → Option Nat) (started : Daemon E X C → Prop) : Prop :=
  ∀ s u t es fs n e, started s → run (step ops) s es = some u → run (step ops) u fs = some t →
    u.entries[n]? = some (some e) → EachStep (step ops) (Stays ops n) u fs → ∃ e', t.entries[n]? = some (some e') ∧
      Continues e e' ∧ (EachStep (step ops) (Untouched named n) u fs →
        (DumpEntry.base e').status = (DumpEntry.base e).status ∧ DumpEntry.file e' = DumpEntry.file e)

def AccountedInRuns (ops : Ops E X C R I) (named : Path → Option Nat) (started : Daemon E X C → Prop) : Prop :=
  ∀ s t es n e, started s → run (step ops) s es = some t → t.entries[n]? = some (some e) → Accounted ops named s es n e

theorem livesUp (hops : Sound ops named) (horigin : KeepsOrigin ops) (hbegun : ∀ s, started s → Begun s) :
    LivesUp ops named started := by
  intro s t es n hs hrun
  obtain ⟨before, hbefore, hbegins⟩ := (hbegun s hs).slot n
  obtain ⟨ls, after, hseen, hpath, hafter⟩ := (step_refines hops horigin n).run hrun hbefore
  exact ⟨before, ls, after, hbefore, hbegins, hseen, hpath, hafter⟩

theorem keptInRuns (hops : Sound ops named) (horigin : KeepsOrigin ops) (hbegun : ∀ s, started s → Begun s) :
    KeptInRuns ops named started := by
  intro s u t es fs n e hs hes hfs he hstays
  obtain ⟨before, hbefore, -⟩ := (hbegun s hs).slot n
  obtain ⟨ls, slot, -, -, hslot⟩ := (step_refines hops horigin n).run hes hbefore
  exact run_continues hops horigin hslot hfs he hstays

theorem accountedInRuns (hops : Sound ops named) (horigin : KeepsOrigin ops) (hbegun : ∀ s, started s → Begun s) :
    AccountedInRuns ops named started :=
  fun s _ _ _ _ hs hrun he => accounted hops horigin (hbegun s hs) hrun he

variable (bmc : Bmc.Manager.Config) (system : System.Manager.Config) (faultLog : FaultLog.Manager.Config)
  (fdr : Fdr.Manager.Config)

/-- The code of the four managers refines the life of a dump. -/
theorem managers_refine_lifecycle :
    LivesUp (Bmc.Manager.bmcOps bmc) (fun file => namedId bmc.plat (filename file)) (Bmc.Manager.Started bmc) ∧
    LivesUp (System.Manager.systemOps system) (fun file => namedId system.plat (filename file))
      (System.Manager.Started system) ∧
    LivesUp (FaultLog.Manager.faultLogOps faultLog) (fun file => namedId faultLog.plat (filename file))
      (FaultLog.Manager.Started faultLog) ∧
    LivesUp (Fdr.Manager.fdrOps fdr) (fun file => namedId fdr.plat (filename file)) (Fdr.Manager.Started fdr) :=
  ⟨livesUp (Bmc.Steps.sound bmc) (keepsOrigin_bmc bmc) fun _ => begun_bmc,
    livesUp (System.Steps.sound system) (keepsOrigin_system system) fun _ => begun_system,
    livesUp (FaultLog.Steps.sound faultLog) (keepsOrigin_faultLog faultLog) fun _ => begun_faultLog,
    livesUp (Fdr.Steps.sound fdr) (keepsOrigin_fdr fdr) fun _ => begun_fdr⟩

/-- As long as an entry stays, it is the same dump, whatever else the managers do. -/
theorem entries_stay_themselves :
    KeptInRuns (Bmc.Manager.bmcOps bmc) (fun file => namedId bmc.plat (filename file)) (Bmc.Manager.Started bmc) ∧
    KeptInRuns (System.Manager.systemOps system) (fun file => namedId system.plat (filename file))
      (System.Manager.Started system) ∧
    KeptInRuns (FaultLog.Manager.faultLogOps faultLog) (fun file => namedId faultLog.plat (filename file))
      (FaultLog.Manager.Started faultLog) ∧
    KeptInRuns (Fdr.Manager.fdrOps fdr) (fun file => namedId fdr.plat (filename file)) (Fdr.Manager.Started fdr) :=
  ⟨keptInRuns (Bmc.Steps.sound bmc) (keepsOrigin_bmc bmc) fun _ => begun_bmc,
    keptInRuns (System.Steps.sound system) (keepsOrigin_system system) fun _ => begun_system,
    keptInRuns (FaultLog.Steps.sound faultLog) (keepsOrigin_faultLog faultLog) fun _ => begun_faultLog,
    keptInRuns (Fdr.Steps.sound fdr) (keepsOrigin_fdr fdr) fun _ => begun_fdr⟩

/-- What an entry says of itself is what a request, a collector or a file has brought about. -/
theorem entries_accounted :
    AccountedInRuns (Bmc.Manager.bmcOps bmc) (fun file => namedId bmc.plat (filename file)) (Bmc.Manager.Started bmc) ∧
    AccountedInRuns (System.Manager.systemOps system) (fun file => namedId system.plat (filename file))
      (System.Manager.Started system) ∧
    AccountedInRuns (FaultLog.Manager.faultLogOps faultLog) (fun file => namedId faultLog.plat (filename file))
      (FaultLog.Manager.Started faultLog) ∧
    AccountedInRuns (Fdr.Manager.fdrOps fdr) (fun file => namedId fdr.plat (filename file)) (Fdr.Manager.Started fdr) :=
  ⟨accountedInRuns (Bmc.Steps.sound bmc) (keepsOrigin_bmc bmc) fun _ => begun_bmc,
    accountedInRuns (System.Steps.sound system) (keepsOrigin_system system) fun _ => begun_system,
    accountedInRuns (FaultLog.Steps.sound faultLog) (keepsOrigin_faultLog faultLog) fun _ => begun_faultLog,
    accountedInRuns (Fdr.Steps.sound fdr) (keepsOrigin_fdr fdr) fun _ => begun_fdr⟩

end Managers

section Lives

open Bmc.Manager

def collected : List (Event Request FileEvent) := .createDump (plainRequest 7) :: dumpArrives plainEvent

/-- An entry, once requested, lasts until it has its file. -/
theorem collected_lives : ∃ t before ls after,
    run (step (bmcOps defaultConfig)) (bare ⟨false⟩ .root) collected = some t ∧
    Path Moves before ls after ∧ Holds 1 t after ∧ ls.length = collected.length := by
  have h : (run (step (bmcOps defaultConfig)) (bare ⟨false⟩ .root) collected).isSome = true := by decide +kernel
  obtain ⟨t, hrun⟩ := Option.isSome_iff_exists.mp h
  obtain ⟨before, ls, after, -, -, hseen, hpath, hafter⟩ := (managers_refine_lifecycle defaultConfig
    System.Manager.defaultConfig FaultLog.Manager.defaultConfig Fdr.Manager.defaultConfig).1 _ _ _ 1
    (started_root _) hrun
  exact ⟨t, before, ls, after, hrun, hpath, hafter, seen_length hrun hseen⟩

theorem collected_stays : ∃ u t e e', run (step (bmcOps defaultConfig)) u (dumpArrives plainEvent) = some t ∧
    u.entries[1]? = some (some e) ∧ t.entries[1]? = some (some e') ∧ Continues e e' := by
  have h : ((run (step (bmcOps defaultConfig)) (bare ⟨false⟩ .root) [.createDump (plainRequest 7)]).bind fun u =>
      (run (step (bmcOps defaultConfig)) u (dumpArrives plainEvent)).map fun _ =>
        (u.entries[1]?.getD none).isSome && decide
          (EachStep (step (bmcOps defaultConfig)) (Stays (bmcOps defaultConfig) 1) u (dumpArrives plainEvent))) =
      some true := by decide +kernel
  obtain ⟨u, hu, h⟩ := Option.bind_eq_some_iff.mp h
  obtain ⟨t, ht, h⟩ := Option.map_eq_some_iff.mp h
  rw [Bool.and_eq_true, decide_eq_true_eq] at h
  obtain ⟨e, he⟩ := Option.isSome_iff_exists.mp h.1
  obtain ⟨e', he', hcontinues, -⟩ := (entries_stay_themselves defaultConfig System.Manager.defaultConfig
    FaultLog.Manager.defaultConfig Fdr.Manager.defaultConfig).1 _ u t _ _ 1 e (started_root _) hu ht
    (getD_eq_some he) h.2
  exact ⟨u, t, e, e', ht, getD_eq_some he, he', hcontinues⟩

theorem collected_accounted : ∃ t e, run (step (bmcOps defaultConfig)) (bare ⟨false⟩ .root) collected = some t ∧
    t.entries[1]? = some (some e) ∧ e.base.status = .Completed ∧ Accounted (bmcOps defaultConfig)
      (fun file => namedId defaultConfig.plat (filename file)) (bare ⟨false⟩ .root) collected 1 e := by
  have h : ((run (step (bmcOps defaultConfig)) (bare ⟨false⟩ .root) collected).bind fun t =>
      (t.entries[1]?.getD none).map fun e => e.base.status) = some .Completed := by decide +kernel
  obtain ⟨t, ht, h⟩ := Option.bind_eq_some_iff.mp h
  obtain ⟨e, he, hst⟩ := Option.map_eq_some_iff.mp h
  refine ⟨t, e, ht, getD_eq_some he, hst, ?_⟩
  exact (entries_accounted defaultConfig System.Manager.defaultConfig FaultLog.Manager.defaultConfig
    Fdr.Manager.defaultConfig).1 _ _ _ 1 e (started_root _) ht (getD_eq_some he)

end Lives

end DumpCollector.Lives
