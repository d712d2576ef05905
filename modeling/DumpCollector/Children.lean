import DumpCollector.Slots

namespace DumpCollector.Children

open Std Lib.Directory Lib.Effects Lib.Maps Lib.Runs Entries Inotify Requests State Dispatch Frames Steps Slots

variable {E X C R I : Type}

/-- A process that has not exited; it may be stopped. -/
def Alive (p : Process C) : Prop := ∀ status, p.state ≠ .exited status

/-- The collectors that are registered with the event loop are processes, which have
not been reaped. -/
def Registered (s : Daemon E X C) : Prop :=
  ∀ (pid : Nat) (c : Collector C), s.childPtrMap[pid]? = some c → ∃ p, s.procs[pid]? = some p ∧ p.collector = c

/-- Every exit of a registered collector has been reported. -/
def Settled (s : Daemon E X C) : Prop :=
  ∀ (pid : Nat) (p : Process C), pid ∈ s.childPtrMap → s.procs[pid]? = some p → Alive p

theorem alive_running (c : Collector C) : Alive (⟨c, .running⟩ : Process C) := fun _ => nofun

section Invariant

variable {s t : Daemon E X C}

theorem not_registered_of_fresh {pid : Nat} (hs : Registered s) (hfresh : pid ∉ s.procs) :
    s.childPtrMap[pid]? = none := by
  cases hc : s.childPtrMap[pid]? with
  | none => rfl
  | some c =>
      obtain ⟨p, hp, -⟩ := hs pid c hc
      rw [(not_mem_iff _ _).mp hfresh] at hp
      cases hp

theorem registered_of_eq (hprocs : t.procs = s.procs) (hchildren : t.childPtrMap = s.childPtrMap)
    (hs : Registered s) : Registered t := by
  intro pid c hc
  rw [hchildren] at hc
  rw [hprocs]
  exact hs pid c hc

theorem registered_of_started {pid : Nat} {c : Collector C} {state : ProcessState} (hfresh : pid ∉ s.procs)
    (hprocs : t.procs = s.procs.insert pid ⟨c, state⟩)
    (hchildren : t.childPtrMap = s.childPtrMap ∨ t.childPtrMap = s.childPtrMap.insertIfNew pid c)
    (hs : Registered s) : Registered t := by
  have hold : ∀ (q : Nat) (d : Collector C), s.childPtrMap[q]? = some d →
      ∃ p, t.procs[q]? = some p ∧ p.collector = d := by
    intro q d hd
    obtain ⟨p, hp, hpd⟩ := hs q d hd
    have hne : pid ≠ q := by
      rintro rfl
      rw [(not_mem_iff _ _).mp hfresh] at hp
      cases hp
    exact ⟨p, by rw [hprocs, insert_get, if_neg hne, hp], hpd⟩
  intro q d hd
  rcases hchildren with hc | hc
  · rw [hc] at hd
    exact hold q d hd
  · rw [hc] at hd
    rcases insertIfNew_cases hd with hd | ⟨rfl, -, rfl⟩
    · exact hold q d hd
    · exact ⟨_, by rw [hprocs, insert_get, if_pos rfl], rfl⟩

theorem registered_changeState {pid : Nat} {p : Process C} (hp : s.procs[pid]? = some p) (state : ProcessState)
    (hs : Registered s) : Registered (changeState s pid p state) := by
  intro q c hc
  obtain ⟨p', hp', hpc⟩ := hs q c hc
  change ∃ p'', (s.procs.insert pid { p with state := state })[q]? = some p'' ∧ p''.collector = c
  rw [insert_get]
  split
  · rename_i hq
    subst hq
    rw [hp] at hp'
    cases hp'
    exact ⟨_, rfl, hpc⟩
  · exact ⟨p', hp', hpc⟩

theorem registered_ended {pid : Nat} (hchildren : t.childPtrMap = s.childPtrMap.erase pid)
    (hprocs : t.procs = s.procs ∨ t.procs = s.procs.erase pid) (hs : Registered s) : Registered t := by
  intro q c hc
  rw [hchildren, erase_get] at hc
  split at hc
  · cases hc
  · rename_i hne
    obtain ⟨p, hp, hpc⟩ := hs q c hc
    refine ⟨p, ?_, hpc⟩
    rcases hprocs with hpr | hpr
    · rw [hpr, hp]
    · rw [hpr, erase_get, if_neg hne, hp]

end Invariant

variable [DumpEntry E]

theorem outcome_children {f : Fork} {s : Daemon E X C} {r : EStateM.Result Exn (Daemon E X C) (Option Nat)}
    (h : Outcome f s r) :
    ((final r).procs = s.procs ∧ (final r).childPtrMap = s.childPtrMap) ∨
    ∃ pid c, f.pid = some pid ∧ (final r).procs = s.procs.insert pid ⟨c, .running⟩ ∧
      ((final r).childPtrMap = s.childPtrMap ∨ (final r).childPtrMap = s.childPtrMap.insertIfNew pid c) := by
  cases h with
  | refused e t ht => exact .inl ⟨ht.procs, ht.childPtrMap⟩
  | unregistered e pid kind u own hu hpid =>
      refine .inr ⟨pid, ⟨kind, nextEntryId u⟩, hpid, ?_, .inl hu.childPtrMap⟩
      rw [← hu.procs]
      rfl
  | unfinished _ pid kind u hu hpid _ _ hfin =>
      rw [hfin]
      refine .inr ⟨pid, ⟨kind, nextEntryId u⟩, hpid, ?_, .inr ?_⟩
      · rw [← hu.procs]
        rfl
      · rw [← hu.childPtrMap]
        rfl
  | inserted pid kind u e own hu hpid =>
      refine .inr ⟨pid, ⟨kind, nextEntryId u⟩, hpid, ?_, .inr ?_⟩
      · rw [← hu.procs]
        rfl
      · rw [← hu.childPtrMap]
        rfl

omit [DumpEntry E] in
theorem not_mem_of_fresh {f : Fork} {s : Daemon E X C} (h : f.fresh s = true) {pid : Nat} (hpid : f.pid = some pid) :
    pid ∉ s.procs := by
  rw [Fork.fresh, hpid] at h
  rw [Bool.not_eq_true'] at h
  rw [ExtTreeMap.mem_iff_contains, h]
  exact Bool.false_ne_true

theorem step_registered {ops : Ops E X C R I} {named : Path → Option Nat} (hops : Sound ops named)
    (s : Daemon E X C) (ev : Event R I) (t : Daemon E X C) (hs : Registered s) (h : step ops s ev = some t) :
    Registered t := by
  cases step_cases h with
  | request r hfresh hfinal =>
      rcases outcome_children (hops.createDump r s) with ⟨hprocs, hchildren⟩ | ⟨pid, c, hpid, hprocs, hchildren⟩
      · rw [hfinal] at hprocs hchildren
        exact registered_of_eq hprocs hchildren hs
      · rw [hfinal] at hprocs hchildren
        exact registered_of_started (not_mem_of_fresh hfresh hpid) hprocs hchildren hs
  | trimmed _ _ htrim => exact registered_of_eq htrim.procs htrim.childPtrMap hs
  | changed _ _ pid p state hp _ ht =>
      subst ht
      exact registered_changeState hp state hs
  | read p =>
      obtain ⟨-, w, -, rfl⟩ := step_watchReady h
      rw [setWatch]
      split <;> exact registered_of_eq rfl rfl hs
  | handled io =>
      obtain ⟨path, mask, rest, -, ⟨-, -, u, hc⟩ | ⟨-, -, rfl⟩ | ⟨-, -, -, rfl⟩ | ⟨-, -, rfl⟩⟩ := step_handle h
      · have hfiled := hops.createEntry _ _ _ _ _ hc
        exact registered_of_eq hfiled.procs hfiled.childPtrMap hs
      all_goals exact registered_of_eq rfl rfl hs
  | notified pid =>
      obtain ⟨-, c, p, status, -, -, -, rfl⟩ := step_childNotification h
      cases p.state with
      | exited status => exact registered_ended rfl (.inr rfl) hs
      | running | stopped signal => exact registered_ended rfl (.inl rfl) hs

theorem step_keeps_child {ops : Ops E X C R I} {named : Path → Option Nat} (hops : Sound ops named)
    {s t : Daemon E X C} {ev : Event R I} (h : step ops s ev = some t) {pid : Nat} {c : Collector C}
    (hev : ev ≠ .childNotification pid) (hc : s.childPtrMap[pid]? = some c) : t.childPtrMap[pid]? = some c := by
  cases step_cases h with
  | request r _ hfinal =>
      rcases outcome_children (hops.createDump r s) with ⟨-, hchildren⟩ | ⟨q, d, -, -, hchildren | hchildren⟩
      · rw [← hfinal, hchildren, hc]
      · rw [← hfinal, hchildren, hc]
      · rw [← hfinal, hchildren, insertIfNew_get, hc]
        split <;> rfl
  | trimmed _ _ htrim => rw [htrim.childPtrMap, hc]
  | changed _ _ q p state _ _ ht =>
      subst ht
      exact hc
  | read p =>
      obtain ⟨-, w, -, rfl⟩ := step_watchReady h
      rw [setWatch]
      split <;> exact hc
  | handled io =>
      obtain ⟨path, mask, rest, -, ⟨-, -, u, hfile⟩ | ⟨-, -, rfl⟩ | ⟨-, -, -, rfl⟩ | ⟨-, -, rfl⟩⟩ := step_handle h
      · rw [(hops.createEntry _ _ _ _ _ hfile).childPtrMap]
        exact hc
      all_goals exact hc
  | notified q =>
      obtain ⟨-, d, p, status, -, -, -, rfl⟩ := step_childNotification h
      have hne : q ≠ pid := fun heq => hev (by rw [heq])
      cases p.state <;> exact (erase_get ..).trans ((if_neg hne).trans hc)

theorem step_other {ops : Ops E X C R I} {named : Path → Option Nat} (hops : Sound ops named)
    {s t : Daemon E X C} {ev : Event R I} (hev : ∀ r, ev ≠ .createDump r) (h : step ops s ev = some t) :
    t.lastEntryId = s.lastEntryId ∧ (∀ pid ∈ t.procs, pid ∈ s.procs) ∧
      ∀ (pid : Nat) (c : Collector C), t.childPtrMap[pid]? = some c → s.childPtrMap[pid]? = some c := by
  cases step_cases h with
  | request r => exact absurd rfl (hev r)
  | trimmed _ _ htrim =>
      exact ⟨htrim.lastEntryId, fun pid hpid => htrim.procs ▸ hpid, fun pid c hc => htrim.childPtrMap ▸ hc⟩
  | changed _ _ q p state hp _ ht =>
      subst ht
      refine ⟨rfl, fun pid hpid => ?_, fun _ _ hc => hc⟩
      rcases ExtTreeMap.mem_insert.mp hpid with heq | hold
      · rw [← LawfulEqCmp.eq_of_compare heq]
        exact (mem_iff _ _).mpr ⟨p, hp⟩
      · exact hold
  | read p =>
      obtain ⟨-, w, -, rfl⟩ := step_watchReady h
      rw [setWatch]
      split <;> exact ⟨rfl, fun _ hpid => hpid, fun _ _ hc => hc⟩
  | handled io =>
      obtain ⟨path, mask, rest, -, ⟨-, -, u, hfile⟩ | ⟨-, -, rfl⟩ | ⟨-, -, -, rfl⟩ | ⟨-, -, rfl⟩⟩ := step_handle h
      · have hfiled := hops.createEntry _ _ _ _ _ hfile
        refine ⟨hfiled.lastEntryId, fun pid hpid => ?_, fun pid c hc => ?_⟩
        · rw [hfiled.procs] at hpid
          exact hpid
        · rw [hfiled.childPtrMap] at hc
          exact hc
      all_goals exact ⟨rfl, fun _ hpid => hpid, fun _ _ hc => hc⟩
  | notified q =>
      obtain ⟨-, d, p, status, -, -, -, rfl⟩ := step_childNotification h
      have hchildren : ∀ (pid : Nat) (c : Collector C), (s.childPtrMap.erase q)[pid]? = some c →
          s.childPtrMap[pid]? = some c := by
        intro pid c hc
        rw [erase_get] at hc
        split at hc
        · cases hc
        · exact hc
      cases p.state with
      | exited status => exact ⟨rfl, fun pid hpid => ExtTreeMap.mem_of_mem_erase hpid, hchildren⟩
      | running | stopped signal => exact ⟨rfl, fun _ hpid => hpid, hchildren⟩

theorem registered_of_idle {s : Daemon E X C} (hs : Idle s) : Registered s := by
  intro pid c hc
  rw [hs.childPtrMap] at hc
  cases hc

end DumpCollector.Children
