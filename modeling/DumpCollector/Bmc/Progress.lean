import DumpCollector.Bmc.Confluence
import DumpCollector.Children
import DumpCollector.Unhandled

namespace DumpCollector.Bmc.Progress

open Std Lib.Directory Lib.Effects Lib.Maps Lib.Runs Entries FileNames Inotify Requests State Dispatch Frames
open DumpCollector.Steps Slots Children WatchPaths Unhandled Bmc.Manager Bmc.Steps Confluence

section Orphans

variable (cfg : Config) (n : Nat)

def Named (p : Path) : Prop := namedId cfg.plat (filename p) = some n

instance decidableNamed : DecidablePred (Named cfg n) := fun _ => inferInstanceAs (Decidable (namedId _ _ = _))

def collectors (s : BmcDaemon) : List Nat :=
  s.childPtrMap.toList.filterMap fun (pid, c) => if c.entryId = n then some pid else none

def InProgress (s : BmcDaemon) : Prop := ∃ e ∈ s.entries[n]?.join, e.base.status = .InProgress

instance decidableInProgress (s : BmcDaemon) : Decidable (InProgress n s) :=
  inferInstanceAs (Decidable (∃ e ∈ s.entries[n]?.join, e.base.status = .InProgress))

def orphans (s : BmcDaemon) : List Nat := s.entries.keys.filter fun n => InProgress n s ∧ collectors n s = []

end Orphans

variable (cfg : Config)

/-- A collector ends with status zero only while the close of its dump file is pending,
unless the entry is not in progress or has another collector; and the close that an entry
without a collector waits for is not lost, neither in a read nor with a watch. -/
def Attends (s : BmcDaemon) : Event Request FileEvent → Prop
  | .childNotification pid => ∀ c ∈ s.childPtrMap[pid]?, ∀ p ∈ s.procs[pid]?, siStatus p.state = some 0 →
      InProgress c.entryId s → (∃ q ∈ collectors c.entryId s, q ≠ pid) ∨ Pending (Named cfg c.entryId) s
  | .watchReady p => ∀ w ∈ watchAt s p, ∀ n ∈ orphans s, Pending (Named cfg n) (readWatch s p w)
  | .handle _ => ∀ x ∈ s.todo.head?, ∀ n ∈ orphans s,
      (x.2 = IN_CLOSE_WRITE ∧ Named cfg n x.1 ∧ s.disk.isDirectory x.1 = false) ∨
        Pending (Named cfg n) (takeItem s x.1 x.2)
  | _ => True

instance decidableAttends (s : BmcDaemon) (ev : Event Request FileEvent) : Decidable (Attends cfg s ev) :=
  match ev with
  | .childNotification pid => inferInstanceAs (Decidable (∀ c ∈ s.childPtrMap[pid]?, ∀ p ∈ s.procs[pid]?,
      siStatus p.state = some 0 → InProgress c.entryId s →
        (∃ q ∈ collectors c.entryId s, q ≠ pid) ∨ Pending (Named cfg c.entryId) s))
  | .watchReady p =>
      inferInstanceAs (Decidable (∀ w ∈ watchAt s p, ∀ n ∈ orphans s, Pending (Named cfg n) (readWatch s p w)))
  | .handle _ => inferInstanceAs (Decidable (∀ x ∈ s.todo.head?, ∀ n ∈ orphans s,
      (x.2 = IN_CLOSE_WRITE ∧ Named cfg n x.1 ∧ s.disk.isDirectory x.1 = false) ∨
        Pending (Named cfg n) (takeItem s x.1 x.2)))
  | .createDump _ | .delete _ | .deleteAll | .files _ | .exits _ _ | .stops _ _ | .continues _ => isTrue trivial

def Attended (s : BmcDaemon) : Prop :=
  Quiet s → ∀ n, InProgress n s → ∃ (pid : Nat) (p : Process DumpTypes), s.procs[pid]? = some p ∧
    p.collector.entryId = n ∧ p.state = .running

section Membership

variable {n : Nat} {s t : BmcDaemon}

theorem mem_collectors {pid : Nat} :
    pid ∈ collectors n s ↔ ∃ c : Collector DumpTypes, s.childPtrMap[pid]? = some c ∧ c.entryId = n := by
  simp only [collectors, List.mem_filterMap]
  constructor
  · rintro ⟨⟨q, c⟩, hmem, hx⟩
    have hget := ExtTreeMap.mem_toList_iff_getElem?_eq_some.mp hmem
    by_cases hid : c.entryId = n
    · simp only [hid, if_true, Option.some.injEq] at hx
      subst hx
      exact ⟨c, hget, hid⟩
    · simp [hid] at hx
  · rintro ⟨c, hc, hid⟩
    exact ⟨(pid, c), ExtTreeMap.mem_toList_iff_getElem?_eq_some.mpr hc, if_pos hid⟩

theorem inProgress_iff :
    InProgress n s ↔ ∃ e : BmcEntry, s.entries[n]? = some (some e) ∧ e.base.status = .InProgress := by
  simp only [InProgress, Option.mem_def, Option.join_eq_some_iff]

theorem mem_orphans : n ∈ orphans s ↔ InProgress n s ∧ collectors n s = [] := by
  simp only [orphans, List.mem_filter, decide_eq_true_eq, and_iff_right_iff_imp]
  rintro ⟨hprogress, -⟩
  obtain ⟨e, he, -⟩ := inProgress_iff.mp hprogress
  rw [ExtTreeMap.mem_keys]
  exact (mem_iff _ _).mpr ⟨_, he⟩

end Membership

section Steps

variable {cfg} {n : Nat} {s t : BmcDaemon}

/-- The invariant: for each entry that no collector answers for, a close is pending. -/
def Owed (cfg : Config) (s : BmcDaemon) : Prop := ∀ n ∈ orphans s, Pending (Named cfg n) s

theorem handle_pending {io : FileEvent} (hC : Attends cfg s (.handle io))
    (h : step (bmcOps cfg) s (.handle io) = some t)
    (ht : InProgress n t) (hs : n ∈ orphans s) : Pending (Named cfg n) t := by
  obtain ⟨e, he, hst⟩ := inProgress_iff.mp ht
  obtain ⟨e₀, he₀, -⟩ := inProgress_iff.mp (mem_orphans.mp hs).1
  obtain ⟨path, mask, rest, htodo, -⟩ := step_handle h
  have hhead : (path, mask) ∈ s.todo.head? := by simp [htodo]
  rcases hC (path, mask) hhead n hs with ⟨rfl, hnamed, hregular⟩ | hpending
  · -- the item itself completes the entry
    obtain ⟨e', he', hst', -⟩ := handle_completed h htodo hregular hnamed he₀
    rw [he] at he'
    cases he'
    rw [hst] at hst'
    cases hst'
  · exact pending_of_taken (sound cfg) h hhead hpending

theorem notification_pending {pid : Nat} (hs : Owed cfg s) (hC : Attends cfg s (.childNotification pid))
    (h : step (bmcOps cfg) s (.childNotification pid) = some t) (ht : n ∈ orphans t) : Pending (Named cfg n) t := by
  obtain ⟨hprogress, hnone⟩ := mem_orphans.mp ht
  obtain ⟨e, he, hst⟩ := inProgress_iff.mp hprogress
  have hkeep : ∀ q ∈ collectors n s, q = pid := by
    intro q hq
    by_contra hne
    obtain ⟨c, hc, hid⟩ := mem_collectors.mp hq
    have hc' := step_keeps_child (sound cfg) h (fun heq => hne (Event.childNotification.inj heq).symm) hc
    have hmem : q ∈ collectors n t := mem_collectors.mpr ⟨c, hc', hid⟩
    rw [hnone] at hmem
    cases hmem
  have hgrow := step_watches (sound cfg) h (fun _ => nofun) (fun _ => nofun)
  have hmove : Pending (Named cfg n) s → Pending (Named cfg n) t := Pending.grows hgrow.1 hgrow.2
  obtain ⟨-, c, p, status, hc, hp, hstatus, rfl⟩ := step_childNotification h
  rw [reap_entries, ended_get] at he
  split at he
  · -- a failure leaves an entry that is not in progress
    cases hslot : s.entries[n]?.getD none with
    | none =>
        rw [hslot] at he
        cases he
    | some e₀ =>
        rw [hslot] at he
        cases he
        cases hst
  · rename_i hnot
    have hin : InProgress n s := inProgress_iff.mpr ⟨e, he, hst⟩
    by_cases hmem : collectors n s = []
    · exact hmove (hs n (mem_orphans.mpr ⟨hin, hmem⟩))
    · obtain ⟨q, hq⟩ := List.exists_mem_of_ne_nil _ hmem
      obtain ⟨c', hc', hid⟩ := mem_collectors.mp hq
      rw [hkeep q hq, hc] at hc'
      cases hc'
      have hzero : status = 0 := by
        by_contra hne
        exact hnot ⟨hne, hid⟩
      subst hzero
      subst hid
      rcases hC c hc p hp hstatus hin with ⟨q', hq', hne⟩ | hpending
      · exact absurd (hkeep q' hq') hne
      · exact hmove hpending

/-- The step lemma: a step that meets the condition leaves no entry in progress behind. -/
theorem step_owed {ev : Event Request FileEvent} (hr : Registered s) (hs : Owed cfg s) (hC : Attends cfg s ev)
    (h : step (bmcOps cfg) s ev = some t) : Owed cfg t := by
  intro n hn
  obtain ⟨hprogress, hnone⟩ := mem_orphans.mp hn
  by_cases hnotify : ∃ pid, ev = .childNotification pid
  · obtain ⟨pid, rfl⟩ := hnotify
    exact notification_pending hs hC h hn
  · have hkeep : ∀ pid ∈ collectors n s, False := by
      intro pid hpid
      obtain ⟨c, hc, hid⟩ := mem_collectors.mp hpid
      have hmem : pid ∈ collectors n t :=
        mem_collectors.mpr ⟨c, step_keeps_child (sound cfg) h (fun heq => hnotify ⟨pid, heq⟩) hc, hid⟩
      rw [hnone] at hmem
      cases hmem
    obtain ⟨e, he, hst⟩ := inProgress_iff.mp hprogress
    have horphan : s.entries[n]? = some (some e) → n ∈ orphans s := fun hkept =>
      mem_orphans.mpr ⟨inProgress_iff.mpr ⟨e, hkept, hst⟩, List.eq_nil_iff_forall_not_mem.mpr hkeep⟩
    have hslot := step_slot (sound cfg) h he
    generalize hv : some e = v at hslot
    cases hslot with
    | kept _ _ hkept =>
        have hmem := horphan (hv ▸ hkept)
        cases ev with
        | watchReady p =>
            obtain ⟨-, w, hw, rfl⟩ := step_watchReady h
            exact hC w hw n hmem
        | handle io => exact handle_pending hC h hprogress hmem
        | childNotification pid => exact absurd ⟨pid, rfl⟩ hnotify
        | _ =>
            obtain ⟨hgrow, htodo⟩ := step_watches (sound cfg) h (fun _ => nofun) (fun _ => nofun)
            exact (hs n hmem).grows hgrow htodo
    | created r pid kind e' hr' hpid hchild =>
        obtain ⟨-, hfresh, -⟩ := step_createDump h
        have hnew := not_registered_of_fresh hr (not_mem_of_fresh hfresh hpid)
        have hmem : pid ∈ collectors n t := by
          refine mem_collectors.mpr ⟨⟨kind, n⟩, ?_, rfl⟩
          rw [hchild, insertIfNew_get, if_pos rfl, hnew]
          rfl
        rw [hnone] at hmem
        cases hmem
    | filed io path rest e' _ _ hst' =>
        cases hv
        have hcompleted : e.base.status = .Completed := hst'
        rw [hst] at hcompleted
        cases hcompleted
    | failed pid => exact absurd ⟨pid, rfl⟩ hnotify

theorem attended_of_owed (hr : Registered s) (hs : Owed cfg s) : Attended s := by
  intro hq n hn
  have hsome : collectors n s ≠ [] := by
    intro hnone
    exact hq.not_pending (hs n (mem_orphans.mpr ⟨hn, hnone⟩))
  obtain ⟨pid, hpid⟩ := List.exists_mem_of_ne_nil _ hsome
  obtain ⟨c, hc, hid⟩ := mem_collectors.mp hpid
  obtain ⟨p, hp, rfl⟩ := hr pid c hc
  refine ⟨pid, p, hp, hid, ?_⟩
  have hstatus := hq.children pid p ((mem_iff _ _).mpr ⟨_, hc⟩) hp
  cases hstate : p.state with
  | running => rfl
  | stopped signal | exited status =>
      rw [hstate] at hstatus
      cases hstatus

/-- In every run whose steps meet the condition, an entry in progress has a collector that
runs, as soon as there is nothing left to handle. -/
theorem attended_of_attends {es : List (Event Request FileEvent)} (hs : Started cfg s)
    (hC : EachStep (step (bmcOps cfg)) (Attends cfg) s es) : Always (step (bmcOps cfg)) Attended s es := by
  have hrestoring := restoring_of_started cfg hs
  have howed : Owed cfg s := by
    intro n hn
    obtain ⟨e, he, hst⟩ := inProgress_iff.mp (mem_orphans.mp hn).1
    obtain ⟨dir, name, -, -, hcompleted, -⟩ := hrestoring.entries n e he
    rw [hst] at hcompleted
    cases hcompleted
  exact always_along (I := fun s => Registered s ∧ Owed cfg s) (fun s h => attended_of_owed h.1 h.2)
    (fun s ev t hI hC h => ⟨step_registered (sound cfg) s ev t hI.1 h, step_owed hI.1 hI.2 hC h⟩)
    ⟨registered_of_idle hrestoring.idle, howed⟩ hC

end Steps

section Ends

def endsEmpty : List (Event Request FileEvent) := [.createDump (plainRequest 7), .exits 7 0, .childNotification 7]

theorem empty_end_stays_in_progress : ∃ s t, Started defaultConfig s ∧
    run (step (bmcOps defaultConfig)) s endsEmpty = some t ∧ Quiet t ∧ InProgress 1 t ∧ ¬ Attended t := by
  have hrun : ((run (step (bmcOps defaultConfig)) (bare ⟨false⟩ .root) endsEmpty).map fun t =>
      (decide (InProgress 1 t), t.todo, (watches t).map Watch.queue, t.procs.toList)) = some (true, [], [[]], []) := rfl
  obtain ⟨t, ht, hobs⟩ := Option.map_eq_some_iff.mp hrun
  obtain ⟨hprogress, htodo, hqueues, hprocs⟩ : _ ∧ _ ∧ _ ∧ _ := by simpa only [Prod.mk.injEq] using hobs
  have hprogress' : InProgress 1 t := of_decide_eq_true hprogress
  have hquiet : Quiet t := quiet_of_toList htodo hqueues hprocs
  refine ⟨_, t, started_root defaultConfig, ht, hquiet, hprogress', fun h => ?_⟩
  obtain ⟨pid, p, hp, -⟩ := h hquiet 1 hprogress'
  rw [get_of_toList hprocs] at hp
  cases hp

def endsWithArchive : List (Event Request FileEvent) :=
  [.createDump (plainRequest 7), .files (.mkdir [] "1"), .watchReady [], .handle plainEvent,
    .files (.openFile ["1"] "obmcdump_1_1.tar"), .files (.closeFile ["1"] "obmcdump_1_1.tar"), .exits 7 0,
    .childNotification 7, .watchReady ["1"], .handle plainEvent]

theorem archived_end_attended : Always (step (bmcOps defaultConfig)) Attended (bare ⟨false⟩ .root) endsWithArchive :=
  attended_of_attends (started_root defaultConfig) (by decide +kernel)

end Ends

end DumpCollector.Bmc.Progress
