import DumpCollector.Bmc.Steps
import DumpCollector.ProgressTimer
import DumpCollector.System.Steps

namespace DumpCollector.ProcessGroups

open Std Lib.Directory Lib.Effects Lib.Maps Lib.Runs Entries Requests State Dispatch Frames
open DumpCollector.Steps Slots ProgressTimer

variable {E X C R I : Type} [DumpEntry E]

section Firings

/-- A collector that has been forked for an entry: its process and the process group of that, the
value that the member entryProcessGroupID was left with when the entry was constructed, and
whether the process has not exited yet. -/
structure Launch where
  pid : Nat
  group : Int
  leftover : Int
  running : Bool
  deriving DecidableEq

/-- The value that is taken for the process group is that, or is not taken for one, and then the
collector is no longer there. -/
def Launch.Initialised (l : Launch) : Prop :=
  (0 < l.leftover → l.leftover = l.group ∧ l.group ≠ 1) ∧ (l.running = true → 0 < l.leftover)

instance decidableInitialised (l : Launch) : Decidable l.Initialised := inferInstanceAs (Decidable (_ ∧ _))

/-- What a call of kill with the argument signals; minus one does not stand for a group. -/
inductive Signalled
  | processGroup (id : Int)
  | everyProcess
  deriving DecidableEq

def signalled (pid : Int) : Signalled := if pid = -1 then .everyProcess else .processGroup (-pid)

/-- A call of the timer of an entry, with the argument of kill if it calls it. -/
structure Firing where
  limit : Nat
  now : Nat
  status : OperationStatus
  launch : Option Launch
  kill : Option Int

/-- SIGTERM goes to the process group of the collector of the entry only, and does so when the time
limit has passed, the collector is still running and the entry is not completed. -/
structure Firing.Right (f : Firing) : Prop where
  only : ∀ pid ∈ f.kill, ∃ l ∈ f.launch, signalled pid = .processGroup l.group
  sent : f.limit < f.now → f.status ≠ .Completed → ∀ l ∈ f.launch, l.running = true →
    ∃ pid ∈ f.kill, signalled pid = .processGroup l.group

def firing (c : EntryClass) (now : Nat) (e : TimedEntry) (launch : Option Launch) : Firing :=
  ⟨limit c e.startTime, now, e.status, launch, killed (limit c e.startTime) now e⟩

theorem signalled_eq_iff {id group : Int} : signalled (-1 * id) = .processGroup group ↔ id = group ∧ group ≠ 1 := by
  rw [signalled]
  split
  · constructor
    · intro h
      cases h
    · rintro ⟨rfl, hne⟩
      omega
  · rw [Signalled.processGroup.injEq]
    omega

theorem right_iff_of_kill {f : Firing} {l : Launch} {pid : Int} (hl : f.launch = some l) (hkill : f.kill = some pid) :
    f.Right ↔ signalled pid = .processGroup l.group := by
  constructor
  · intro h
    obtain ⟨l', hl', hsignalled⟩ := h.only pid hkill
    cases hl.symm.trans hl'
    exact hsignalled
  · intro hsignalled
    refine ⟨fun pid' hpid => ⟨l, hl, ?_⟩, fun _ _ l' hl' _ => ⟨pid, hkill, ?_⟩⟩
    · cases hkill.symm.trans hpid
      exact hsignalled
    · cases hl.symm.trans hl'
      exact hsignalled

theorem right_iff_of_no_kill {f : Firing} {l : Launch} (hl : f.launch = some l) (hkill : f.kill = none) :
    f.Right ↔ (f.limit < f.now → f.status ≠ .Completed → l.running = false) := by
  constructor
  · intro h hpast hst
    apply Bool.eq_false_iff.mpr
    intro hrunning
    obtain ⟨pid, hpid, -⟩ := h.sent hpast hst l hl hrunning
    cases hkill.symm.trans hpid
  · intro hexited
    refine ⟨fun pid hpid => ?_, fun hpast hst l' hl' hrunning => ?_⟩
    · cases hkill.symm.trans hpid
    · cases hl.symm.trans hl'
      cases hrunning.symm.trans (hexited hpast hst)

theorem firing_right_iff {c : EntryClass} {now : Nat} {e : TimedEntry} {l : Launch}
    (h : e.entryProcessGroupID = l.leftover) : (firing c now e (some l)).Right ↔
      (limit c e.startTime < now → e.status ≠ .Completed → l.Initialised) := by
  have hkilled : (firing c now e (some l)).kill = killed (limit c e.startTime) now e := rfl
  by_cases hdue : limit c e.startTime < now ∧ e.status ≠ .Completed
  · by_cases hpos : 0 < l.leftover
    · have hkill : killed (limit c e.startTime) now e = some (-1 * l.leftover) := by
        rw [killed, h, if_pos ⟨hdue.1, hpos, hdue.2⟩]
      rw [right_iff_of_kill rfl (hkilled.trans hkill), signalled_eq_iff]
      constructor
      · intro hgood _ _
        exact ⟨fun _ => hgood, fun _ => hpos⟩
      · intro hleft
        exact (hleft hdue.1 hdue.2).1 hpos
    · have hkill : killed (limit c e.startTime) now e = none := by
        rw [killed, h, if_neg fun hall => hpos hall.2.1]
      rw [right_iff_of_no_kill rfl (hkilled.trans hkill)]
      constructor
      · intro hexited hpast hst
        refine ⟨fun hleft => absurd hleft hpos, fun hrunning => ?_⟩
        cases hrunning.symm.trans (hexited hpast hst)
      · intro hleft hpast hst
        exact Bool.eq_false_iff.mpr fun hrunning => hpos ((hleft hpast hst).2 hrunning)
  · have hkill : killed (limit c e.startTime) now e = none := by
      rw [killed, if_neg fun hall => hdue ⟨hall.1, hall.2.2⟩]
    rw [right_iff_of_no_kill rfl (hkilled.trans hkill)]
    constructor
    · intro _ hpast hst
      exact absurd ⟨hpast, hst⟩ hdue
    · intro _ hpast hst
      exact absurd ⟨hpast, hst⟩ hdue

end Firings

section Supervision

/-- The manager of a class whose entries have a timer: what the timer reads and writes of an entry,
how far a request comes before it forks its collector, and the value that the member of its entry
is left with. -/
structure TimedManager (E X C R I : Type) where
  ops : Ops E X C R I
  entryClass : EntryClass
  timed : E → TimedEntry
  withTimed : E → TimedEntry → E
  prepared : R → Daemon E X C → Daemon E X C
  leftover : R → Int

/-- A daemon with the collectors that captureDump has forked for the entries, and with the calls of
their timers so far. -/
structure Supervised (E X C : Type) where
  daemon : Daemon E X C
  launched : Nat → Option Launch
  firings : List Firing

def supervised (s : Daemon E X C) : Supervised E X C := ⟨s, fun _ => none, []⟩

inductive TimerEvent (R I : Type)
  | manager (ev : Event R I)
  | fires (id now : Nat)

variable (m : TimedManager E X C R I) (group : R → Int)

def launches (s t : Daemon E X C) (launched : Nat → Option Launch) (ev : Event R I) (k : Nat) : Option Launch :=
  match ev with
  | .createDump r =>
      if k ∉ (m.prepared r s).entries ∧ k ∈ t.entries then
        (m.ops.fork r).pid.map fun pid => ⟨pid, group r, m.leftover r, true⟩
      else launched k
  | .exits pid _ => (launched k).map fun l => if l.pid = pid then { l with running := false } else l
  | _ => launched k

def timedOut (x : Supervised E X C) (id now : Nat) (e : E) : Supervised E X C :=
  let v := m.timed e
  let late := timeout (maxTimeLimitInSec m.entryClass) (limit m.entryClass v.startTime) now v
  { x with
    daemon := { x.daemon with entries := x.daemon.entries.insert id (some (m.withTimed e late)) }
    firings := firing m.entryClass now v (x.launched id) :: x.firings }

def supervise (x : Supervised E X C) : TimerEvent R I → Option (Supervised E X C)
  | .manager ev => (step m.ops x.daemon ev).map fun t =>
      { x with daemon := t, launched := launches m group x.daemon t x.launched ev }
  | .fires id now =>
      match x.daemon.entries[id]? with
      | some (some e) =>
          if x.daemon.todo = [] ∧ (m.timed e).progressTimer = some true then some (timedOut m x id now e) else none
      | _ => none

def Right (x : Supervised E X C) : Prop := ∀ f ∈ x.firings, f.Right

/-- A timer fires past the limit, for an entry that is not completed, only where the member was left
with the process group of the collector, or with no valid one and the collector has exited. -/
def Initialised (x : Supervised E X C) : TimerEvent R I → Prop
  | .manager _ => True
  | .fires id now => ∀ slot ∈ x.daemon.entries[id]?, ∀ e ∈ slot, ∀ l ∈ x.launched id,
      limit m.entryClass (m.timed e).startTime < now → (m.timed e).status ≠ .Completed → l.Initialised

instance (x : Supervised E X C) : (ev : TimerEvent R I) → Decidable (Initialised m x ev)
  | .manager _ => isTrue trivial
  | .fires id now => inferInstanceAs (Decidable (∀ slot ∈ x.daemon.entries[id]?, ∀ e ∈ slot, ∀ l ∈ x.launched id,
      limit m.entryClass (m.timed e).startTime < now → (m.timed e).status ≠ .Completed → l.Initialised))

end Supervision

section Invariant

variable {m : TimedManager E X C R I} {group : R → Int} {s t : Daemon E X C} {x y : Supervised E X C}

def Runs (m : TimedManager E X C R I) (e : E) : Prop := (m.timed e).progressTimer = some true

def KeepsTimers (m : TimedManager E X C R I) (s t : Daemon E X C) : Prop :=
  ∀ (k : Nat) (e : E), t.entries[k]? = some (some e) → Runs m e →
    ∃ e', s.entries[k]? = some (some e') ∧ Runs m e' ∧
      (m.timed e').entryProcessGroupID = (m.timed e).entryProcessGroupID

/-- What the classes are relied on for: a request fills no slot but with an entry whose member is
left as it is, and behind a fork; and no file starts a timer. -/
structure Lawful (m : TimedManager E X C R I) : Prop where
  timed_withTimed : ∀ e v, (m.timed (m.withTimed e v)).progressTimer = v.progressTimer ∧
    (m.timed (m.withTimed e v)).entryProcessGroupID = v.entryProcessGroupID
  prepared : ∀ r s, Trimmed s (m.prepared r s)
  requested : ∀ r s, Fills (fun _ e => (m.timed e).entryProcessGroupID = m.leftover r ∧
    (m.ops.fork r).pid.isSome = true) (m.prepared r s) (final (m.ops.createDump r s))
  createEntry : ∀ io path s u t, m.ops.createEntry io path s = .ok u t → KeepsTimers m s t
  setFailedStatus : ∀ e, m.timed (DumpEntry.setFailedStatus e) = ProgressTimer.setFailedStatus (m.timed e)

/-- While the timer of an entry runs, its member is what it was left with when the entry was
constructed, which was behind the fork of its collector. -/
def Tracks (m : TimedManager E X C R I) (x : Supervised E X C) : Prop :=
  ∀ (k : Nat) (e : E), x.daemon.entries[k]? = some (some e) → Runs m e →
    ∃ l, x.launched k = some l ∧ (m.timed e).entryProcessGroupID = l.leftover

omit [DumpEntry E] in
theorem keepsTimers_of_slots (h : ∀ (k : Nat) (v : Option E), t.entries[k]? = some v → s.entries[k]? = some v) :
    KeepsTimers m s t := fun k e he hruns => ⟨e, h k _ he, hruns, rfl⟩

omit [DumpEntry E] in
theorem keepsTimers_of_entries (h : t.entries = s.entries) : KeepsTimers m s t :=
  keepsTimers_of_slots fun _ _ hv => h ▸ hv

theorem step_keepsTimers (hm : Lawful m) {ev : Event R I} (hev : ∀ r, ev ≠ .createDump r)
    (h : step m.ops s ev = some t) : KeepsTimers m s t := by
  cases step_cases h with
  | request r => exact absurd rfl (hev r)
  | trimmed _ _ htrim => exact keepsTimers_of_slots htrim.entries
  | changed _ _ pid p state _ _ ht =>
      subst ht
      exact keepsTimers_of_entries rfl
  | read p =>
      obtain ⟨-, w, -, rfl⟩ := step_watchReady h
      apply keepsTimers_of_entries
      rw [setWatch]
      split <;> rfl
  | handled io =>
      obtain ⟨path, mask, rest, -, ⟨-, -, u, hc⟩ | ⟨-, -, rfl⟩ | ⟨-, -, -, rfl⟩ | ⟨-, -, rfl⟩⟩ := step_handle h
      · exact fun k e he hruns => hm.createEntry io path _ u t hc k e he hruns
      all_goals exact keepsTimers_of_entries rfl
  | notified pid =>
      obtain ⟨-, c, p, status, -, -, -, rfl⟩ := step_childNotification h
      intro k e he hruns
      rw [reap_entries, ended_get] at he
      split at he
      · obtain ⟨e', he', rfl⟩ := Option.map_eq_some_iff.mp (Option.some.inj he)
        rw [Runs, hm.setFailedStatus] at hruns
        rw [hm.setFailedStatus]
        exact ⟨e', getD_eq_some he', hruns, rfl⟩
      · exact ⟨e, he, hruns, rfl⟩

omit [DumpEntry E] in
theorem launches_other {ev : Event R I} (hev : ∀ r, ev ≠ .createDump r) {launched : Nat → Option Launch} {k : Nat}
    {l : Launch} (h : launched k = some l) :
    ∃ l', launches m group s t launched ev k = some l' ∧ l'.leftover = l.leftover := by
  cases ev with
  | createDump r => exact absurd rfl (hev r)
  | exits pid status =>
      refine ⟨if l.pid = pid then { l with running := false } else l, by simp only [launches, h, Option.map_some], ?_⟩
      split <;> rfl
  | delete | deleteAll | files | stops | continues | watchReady | handle | childNotification =>
      exact ⟨l, h, rfl⟩

theorem request_tracks (hm : Lawful m) {r : R} (hfinal : final (m.ops.createDump r s) = t)
    {launched : Nat → Option Launch} {k : Nat} {e : E} (he : t.entries[k]? = some (some e))
    (hold : s.entries[k]? = some (some e) → ∃ l, launched k = some l ∧ (m.timed e).entryProcessGroupID = l.leftover) :
    ∃ l, launches m group s t launched (.createDump r) k = some l ∧
      (m.timed e).entryProcessGroupID = l.leftover := by
  obtain ⟨hkept, hfilled⟩ := hm.requested r s k
  rw [hfinal] at hkept hfilled
  rw [launches]
  cases hslot : (m.prepared r s).entries[k]? with
  | some v =>
      have hmem : k ∈ (m.prepared r s).entries := (mem_iff _ _).mpr ⟨v, hslot⟩
      rw [if_neg fun h => h.1 hmem]
      cases (hkept v hslot).symm.trans he
      exact hold ((hm.prepared r s).entries k _ hslot)
  | none =>
      obtain ⟨e', hnew, hleftover, hpid⟩ := hfilled hslot _ he
      cases hnew
      obtain ⟨pid, hpid⟩ := Option.isSome_iff_exists.mp hpid
      rw [if_pos ⟨(not_mem_iff _ _).mpr hslot, (mem_iff _ _).mpr ⟨_, he⟩⟩, hpid]
      exact ⟨_, rfl, hleftover⟩

theorem supervise_fires {id now : Nat} (h : supervise m group x (.fires id now) = some y) :
    ∃ e, x.daemon.entries[id]? = some (some e) ∧ Runs m e ∧ y = timedOut m x id now e := by
  rw [supervise] at h
  split at h
  · rename_i e he
    split at h
    · rename_i henabled
      exact ⟨e, he, henabled.2, (Option.some.inj h).symm⟩
    · cases h
  · cases h

theorem step_tracks (hm : Lawful m) (hx : Tracks m x) {ev : Event R I} (h : step m.ops x.daemon ev = some t) :
    Tracks m { x with daemon := t, launched := launches m group x.daemon t x.launched ev } := by
  intro k e he hruns
  by_cases hev : ∃ r, ev = .createDump r
  · obtain ⟨r, rfl⟩ := hev
    obtain ⟨-, -, hresult⟩ := step_createDump h
    have hfinal := final_of_reply (reply_eq_some.mpr hresult)
    exact request_tracks hm hfinal he fun hold => hx k e hold hruns
  · have hev : ∀ r, ev ≠ .createDump r := fun r hr => hev ⟨r, hr⟩
    obtain ⟨e', he', hruns', hsame⟩ := step_keepsTimers hm hev h k e he hruns
    obtain ⟨l, hl, hleftover⟩ := hx k e' he' hruns'
    obtain ⟨l', hl', hleftover'⟩ : ∃ l', launches m group x.daemon t x.launched ev k = some l' ∧
        l'.leftover = l.leftover := launches_other hev hl
    exact ⟨l', hl', by rw [← hsame, hleftover, hleftover']⟩

omit [DumpEntry E] in
/-- A timer that goes on has not called kill, which is what clears the member. -/
theorem timedOut_tracks (hm : ∀ e v, (m.timed (m.withTimed e v)).progressTimer = v.progressTimer ∧
      (m.timed (m.withTimed e v)).entryProcessGroupID = v.entryProcessGroupID)
    (hx : Tracks m x) {id now : Nat} {e : E} (he : x.daemon.entries[id]? = some (some e)) (hruns : Runs m e) :
    Tracks m (timedOut m x id now e) := by
  intro k e' he' hruns'
  change (x.daemon.entries.insert id _)[k]? = some (some e') at he'
  rw [insert_get] at he'
  split at he'
  · rename_i hk
    subst hk
    cases he'
    obtain ⟨htimer, hmember⟩ := hm e (timeout (maxTimeLimitInSec m.entryClass)
      (limit m.entryClass (m.timed e).startTime) now (m.timed e))
    obtain ⟨l, hl, hleftover⟩ := hx id e he hruns
    refine ⟨l, hl, ?_⟩
    have hnotPast : ¬ limit m.entryClass (m.timed e).startTime < now := by
      intro hpast
      rw [Runs, htimer] at hruns'
      simp [timeout, hpast] at hruns'
    rw [hmember, ← hleftover]
    simp [timeout, killed, hnotPast]
  · exact hx k e' he' hruns'

/-- The step lemma: by what happens to the entries, and what the timer does to its own. -/
theorem supervise_tracks (hm : Lawful m) (x : Supervised E X C) (ev : TimerEvent R I) (y : Supervised E X C)
    (hx : Tracks m x) (h : supervise m group x ev = some y) : Tracks m y := by
  cases ev with
  | manager ev =>
      obtain ⟨t, hstep, rfl⟩ := Option.map_eq_some_iff.mp h
      exact step_tracks hm hx hstep
  | fires id now =>
      obtain ⟨e, he, hruns, rfl⟩ := supervise_fires h
      exact timedOut_tracks hm.timed_withTimed hx he hruns

theorem supervise_right_iff (x : Supervised E X C) (ev : TimerEvent R I) (y : Supervised E X C) (hx : Tracks m x)
    (hright : Right x) (h : supervise m group x ev = some y) : Right y ↔ Initialised m x ev := by
  cases ev with
  | manager ev =>
      obtain ⟨t, -, rfl⟩ := Option.map_eq_some_iff.mp h
      exact ⟨fun _ => trivial, fun _ => hright⟩
  | fires id now =>
      obtain ⟨e, he, hruns, rfl⟩ := supervise_fires h
      obtain ⟨l, hl, hleftover⟩ := hx id e he hruns
      have hfiring : (firing m.entryClass now (m.timed e) (some l)).Right ↔ _ := firing_right_iff hleftover
      constructor
      · intro hall slot hslot e' he' l' hl'
        cases he.symm.trans hslot
        cases he'
        cases hl.symm.trans hl'
        exact hfiring.mp (hl ▸ hall _ List.mem_cons_self)
      · intro hinit f hf
        rcases List.mem_cons.mp hf with rfl | hf
        · rw [hl]
          exact hfiring.mpr (hinit _ he e rfl l hl)
        · exact hright f hf

/-- The run lemma. -/
theorem always_right_iff (hm : Lawful m) (hs : EveryEntry (fun e => ¬ Runs m e) s) {es : List (TimerEvent R I)}
    (hrun : run (supervise m group) (supervised s) es = some x) :
    Always (supervise m group) Right (supervised s) es ↔
      EachStep (supervise m group) (Initialised m) (supervised s) es := by
  refine always_iff_eachStep (supervise_tracks hm) (fun x ev y => supervise_right_iff x ev y) hrun ?_ ?_
  · exact fun k e he hruns => absurd hruns (hs k e he)
  · exact fun f hf => by cases hf

end Invariant

section Managers

section Bmc

open Bmc.Manager Bmc.Capture Bmc.Steps

variable (cfg : Bmc.Manager.Config)

def bmcTimers : TimedManager BmcEntry Bmc.Manager.Own DumpTypes Bmc.Manager.Request Bmc.Manager.FileEvent where
  ops := bmcOps cfg
  entryClass := .bmc
  timed := ofBmc
  withTimed e v := { e with
    progress := v.progress.toNat
    progressTimer := v.progressTimer
    entryProcessGroupID := v.entryProcessGroupID }
  prepared r s := final (prepare cfg r s)
  leftover r := r.entryProcessGroupID

theorem bmc_requested (r : Bmc.Manager.Request) (s : BmcDaemon) :
    Fills (fun _ e => e.entryProcessGroupID = r.entryProcessGroupID ∧ r.fork.pid.isSome = true)
      (final (prepare cfg r s)) (final ((some <$> Bmc.Manager.createDump cfg r) s)) := by
  rw [final_map]
  generalize hresult : Bmc.Manager.createDump cfg r s = result
  have hcaptured := createDump_captured cfg r s
  rw [hresult] at hcaptured
  cases hcaptured with
  | refused e t hstarts ht => exact fills_of_entries (by rw [final_error, ht])
  | unregistered pid type u hstarts hu hregistered => exact fills_of_entries (by rw [final_error, ← hu]; rfl)
  | unconstructed e pid type u hstarts hu hregistered => exact fills_of_entries (by rw [final_error, ← hu]; rfl)
  | inserted pid type u originatorId originatorType hstarts hu hregistered hconstruction =>
      have hpid : r.fork.pid.isSome = true := by
        rw [(starts_eq_some.mp hstarts).1]
        rfl
      rw [final_ok, ← hu]
      refine trans_of (Fills _) (fills_insertIfNew (n := nextEntryId u) ⟨?_, hpid⟩) (fills_of_entries rfl)
      rfl

theorem bmc_createEntry (io : Bmc.Manager.FileEvent) (path : Path) (s t : BmcDaemon) (u : Unit)
    (h : Bmc.Manager.createEntry cfg io path s = .ok u t) : KeepsTimers (bmcTimers cfg) s t := by
  intro k e he hruns
  cases Bmc.Steps.createEntry_cases h with
  | ignored _ _ ht =>
      subst ht
      exact ⟨e, he, hruns, rfl⟩
  | created id timestamp c _ _ _ _ ht =>
      subst ht
      rcases insertIfNew_cases he with hold | ⟨-, -, hnew⟩
      · exact ⟨e, hold, hruns, rfl⟩
      · cases hnew
        cases hruns
  | updated id timestamp c e' _ _ _ ht =>
      subst ht
      rw [(filesOnly_serialize _ _ _).entries, insert_get] at he
      split at he
      · cases he
        simp [Runs, bmcTimers, ofBmc, updated] at hruns
      · exact ⟨e, he, hruns, rfl⟩

theorem bmc_lawful : Lawful (bmcTimers cfg) where
  timed_withTimed _ _ := ⟨rfl, rfl⟩
  prepared r s := trimmed_prepare cfg r s
  requested := bmc_requested cfg
  createEntry io path s u t h := bmc_createEntry cfg io path s t u h
  setFailedStatus := ofBmc_setFailedStatus

theorem bmc_started {s : BmcDaemon} (h : Bmc.Manager.Started cfg s) :
    EveryEntry (fun e => ¬ Runs (bmcTimers cfg) e) s := by
  refine Bmc.Steps.invariant_started cfg ?_ ?_ ?_ (everyEntry_bare _) h
  · exact fun s t hfiles => everyEntry_of_entries hfiles.entries
  · intro s dir name id e _ _ _ htimer hs
    refine EntriesFrom.everyEntry (P := fun e => ¬ Runs (bmcTimers cfg) e) (entriesFrom_insertIfNew ?_) hs
    intro hruns
    cases htimer.symm.trans hruns
  · exact fun s n => everyEntry_of_entries rfl

end Bmc

section System

open System.Manager System.Steps

variable (cfg : System.Manager.Config)

def systemTimers :
    TimedManager SystemEntry System.Manager.Own String System.Manager.Request System.Manager.FileEvent where
  ops := systemOps cfg
  entryClass := .system
  timed := ofSystem
  withTimed e v := { e with
    progress := v.progress.toNat
    progressTimer := v.progressTimer
    entryProcessGroupID := v.entryProcessGroupID }
  prepared _ s := final (limitDumpEntries cfg.SYSTEM_DUMP_MAX_LIMIT s)
  leftover r := r.entryProcessGroupID

theorem system_requested (r : System.Manager.Request) (s : SystemDaemon) :
    Fills (fun _ e => e.entryProcessGroupID = r.entryProcessGroupID ∧ r.fork.pid.isSome = true)
      (final (limitDumpEntries cfg.SYSTEM_DUMP_MAX_LIMIT s))
      (final ((some <$> System.Manager.createDump cfg r) s)) := by
  rw [createDump_eq]
  apply keeps_after
  intro _
  refine keeps_bind keeps_get fun s => keeps_bind (keeps_fromExcept _) fun _ => keeps_bind keeps_get fun s => ?_
  refine keeps_bind (keeps_fromExcept _) fun diagnosticType => ?_
  refine keeps_bind (keeps_whenever (keeps_modify fun s => fills_of_entries rfl)) fun _ => ?_
  refine keeps_bind (keeps_modify fun s => fills_of_entries rfl) fun _ => ?_
  refine keeps_fork (fun _ _ => fills_of_entries) (fun s id e he hpid => fills_insertIfNew ⟨?_, hpid⟩)
    fun id => keeps_pure _
  obtain ⟨originatorId, originatorType, diagnosticType, rfl⟩ := construct_eq cfg he
  rfl

theorem system_createEntry (io : System.Manager.FileEvent) (path : Path) (s t : SystemDaemon) (u : Unit)
    (h : System.Manager.createEntry cfg io path s = .ok u t) : KeepsTimers (systemTimers cfg) s t := by
  intro k e he hruns
  cases System.Steps.createEntry_cases h with
  | ignored _ ht =>
      subst ht
      exact ⟨e, he, hruns, rfl⟩
  | created n timestamp c _ _ ht =>
      subst ht
      rcases insertIfNew_cases he with hold | ⟨-, -, hnew⟩
      · exact ⟨e, hold, hruns, rfl⟩
      · cases hnew
        cases hruns
  | completed n timestamp c e' _ he' ht =>
      subst ht
      -- The update leaves the timer running and the member as it is.
      change (s.entries.insert n _)[k]? = some (some e) at he
      rw [insert_get] at he
      split at he
      · rename_i hk
        cases he
        exact ⟨e', hk ▸ he', hruns, rfl⟩
      · exact ⟨e, he, hruns, rfl⟩

theorem system_lawful : Lawful (systemTimers cfg) where
  timed_withTimed _ _ := ⟨rfl, rfl⟩
  prepared _ s := keeps_limitDumpEntries _ s
  requested := system_requested cfg
  createEntry io path s u t h := system_createEntry cfg io path s t u h
  setFailedStatus := ofSystem_setFailedStatus

theorem system_started {s : SystemDaemon} (h : System.Manager.Started cfg s) :
    EveryEntry (fun e => ¬ Runs (systemTimers cfg) e) s := by
  refine System.Steps.invariant_started cfg (everyEntry_bare _) ?_ ?_ h
  · intro io path s u t hs h k e he hruns
    obtain ⟨e', he', hruns', -⟩ := system_createEntry cfg io path s t u h k e he hruns
    exact hs k e' he' hruns'
  · exact fun s n => everyEntry_of_entries rfl

end System

/-- In every run of either manager each call of a timer signals the right process group, and no
other, exactly if every member is left with a value that is good for the calls of its timer. -/
theorem terminations_right_iff (bmc : Bmc.Manager.Config) (system : System.Manager.Config)
    (bmcGroup : Bmc.Manager.Request → Int) (systemGroup : System.Manager.Request → Int) :
    (∀ s es x, Bmc.Manager.Started bmc s → run (supervise (bmcTimers bmc) bmcGroup) (supervised s) es = some x →
      (Always (supervise (bmcTimers bmc) bmcGroup) Right (supervised s) es ↔
        EachStep (supervise (bmcTimers bmc) bmcGroup) (Initialised (bmcTimers bmc)) (supervised s) es)) ∧
    ∀ s es x, System.Manager.Started system s →
      run (supervise (systemTimers system) systemGroup) (supervised s) es = some x →
      (Always (supervise (systemTimers system) systemGroup) Right (supervised s) es ↔
        EachStep (supervise (systemTimers system) systemGroup) (Initialised (systemTimers system)) (supervised s) es) :=
  ⟨fun _ _ _ hs hrun => always_right_iff (bmc_lawful bmc) (bmc_started bmc hs) hrun,
    fun _ _ _ hs hrun => always_right_iff (system_lawful system) (system_started system hs) hrun⟩

end Managers

section Examples

open Bmc.Manager

def overdueDump (leftover : Int) : List (TimerEvent Request FileEvent) :=
  [.manager (.createDump { plainRequest 7 with entryProcessGroupID := leftover }), .fires 1 3000]

def overdueRun (leftover : Int) : Option (Supervised BmcEntry Own DumpTypes) :=
  run (supervise (bmcTimers defaultConfig) fun _ => 100) (supervised (bare ⟨false⟩ .root)) (overdueDump leftover)

theorem terminations_right_overdue : ∃ x, overdueRun 100 = some x ∧ x.firings.map Firing.kill = [some (-100)] ∧
    Always (supervise (bmcTimers defaultConfig) fun _ => 100) Right (supervised (bare ⟨false⟩ .root))
      (overdueDump 100) := by
  have h : (overdueRun 100).map (fun x => x.firings.map Firing.kill) = some [some (-100)] := by decide +kernel
  obtain ⟨x, hrun, hkills⟩ := Option.map_eq_some_iff.mp h
  refine ⟨x, hrun, hkills, ?_⟩
  refine ((terminations_right_iff defaultConfig System.Manager.defaultConfig (fun _ => 100) fun _ => 100).1
    (bare ⟨false⟩ .root) _ x (started_root _) hrun).mpr ?_
  decide +kernel

/-- The value that the member happens to be left with is taken for the process group. -/
theorem unrelated_group_terminated : Started defaultConfig (bare ⟨false⟩ .root) ∧ ∃ x,
    overdueRun 4321 = some x ∧ x.firings.map Firing.kill = [some (-4321)] ∧
    x.firings.map Firing.launch = [some ⟨7, 100, 4321, true⟩] ∧ ¬ Right x := by
  have h : (overdueRun 4321).map (fun x => (x.firings.map Firing.kill, x.firings.map Firing.launch)) =
      some ([some (-4321)], [some ⟨7, 100, 4321, true⟩]) := by decide +kernel
  obtain ⟨x, hrun, hobserved⟩ := Option.map_eq_some_iff.mp h
  obtain ⟨hkills, hlaunches⟩ := Prod.mk.inj hobserved
  refine ⟨started_root _, x, hrun, hkills, hlaunches, fun hright => ?_⟩
  obtain ⟨f, hf, hkill⟩ := List.mem_map.mp (hkills ▸ List.mem_singleton_self (some (-4321 : Int)))
  have hlaunch : f.launch ∈ [some (⟨7, 100, 4321, true⟩ : Launch)] := hlaunches ▸ List.mem_map_of_mem hf
  obtain ⟨l, hl, hsignalled⟩ := (hright f hf).only _ hkill
  cases (List.mem_singleton.mp hlaunch).symm.trans hl
  cases hsignalled

end Examples

end DumpCollector.ProcessGroups
