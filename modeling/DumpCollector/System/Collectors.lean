import DumpCollector.Children
import DumpCollector.System.Steps

namespace DumpCollector.System.Collectors

open Std Lib.Directory Lib.Effects Lib.Maps Lib.Runs Entries FileNames Inotify Requests State Dispatch Frames
open DumpCollector.Steps Slots Children System.Manager System.Steps

variable (cfg : Config)

section Guard

/-- Two collectors that must not run at the same time: of one type, or the two of the
retimer. -/
def Conflict (type type' : String) : Prop :=
  type = type' ∨ (type = "RetLTSSM" ∧ type' = "RetRegister") ∨ (type = "RetRegister" ∧ type' = "RetLTSSM")

theorem Conflict.symm {type type' : String} (h : Conflict type type') : Conflict type' type := by
  rcases h with h | ⟨h, h'⟩ | ⟨h, h'⟩
  · exact .inl h.symm
  · exact .inr (.inr ⟨h', h⟩)
  · exact .inr (.inl ⟨h', h⟩)

theorem running_eq_false_iff {set : ExtTreeSet String} {type : String} :
    running set type = false ↔ ∀ type' ∈ set, ¬ Conflict type' type := by
  have hcontains : ∀ type', set.contains type' = true ↔ type' ∈ set := fun _ => ExtTreeSet.contains_iff_mem
  simp only [running, Bool.or_eq_false_iff, Bool.and_eq_false_iff, decide_eq_false_iff_not]
  constructor
  · rintro ⟨⟨hsame, hltssm⟩, hregister⟩ type' hmem (rfl | ⟨rfl, rfl⟩ | ⟨rfl, rfl⟩)
    · rw [(hcontains _).mpr hmem] at hsame
      cases hsame
    · rw [(hcontains _).mpr hmem] at hltssm
      exact hltssm.elim nofun fun h => h rfl
    · rw [(hcontains _).mpr hmem] at hregister
      exact hregister.elim nofun fun h => h rfl
  · intro h
    have hfree : ∀ type', Conflict type' type → set.contains type' = false := fun type' hc => by
      rw [Bool.eq_false_iff, ne_eq, hcontains]
      exact fun hmem => h type' hmem hc
    refine ⟨⟨hfree type (.inl rfl), ?_⟩, ?_⟩
    · by_cases htype : type = "RetRegister"
      · exact .inl (hfree _ (.inr (.inl ⟨rfl, htype⟩)))
      · exact .inr htype
    · by_cases htype : type = "RetLTSSM"
      · exact .inl (hfree _ (.inr (.inr ⟨rfl, htype⟩)))
      · exact .inr htype

end Guard

def reaches (r : Request) (s : SystemDaemon) : Option String :=
  match limitDumpEntries cfg.SYSTEM_DUMP_MAX_LIMIT s, checkRunning r s.own with
  | .ok _ u, .ok type => (checkCapture cfg r u.disk).toOption.map fun _ => type
  | _, _ => none

inductive Captures (r : Request) (s t : SystemDaemon) : Prop
  | refused (hreaches : reaches cfg r s = none) (hset : t.own.dumpInProgress = s.own.dumpInProgress)
      (hprocs : t.procs = s.procs) (hchildren : t.childPtrMap = s.childPtrMap)
  | unforked (type : String) (hreaches : reaches cfg r s = some type) (hpid : r.fork.pid = none)
      (hset : t.own.dumpInProgress = s.own.dumpInProgress.insert type) (hprocs : t.procs = s.procs)
      (hchildren : t.childPtrMap = s.childPtrMap)
  | unregistered (type : String) (pid id : Nat) (hreaches : reaches cfg r s = some type) (hpid : r.fork.pid = some pid)
      (hregistered : r.fork.registered = false)
      (hset : t.own.dumpInProgress = (s.own.dumpInProgress.insert type).erase type)
      (hprocs : t.procs = s.procs.insert pid ⟨⟨type, id⟩, .running⟩) (hchildren : t.childPtrMap = s.childPtrMap)
  | registered (type : String) (pid id : Nat) (hreaches : reaches cfg r s = some type) (hpid : r.fork.pid = some pid)
      (hset : t.own.dumpInProgress = s.own.dumpInProgress.insert type)
      (hprocs : t.procs = s.procs.insert pid ⟨⟨type, id⟩, .running⟩)
      (hchildren : t.childPtrMap = s.childPtrMap.insertIfNew pid ⟨type, id⟩)

section CreateDump

variable {cfg} {r : Request} {s : SystemDaemon} {type : String}

theorem checkRunning_ok {own : Own} (h : checkRunning r own = .ok type) :
    getString r.params "DiagnosticType" = .ok type ∧ running own.dumpInProgress type = false := by
  cases hs : getString r.params "DiagnosticType" with
  | error e =>
      simp only [checkRunning, hs, bind, Except.bind] at h
      cases h
  | ok dumpType =>
      simp only [checkRunning, hs, bind, Except.bind] at h
      cases hr : running own.dumpInProgress dumpType with
      | true =>
          rw [hr] at h
          cases h
      | false =>
          rw [hr] at h
          cases h
          exact ⟨rfl, hr⟩

theorem checkCapture_ok {disk : FileTree Content} (h : checkCapture cfg r disk = .ok type) :
    getString r.params "DiagnosticType" = .ok type := by
  rw [checkCapture] at h
  cases hspace : checkSpace cfg.JFFS_SPACE_CALC_INACCURACY_OFFSET_WORKAROUND_PERCENT cfg.SYSTEM_DUMP_MIN_SPACE_REQD
      r.space with
  | error e =>
      rw [hspace] at h
      cases h
  | ok _ =>
      cases hsize : getAllowedSize cfg disk with
      | error e =>
          rw [hspace, hsize] at h
          cases h
      | ok _ =>
          cases htype : getString r.params "DiagnosticType" with
          | error e =>
              rw [hspace, hsize, htype] at h
              cases h
          | ok diagnosticType =>
              cases hdevice : getString r.params "DeviceID" with
              | error e =>
                  rw [hspace, hsize, htype, hdevice] at h
                  cases h
              | ok _ =>
                  rw [hspace, hsize, htype, hdevice] at h
                  simp only [bind, Except.bind] at h
                  split at h
                  · cases h
                  · split at h <;> cases h
                    rfl

def collect (cfg : Config) (r : Request) (type : String) : SystemOp Nat := do
  whenever (type = "RetLTSSM") (modifyOwn (setDebugMode true r.retimerWritten))
  modifyOwn (insertType type)
  let id ← forkCollector r.fork type (eraseType type)
  let e ← fromExcept (construct cfg r id)
  insertEntry id e
  pure id

/-- A request goes as far as the fork, or an exception leaves what the limit on the number
of entries has left. -/
theorem createDump_split (cfg : Config) (r : Request) (s : SystemDaemon) :
    (reaches cfg r s = none ∧
      ∃ exn, System.Manager.createDump cfg r s = .error exn (final (limitDumpEntries cfg.SYSTEM_DUMP_MAX_LIMIT s))) ∨
    ∃ type, reaches cfg r s = some type ∧ checkRunning r s.own = .ok type ∧
      System.Manager.createDump cfg r s =
        collect cfg r type (final (limitDumpEntries cfg.SYSTEM_DUMP_MAX_LIMIT s)) := by
  have hown := limitDumpEntries_keeps (X := Own) (C := String)
    (fun s _ (e : SystemEntry) _ => sameOwn_deleteEntry s e) cfg.SYSTEM_DUMP_MAX_LIMIT s
  rw [System.Manager.createDump, reaches]
  cases hlimit : limitDumpEntries cfg.SYSTEM_DUMP_MAX_LIMIT s with
  | error e u => exact .inl ⟨rfl, e, bind_of_error hlimit _⟩
  | ok v u =>
      rw [hlimit] at hown
      have hownu : u.own = s.own := hown
      rw [bind_of_ok hlimit, get_bind, hownu]
      cases hrunning : checkRunning r s.own with
      | error e => exact .inl ⟨rfl, e, rfl⟩
      | ok type =>
          rw [bind_of_ok (fromExcept_eq_ok.mpr ⟨rfl, rfl⟩), captureDump]
          simp only [bind_assoc]
          rw [get_bind]
          cases hcapture : checkCapture cfg r u.disk with
          | error e => exact .inl ⟨rfl, e, rfl⟩
          | ok type' =>
              have htype : type' = type :=
                Except.ok.inj ((checkCapture_ok hcapture).symm.trans (checkRunning_ok hrunning).1)
              subst htype
              exact .inr ⟨type', rfl, rfl, bind_of_ok (fromExcept_eq_ok.mpr ⟨rfl, rfl⟩) _⟩

theorem running_of_reaches (h : reaches cfg r s = some type) : running s.own.dumpInProgress type = false := by
  rcases createDump_split cfg r s with ⟨hnone, -⟩ | ⟨type', hsome, hrunning, -⟩
  · cases hnone.symm.trans h
  · cases hsome.symm.trans h
    exact (checkRunning_ok hrunning).2

theorem forked_final (cfg : Config) (r : Request) (u : SystemDaemon) (kind : String) :
    ∃ t, final ((forkCollector r.fork kind (eraseType kind) >>= fun id => fromExcept (construct cfg r id) >>= fun e =>
      insertEntry id e >>= fun _ => pure id) u) = t ∧
      ((r.fork.pid = none ∧ t = u) ∨
        (∃ pid, r.fork.pid = some pid ∧ r.fork.registered = false ∧
          t = { forked pid kind u with own := eraseType kind u.own }) ∨
        ∃ pid, r.fork.pid = some pid ∧ t.own = u.own ∧
          t.procs = u.procs.insert pid ⟨⟨kind, nextEntryId u⟩, .running⟩ ∧
          t.childPtrMap = u.childPtrMap.insertIfNew pid ⟨kind, nextEntryId u⟩) := by
  rcases forkCollector_cases r.fork kind (eraseType kind) u with
    ⟨hpid, hf⟩ | ⟨pid, hpid, hreg, hf⟩ | ⟨pid, hpid, -, hf⟩
  · rw [bind_of_error hf]
    exact ⟨_, rfl, .inl ⟨hpid, rfl⟩⟩
  · rw [bind_of_error hf]
    exact ⟨_, rfl, .inr (.inl ⟨pid, hpid, hreg, rfl⟩)⟩
  · rw [bind_of_ok hf]
    cases hconstruct : construct cfg r (nextEntryId u) with
    | error exn => exact ⟨_, rfl, .inr (.inr ⟨pid, hpid, rfl, rfl, rfl⟩)⟩
    | ok e => exact ⟨_, rfl, .inr (.inr ⟨pid, hpid, rfl, rfl, rfl⟩)⟩

theorem whenever_setDebugMode (c value written : Bool) {α : Type} (k : Unit → SystemOp α) (u : SystemDaemon) :
    ∃ own, own.dumpInProgress = u.own.dumpInProgress ∧
      (whenever c (modifyOwn (setDebugMode value written)) >>= k) u = k () { u with own := own } := by
  cases c with
  | false => exact ⟨u.own, rfl, rfl⟩
  | true => exact ⟨setDebugMode value written u.own, rfl, rfl⟩

theorem createDump_captures (r : Request) (s : SystemDaemon) :
    Captures cfg r s (final (System.Manager.createDump cfg r s)) := by
  have htrim := keeps_limitDumpEntries (E := SystemEntry) (X := Own) (C := String) cfg.SYSTEM_DUMP_MAX_LIMIT s
  have hown := limitDumpEntries_keeps (X := Own) (C := String)
    (fun s _ (e : SystemEntry) _ => sameOwn_deleteEntry s e) cfg.SYSTEM_DUMP_MAX_LIMIT s
  have hsplit := createDump_split cfg r s
  generalize final (limitDumpEntries cfg.SYSTEM_DUMP_MAX_LIMIT s) = u at htrim hown hsplit
  have hprocs₀ : u.procs = s.procs := htrim.procs
  have hchildren₀ : u.childPtrMap = s.childPtrMap := htrim.childPtrMap
  have hset : u.own.dumpInProgress = s.own.dumpInProgress := congrArg Own.dumpInProgress hown
  rcases hsplit with ⟨hnone, exn, hrun⟩ | ⟨type, hreaches, -, hrun⟩
  · rw [hrun]
    exact .refused hnone hset hprocs₀ hchildren₀
  · obtain ⟨own, hown', hcommand⟩ := whenever_setDebugMode (type = "RetLTSSM") true r.retimerWritten
      (fun _ => modifyOwn (insertType type) >>= fun _ => forkCollector r.fork type (eraseType type) >>= fun id =>
        fromExcept (construct cfg r id) >>= fun e => insertEntry id e >>= fun _ => pure id) u
    rw [hrun, collect, hcommand]
    obtain ⟨t, hfinal, hcases⟩ := forked_final cfg r { u with own := insertType type own } type
    change Captures cfg r s (final ((forkCollector r.fork type (eraseType type) >>= fun id =>
      fromExcept (construct cfg r id) >>= fun e => insertEntry id e >>= fun _ => pure id)
      { u with own := insertType type own }))
    rw [hfinal]
    have hinserted : (insertType type own).dumpInProgress = s.own.dumpInProgress.insert type := by
      rw [← hset, ← hown']
      rfl
    rcases hcases with ⟨hpid, rfl⟩ | ⟨pid, hpid, hreg, rfl⟩ | ⟨pid, hpid, hto, hprocs, hchildren⟩
    · exact .unforked type hreaches hpid hinserted hprocs₀ hchildren₀
    · refine .unregistered type pid (nextEntryId u) hreaches hpid hreg ?_ ?_ hchildren₀
      · exact congrArg (fun set => set.erase type) hinserted
      · rw [← hprocs₀]
        rfl
    · refine .registered type pid (nextEntryId u) hreaches hpid ?_ ?_ ?_
      · rw [hto]
        exact hinserted
      · rw [hprocs, ← hprocs₀]
        rfl
      · rw [hchildren, ← hchildren₀]
        rfl

end CreateDump

/-- What a step does to the types in progress, the processes and the children. -/
inductive Moves (s t : SystemDaemon) : Event Request FileEvent → Prop
  | quiet (ev : Event Request FileEvent) (hev : ∀ r, ev ≠ .createDump r)
      (hset : t.own.dumpInProgress = s.own.dumpInProgress) (hprocs : t.procs = s.procs)
      (hchildren : t.childPtrMap = s.childPtrMap) : Moves s t ev
  | captured (r : Request) (hfresh : r.fork.fresh s = true) (hcaptures : Captures cfg r s t) : Moves s t (.createDump r)
  | changed (ev : Event Request FileEvent) (hev : ∀ r, ev ≠ .createDump r) (pid : Nat) (p : Process String)
      (state : ProcessState) (hp : s.procs[pid]? = some p) (halive : Alive p)
      (hprocs : t.procs = s.procs.insert pid { p with state := state })
      (hset : t.own.dumpInProgress = s.own.dumpInProgress) (hchildren : t.childPtrMap = s.childPtrMap) : Moves s t ev
  | completed (io : FileEvent) (path : Path) (rest : List (Path × Nat)) (n : Nat) (e : SystemEntry)
      (htodo : s.todo = (path, IN_CLOSE_WRITE) :: rest) (hregular : s.disk.isDirectory path = false)
      (hnamed : namedId cfg.plat (filename path) = some n)
      (he : s.entries[n]? = some (some e)) (hset : t.own.dumpInProgress = s.own.dumpInProgress.erase e.dumpType)
      (hprocs : t.procs = s.procs) (hchildren : t.childPtrMap = s.childPtrMap) : Moves s t (.handle io)
  | ended (pid : Nat) (c : Collector String) (p : Process String) (hchild : s.childPtrMap[pid]? = some c)
      (hp : s.procs[pid]? = some p) (hset : t.own.dumpInProgress = s.own.dumpInProgress.erase c.kind)
      (hprocs : t.procs = s.procs ∨ ¬ Alive p ∧ t.procs = s.procs.erase pid)
      (hchildren : t.childPtrMap = s.childPtrMap.erase pid) : Moves s t (.childNotification pid)

section Steps

variable {cfg} {s t : SystemDaemon}

theorem createEntry_own {io : FileEvent} {file : Path} {u : Unit} (h : createEntry cfg io file s = .ok u t) :
    t.own.dumpInProgress = s.own.dumpInProgress ∨
    ∃ (n : Nat) (e : SystemEntry), namedId cfg.plat (filename file) = some n ∧ s.entries[n]? = some (some e) ∧
      t.own.dumpInProgress = s.own.dumpInProgress.erase e.dumpType := by
  cases createEntry_cases h with
  | ignored _ ht => exact .inl (by rw [ht])
  | created n timestamp c _ _ ht => exact .inl (by rw [ht])
  | completed n timestamp c e hnamed he ht =>
      subst ht
      refine .inr ⟨n, e, hnamed, he, ?_⟩
      simp only [System.Manager.completed]
      split <;> rfl

theorem step_moves {ev : Event Request FileEvent} (h : step (systemOps cfg) s ev = some t) : Moves cfg s t ev := by
  cases step_cases h with
  | request r hfresh hfinal =>
      have hcaptures : Captures cfg r s (final (System.Manager.createDump cfg r s)) := createDump_captures r s
      rw [← final_map some] at hcaptures
      exact .captured r hfresh (hfinal ▸ hcaptures)
  | trimmed _ hev htrim hown => exact .quiet _ hev (congrArg Own.dumpInProgress hown) htrim.procs htrim.childPtrMap
  | changed _ hev pid p state hp halive ht =>
      subst ht
      exact .changed _ hev pid p state hp halive rfl rfl rfl
  | read p =>
      obtain ⟨-, w, -, rfl⟩ := step_watchReady h
      rw [setWatch]
      split <;> exact .quiet _ (by simp) rfl rfl rfl
  | handled io =>
      obtain ⟨path, mask, rest, htodo, ⟨rfl, hregular, u, hc⟩ | ⟨-, -, rfl⟩ | ⟨-, -, -, rfl⟩ | ⟨-, -, rfl⟩⟩ :=
        step_handle h
      · have hfiled := createEntry_filed hc
        rcases createEntry_own hc with hset | ⟨n, e, hnamed, he, hset⟩
        · exact .quiet _ (by simp) hset hfiled.procs hfiled.childPtrMap
        · exact .completed io path rest n e htodo hregular hnamed he hset hfiled.procs hfiled.childPtrMap
      all_goals exact .quiet _ (by simp) rfl rfl rfl
  | notified pid =>
      obtain ⟨-, c, p, status, hchild, hp, -, rfl⟩ := step_childNotification h
      cases hstate : p.state with
      | exited status =>
          exact .ended pid c p hchild hp rfl (.inr ⟨fun halive => halive status hstate, rfl⟩) rfl
      | running | stopped signal => exact .ended pid c p hchild hp rfl (.inl rfl) rfl

end Steps

end DumpCollector.System.Collectors
