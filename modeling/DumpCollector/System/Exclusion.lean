import DumpCollector.System.Collectors

namespace DumpCollector.System.Exclusion

open Std Lib.Directory Lib.Effects Lib.Maps Lib.Runs Entries FileNames Inotify Requests State Dispatch
open Slots Children System.Manager System.Steps Collectors

variable (cfg : Config)

def aliveKinds (s : SystemDaemon) : List String :=
  s.procs.toList.filterMap fun
    | (_, ⟨_, .exited _⟩) => none
    | (_, ⟨c, _⟩) => some c.kind

def Exclusive (s : SystemDaemon) : Prop :=
  ∀ (pid pid' : Nat) (p p' : Process String), pid ≠ pid' → s.procs[pid]? = some p → s.procs[pid']? = some p' →
    Alive p → Alive p' → ¬ Conflict p.collector.kind p'.collector.kind

/-- A step takes a type out of those in progress only when no collector of it is alive:
neither the completion of an entry nor the notification of a child nor a collector that
could not be registered does. -/
def ErasesOnlyDead (s : SystemDaemon) : Event Request FileEvent → Prop
  | .handle _ => ∀ x ∈ s.todo.head?, x.2 = IN_CLOSE_WRITE → s.disk.isDirectory x.1 = false →
      ∀ n ∈ namedId cfg.plat (filename x.1), ∀ e ∈ s.entries[n]?.join, e.dumpType ∉ aliveKinds s
  | .childNotification pid => ∀ c ∈ s.childPtrMap[pid]?, c.kind ∉ aliveKinds s
  | .createDump r => reaches cfg r s = none ∨ r.fork.pid = none ∨ r.fork.registered = true
  | _ => True

instance decidableErasesOnlyDead (s : SystemDaemon) (ev : Event Request FileEvent) :
    Decidable (ErasesOnlyDead cfg s ev) :=
  match ev with
  | .handle _ => inferInstanceAs (Decidable (∀ x ∈ s.todo.head?, x.2 = IN_CLOSE_WRITE → s.disk.isDirectory x.1 = false →
      ∀ n ∈ namedId cfg.plat (filename x.1), ∀ e ∈ s.entries[n]?.join, e.dumpType ∉ aliveKinds s))
  | .childNotification pid => inferInstanceAs (Decidable (∀ c ∈ s.childPtrMap[pid]?, c.kind ∉ aliveKinds s))
  | .createDump r =>
      inferInstanceAs (Decidable (reaches cfg r s = none ∨ r.fork.pid = none ∨ r.fork.registered = true))
  | .delete _ | .deleteAll | .files _ | .exits _ _ | .stops _ _ | .continues _ | .watchReady _ => isTrue trivial

/-- The invariant: the guard of createDump knows the type of every collector that is alive. -/
structure Guarded (s : SystemDaemon) : Prop where
  exclusive : Exclusive s
  known : ∀ (pid : Nat) (p : Process String), s.procs[pid]? = some p → Alive p →
    p.collector.kind ∈ s.own.dumpInProgress

section Exclusion

variable {s t : SystemDaemon}

theorem mem_aliveKinds {type : String} :
    type ∈ aliveKinds s ↔
      ∃ (pid : Nat) (p : Process String), s.procs[pid]? = some p ∧ Alive p ∧ p.collector.kind = type := by
  simp only [aliveKinds, List.mem_filterMap]
  constructor
  · rintro ⟨⟨pid, c, state⟩, hmem, hx⟩
    have hget := ExtTreeMap.mem_toList_iff_getElem?_eq_some.mp hmem
    cases state with
    | exited status => cases hx
    | running | stopped signal =>
        cases hx
        exact ⟨pid, _, hget, fun status => nofun, rfl⟩
  · rintro ⟨pid, ⟨c, state⟩, hget, halive, rfl⟩
    refine ⟨(pid, ⟨c, state⟩), ExtTreeMap.mem_toList_iff_getElem?_eq_some.mpr hget, ?_⟩
    cases state with
    | exited status => exact absurd rfl (halive status)
    | running | stopped signal => rfl

def StillAlive (s t : SystemDaemon) : Prop :=
  ∀ (pid : Nat) (p : Process String), t.procs[pid]? = some p → Alive p →
    ∃ p', s.procs[pid]? = some p' ∧ Alive p' ∧ p'.collector = p.collector

theorem stillAlive_of_eq (h : t.procs = s.procs) : StillAlive s t := by
  intro pid p hp halive
  rw [h] at hp
  exact ⟨p, hp, halive, rfl⟩

theorem Guarded.of_stillAlive (hs : Guarded s) (halive : StillAlive s t)
    (hset : ∀ type ∈ aliveKinds s, type ∈ s.own.dumpInProgress → type ∈ t.own.dumpInProgress) : Guarded t := by
  refine ⟨fun pid pid' p p' hne hp hp' ha ha' => ?_, fun pid p hp ha => ?_⟩
  · obtain ⟨q, hq, haq, hc⟩ := halive pid p hp ha
    obtain ⟨q', hq', haq', hc'⟩ := halive pid' p' hp' ha'
    rw [← hc, ← hc']
    exact hs.exclusive pid pid' q q' hne hq hq' haq haq'
  · obtain ⟨q, hq, haq, hc⟩ := halive pid p hp ha
    rw [← hc]
    exact hset _ (mem_aliveKinds.mpr ⟨pid, q, hq, haq, rfl⟩) (hs.known pid q hq haq)

theorem Guarded.started (hs : Guarded s) {type : String} {pid id : Nat}
    (hguard : running s.own.dumpInProgress type = false)
    (hset : t.own.dumpInProgress = s.own.dumpInProgress.insert type)
    (hprocs : t.procs = s.procs.insert pid ⟨⟨type, id⟩, .running⟩) : Guarded t := by
  have hcases : ∀ (pid' : Nat) (p : Process String), t.procs[pid']? = some p →
      (pid' = pid ∧ p.collector.kind = type) ∨ (pid' ≠ pid ∧ s.procs[pid']? = some p) := by
    intro pid' p hp
    rw [hprocs, insert_get] at hp
    split at hp
    · rename_i heq
      cases hp
      exact .inl ⟨heq.symm, rfl⟩
    · rename_i hne
      exact .inr ⟨Ne.symm hne, hp⟩
  refine ⟨fun pid₁ pid₂ p₁ p₂ hne hp₁ hp₂ ha₁ ha₂ => ?_, fun pid' p hp ha => ?_⟩
  · rcases hcases pid₁ p₁ hp₁ with ⟨rfl, hk₁⟩ | ⟨-, hs₁⟩
    · rcases hcases pid₂ p₂ hp₂ with ⟨rfl, -⟩ | ⟨-, hs₂⟩
      · exact absurd rfl hne
      · rw [hk₁]
        exact fun h => (running_eq_false_iff.mp hguard) _ (hs.known pid₂ p₂ hs₂ ha₂) h.symm
    · rcases hcases pid₂ p₂ hp₂ with ⟨rfl, hk₂⟩ | ⟨-, hs₂⟩
      · rw [hk₂]
        exact (running_eq_false_iff.mp hguard) _ (hs.known pid₁ p₁ hs₁ ha₁)
      · exact hs.exclusive pid₁ pid₂ p₁ p₂ hne hs₁ hs₂ ha₁ ha₂
  · rw [hset, mem_set_insert]
    rcases hcases pid' p hp with ⟨-, hk⟩ | ⟨-, hs'⟩
    · exact .inl hk.symm
    · exact .inr (hs.known pid' p hs' ha)

theorem step_guarded {ev : Event Request FileEvent} (hs : Guarded s) (hC : ErasesOnlyDead cfg s ev)
    (h : step (systemOps cfg) s ev = some t) : Guarded t := by
  cases step_moves h with
  | quiet ev _ hset hprocs => exact hs.of_stillAlive (stillAlive_of_eq hprocs) fun type _ hmem => hset ▸ hmem
  | captured r hfresh hcaptures =>
      cases hcaptures with
      | refused _ hset hprocs => exact hs.of_stillAlive (stillAlive_of_eq hprocs) fun type _ hmem => hset ▸ hmem
      | unforked type _ _ hset hprocs =>
          refine hs.of_stillAlive (stillAlive_of_eq hprocs) fun type' _ hmem => ?_
          rw [hset, mem_set_insert]
          exact .inr hmem
      | unregistered type pid id hreaches hpid hregistered =>
          rcases hC with h | h | h
          · rw [hreaches] at h
            cases h
          · rw [hpid] at h
            cases h
          · rw [hregistered] at h
            cases h
      | registered type pid id hreaches _ hset hprocs => exact hs.started (running_of_reaches hreaches) hset hprocs
  | changed ev _ pid p state hp halive hprocs hset =>
      refine hs.of_stillAlive (fun pid' p' hp' ha => ?_) fun type _ hmem => hset ▸ hmem
      rw [hprocs, insert_get] at hp'
      split at hp'
      · rename_i heq
        cases hp'
        exact ⟨p, heq ▸ hp, halive, rfl⟩
      · exact ⟨p', hp', ha, rfl⟩
  | completed io path rest n e htodo hregular hnamed he hset hprocs =>
      refine hs.of_stillAlive (stillAlive_of_eq hprocs) fun type halive hmem => ?_
      have hdead : e.dumpType ∉ aliveKinds s :=
        hC (path, IN_CLOSE_WRITE) (by simp [htodo]) rfl hregular n hnamed e (by simp [he])
      rw [hset, mem_set_erase]
      exact ⟨fun heq => hdead (heq ▸ halive), hmem⟩
  | ended pid c p hchild hp hset hprocs =>
      refine hs.of_stillAlive (fun pid' p' hp' ha => ?_) fun type halive hmem => ?_
      · rcases hprocs with heq | ⟨-, heq⟩
        · rw [heq] at hp'
          exact ⟨p', hp', ha, rfl⟩
        · rw [heq, erase_get] at hp'
          split at hp'
          · cases hp'
          · exact ⟨p', hp', ha, rfl⟩
      · have hdead : c.kind ∉ aliveKinds s := hC c hchild
        rw [hset, mem_set_erase]
        exact ⟨fun heq => hdead (heq ▸ halive), hmem⟩

theorem guarded_of_idle (hs : Idle s) : Guarded s := by
  refine ⟨fun pid pid' p p' _ hp => ?_, fun pid p hp => ?_⟩
  · rw [hs.procs] at hp
    cases hp
  · rw [hs.procs] at hp
    cases hp

/-- As long as no step takes the type of a collector that is alive out of those in
progress, collectors that conflict never run at the same time. -/
theorem exclusive_of_erasesOnlyDead {es : List (Event Request FileEvent)} (hs : Started cfg s)
    (hC : EachStep (step (systemOps cfg)) (ErasesOnlyDead cfg) s es) :
    Always (step (systemOps cfg)) Exclusive s es :=
  always_along (fun _ h => h.exclusive) (fun _ _ _ hg hc h => step_guarded cfg hg hc h)
    (guarded_of_idle (idle_of_started cfg hs)) hC

end Exclusion

private def request (pid : Nat) : Request := diagnosticRequest "FPGA" pid

private def stoppedRun : List (Event Request FileEvent) :=
  [.createDump (request 7), .stops 7 19, .childNotification 7, .createDump (request 8), .continues 7]

theorem stopped_collector_frees_type :
    ∃ s t, Started defaultConfig s ∧ run (step (systemOps defaultConfig)) s stoppedRun = some t ∧ ¬ Exclusive t :=
  ⟨_, _, started_root _, rfl, fun h =>
    h 7 8 ⟨⟨"FPGA", 1⟩, .running⟩ ⟨⟨"FPGA", 2⟩, .running⟩ (by decide) rfl rfl nofun nofun (.inl rfl)⟩

private def endedRun : List (Event Request FileEvent) :=
  [.createDump (request 7), .exits 7 0, .childNotification 7, .createDump (request 8)]

theorem ended_collectors_exclusive :
    ∃ s, Started defaultConfig s ∧ Always (step (systemOps defaultConfig)) Exclusive s endedRun :=
  ⟨_, started_root _, exclusive_of_erasesOnlyDead _ (started_root _) (by decide +kernel)⟩

end DumpCollector.System.Exclusion
