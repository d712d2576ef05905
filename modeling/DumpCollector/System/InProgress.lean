import DumpCollector.System.Collectors

namespace DumpCollector.System.InProgress

open Std Lib.Directory Lib.Effects Lib.Maps Lib.Runs Entries FileNames Inotify Requests State Dispatch
open Slots Children System.Manager System.Steps Collectors

variable (cfg : Config)

/-- Each type in progress is that of a registered collector, which has not exited unless
its exit is still to be reported, and so a type is not refused when there is no collector
that it could be refused for. -/
structure Accounted (s : SystemDaemon) : Prop where
  collector : ∀ type ∈ s.own.dumpInProgress, ∃ (pid : Nat) (p : Process String), pid ∈ s.childPtrMap ∧
    s.procs[pid]? = some p ∧ p.collector.kind = type ∧ (Settled s → Alive p)
  accepted : ∀ type, (∀ (pid : Nat) (p : Process String), s.procs[pid]? = some p → ¬ Conflict p.collector.kind type) →
    running s.own.dumpInProgress type = false

def registeredKinds (s : SystemDaemon) : List String := s.childPtrMap.toList.map fun (_, c) => c.kind

/-- A fork fails only for a type that another registered collector has as well. -/
def ForkFailsCovered (s : SystemDaemon) : Event Request FileEvent → Prop
  | .createDump r => r.fork.pid = none → ∀ type ∈ reaches cfg r s, type ∈ registeredKinds s
  | _ => True

instance decidableForkFailsCovered (s : SystemDaemon) (ev : Event Request FileEvent) :
    Decidable (ForkFailsCovered cfg s ev) :=
  match ev with
  | .createDump r =>
      inferInstanceAs (Decidable (r.fork.pid = none → ∀ type ∈ reaches cfg r s, type ∈ registeredKinds s))
  | .delete _ | .deleteAll | .files _ | .exits _ _ | .stops _ _ | .continues _ | .watchReady _ | .handle _
  | .childNotification _ => isTrue trivial

section Kinds

variable {s t : SystemDaemon}

theorem mem_registeredKinds {type : String} :
    type ∈ registeredKinds s ↔ ∃ (pid : Nat) (c : Collector String), s.childPtrMap[pid]? = some c ∧ c.kind = type := by
  simp only [registeredKinds, List.mem_map]
  constructor
  · rintro ⟨⟨pid, c⟩, hmem, rfl⟩
    exact ⟨pid, c, ExtTreeMap.mem_toList_iff_getElem?_eq_some.mp hmem, rfl⟩
  · rintro ⟨pid, c, hc, rfl⟩
    exact ⟨(pid, c), ExtTreeMap.mem_toList_iff_getElem?_eq_some.mpr hc, rfl⟩

theorem accounted_iff (hs : Registered s) : Accounted s ↔ ∀ type ∈ s.own.dumpInProgress, type ∈ registeredKinds s := by
  constructor
  · intro h type hmem
    obtain ⟨pid, p, hpid, hp, rfl, -⟩ := h.collector type hmem
    obtain ⟨c, hc⟩ := (mem_iff _ _).mp hpid
    obtain ⟨p', hp', rfl⟩ := hs pid c hc
    rw [hp] at hp'
    cases hp'
    exact mem_registeredKinds.mpr ⟨pid, _, hc, rfl⟩
  · intro h
    have hcollector : ∀ type ∈ s.own.dumpInProgress, ∃ (pid : Nat) (p : Process String), pid ∈ s.childPtrMap ∧
        s.procs[pid]? = some p ∧ p.collector.kind = type ∧ (Settled s → Alive p) := by
      intro type hmem
      obtain ⟨pid, c, hc, rfl⟩ := mem_registeredKinds.mp (h type hmem)
      obtain ⟨p, hp, rfl⟩ := hs pid c hc
      have hpid : pid ∈ s.childPtrMap := (mem_iff _ _).mpr ⟨_, hc⟩
      exact ⟨pid, p, hpid, hp, rfl, fun hsettled => hsettled pid p hpid hp⟩
    refine ⟨hcollector, fun type hnone => running_eq_false_iff.mpr fun type' hmem => ?_⟩
    obtain ⟨pid, p, -, hp, rfl, -⟩ := hcollector type' hmem
    exact hnone pid p hp

theorem registeredKinds_insert {pid : Nat} {c : Collector String} (hnew : pid ∉ s.childPtrMap)
    (ht : t.childPtrMap = s.childPtrMap.insertIfNew pid c) {type : String} :
    type ∈ registeredKinds t ↔ c.kind = type ∨ type ∈ registeredKinds s := by
  have hnone := (not_mem_iff _ _).mp hnew
  simp only [mem_registeredKinds, ht, insertIfNew_of_absent hnone, insert_get]
  constructor
  · rintro ⟨q, d, hd, rfl⟩
    split at hd
    · cases hd
      exact .inl rfl
    · exact .inr ⟨q, d, hd, rfl⟩
  · rintro (rfl | ⟨q, d, hd, rfl⟩)
    · exact ⟨pid, c, if_pos rfl, rfl⟩
    · refine ⟨q, d, ?_, rfl⟩
      rw [if_neg fun heq => by rw [← heq, hnone] at hd; cases hd]
      exact hd

theorem registeredKinds_erase {pid : Nat} {c : Collector String} (hc : s.childPtrMap[pid]? = some c)
    (ht : t.childPtrMap = s.childPtrMap.erase pid) {type : String} (hne : c.kind ≠ type)
    (hmem : type ∈ registeredKinds s) : type ∈ registeredKinds t := by
  obtain ⟨q, d, hd, rfl⟩ := mem_registeredKinds.mp hmem
  refine mem_registeredKinds.mpr ⟨q, d, ?_, rfl⟩
  rw [ht, erase_get, if_neg fun heq => ?_, hd]
  rw [← heq, hc] at hd
  cases hd
  exact hne rfl

end Kinds

section Steps

variable {s t : SystemDaemon}

theorem covered_of_subset (hP : ∀ type ∈ s.own.dumpInProgress, type ∈ registeredKinds s)
    (hset : ∀ type ∈ t.own.dumpInProgress, type ∈ s.own.dumpInProgress) (hchildren : t.childPtrMap = s.childPtrMap) :
    ∀ type ∈ t.own.dumpInProgress, type ∈ registeredKinds t := by
  intro type hmem
  have hkinds : registeredKinds t = registeredKinds s := by rw [registeredKinds, hchildren, registeredKinds]
  rw [hkinds]
  exact hP type (hset type hmem)

theorem captured_covered_iff {r : Request} (hchildren₀ : Registered s) (hfresh : r.fork.fresh s = true)
    (hP : ∀ type ∈ s.own.dumpInProgress, type ∈ registeredKinds s) (h : Captures cfg r s t) :
    (∀ type ∈ t.own.dumpInProgress, type ∈ registeredKinds t) ↔
      (r.fork.pid = none → ∀ type ∈ reaches cfg r s, type ∈ registeredKinds s) := by
  cases h with
  | refused hreaches hset hprocs hchildren =>
      rw [hreaches]
      exact ⟨fun _ _ _ => nofun, fun _ => covered_of_subset hP (fun _ h => hset ▸ h) hchildren⟩
  | unforked type hreaches hpid hset hprocs hchildren =>
      have hkinds : registeredKinds t = registeredKinds s := by rw [registeredKinds, hchildren, registeredKinds]
      simp only [hset, hkinds, mem_set_insert, hreaches, Option.mem_def, Option.some.injEq, hpid, true_implies]
      constructor
      · rintro h type' rfl
        exact h type (.inl rfl)
      · rintro h type' (rfl | hmem)
        · exact h type rfl
        · exact hP type' hmem
  | unregistered type pid id hreaches hpid hregistered hset hprocs hchildren =>
      refine ⟨fun _ hnone => absurd (hpid.symm.trans hnone) nofun, fun _ => covered_of_subset hP ?_ hchildren⟩
      intro type' hmem
      rw [hset, mem_set_erase, mem_set_insert] at hmem
      exact hmem.2.resolve_left hmem.1
  | registered type pid id hreaches hpid hset hprocs hchildren =>
      refine ⟨fun _ hnone => absurd (hpid.symm.trans hnone) nofun, fun _ type' hmem => ?_⟩
      have hnew : pid ∉ s.childPtrMap :=
        (not_mem_iff _ _).mpr (not_registered_of_fresh hchildren₀ (not_mem_of_fresh hfresh hpid))
      rw [registeredKinds_insert hnew hchildren]
      rw [hset, mem_set_insert] at hmem
      exact hmem.imp_right (hP type')

theorem step_covered_iff {ev : Event Request FileEvent} (hs : Registered s)
    (hP : ∀ type ∈ s.own.dumpInProgress, type ∈ registeredKinds s) (h : step (systemOps cfg) s ev = some t) :
    (∀ type ∈ t.own.dumpInProgress, type ∈ registeredKinds t) ↔ ForkFailsCovered cfg s ev := by
  have hev : (∀ r, ev ≠ .createDump r) → ForkFailsCovered cfg s ev := by
    intro hne
    cases ev with
    | createDump r => exact absurd rfl (hne r)
    | _ => trivial
  cases step_moves h with
  | quiet _ hne hset hprocs hchildren =>
      exact iff_of_true (covered_of_subset hP (fun _ h => hset ▸ h) hchildren) (hev hne)
  | captured r hfresh hcaptures => exact captured_covered_iff cfg hs hfresh hP hcaptures
  | changed _ hne pid p state hp halive hprocs hset hchildren =>
      exact iff_of_true (covered_of_subset hP (fun _ h => hset ▸ h) hchildren) (hev hne)
  | completed io path rest n e _ _ _ _ hset hprocs hchildren =>
      exact iff_of_true (covered_of_subset hP (fun _ h => ((mem_set_erase _ _ _).mp (hset ▸ h)).2) hchildren) trivial
  | ended pid c p hchild hp hset hprocs hchildren =>
      refine iff_of_true (fun type hmem => ?_) trivial
      rw [hset, mem_set_erase] at hmem
      exact registeredKinds_erase hchild hchildren hmem.1 (hP type hmem.2)

end Steps

section Runs

variable {s u : SystemDaemon}

def NoneInProgress (s : SystemDaemon) : Prop := ∀ type, type ∉ s.own.dumpInProgress

theorem noneInProgress_of_started (h : Started cfg s) : NoneInProgress s := by
  have hcreate : ∀ io file, Preserves NoneInProgress (createEntry cfg io file) := by
    intro io file s _ t hs h type hmem
    rcases createEntry_own h with hset | ⟨n, e, -, -, hset⟩
    · rw [hset] at hmem
      exact hs type hmem
    · rw [hset, mem_set_erase] at hmem
      exact hs type hmem.2
  exact invariant_started cfg (fun _ _ => ExtTreeSet.not_mem_empty) hcreate (fun _ _ hs => hs) h

/-- In every run the types in progress are those of collectors exactly as long as no fork
fails for a type that no collector has. -/
theorem accounted_iff_forkFailsCovered {es : List (Event Request FileEvent)} (hs : Started cfg s)
    (hrun : run (step (systemOps cfg)) s es = some u) :
    Always (step (systemOps cfg)) Accounted s es ↔ EachStep (step (systemOps cfg)) (ForkFailsCovered cfg) s es := by
  have hregistered := registered_of_idle (idle_of_started cfg hs)
  have haccounted := (accounted_iff hregistered).mpr fun type hmem =>
    absurd hmem (noneInProgress_of_started cfg hs type)
  refine always_iff_eachStep (step_registered (sound cfg)) (fun s ev t hJ hP h => ?_) hrun hregistered haccounted
  rw [accounted_iff (step_registered (sound cfg) s ev t hJ h)]
  exact step_covered_iff cfg hJ ((accounted_iff hJ).mp hP) h

end Runs

private def unforked : Request := { diagnosticRequest "FPGA" 7 with fork := ⟨none, true⟩ }

theorem failed_fork_blocks_type : ∃ s t, Started defaultConfig s ∧
    run (step (systemOps defaultConfig)) s [.createDump unforked] = some t ∧ ¬ Accounted t ∧
    (∀ pid : Nat, t.procs[pid]? = none) ∧
    createDump defaultConfig (diagnosticRequest "FPGA" 8) t = .error .unavailable t :=
  ⟨_, _, started_root _, rfl, fun h => Bool.false_ne_true ((h.accepted "FPGA" nofun).symm.trans rfl),
    fun _ => ExtTreeMap.getElem?_empty, rfl⟩

theorem ended_collector_accounted : Always (step (systemOps defaultConfig)) Accounted (bare ⟨∅, ⟨false, false⟩⟩ .root)
    [.createDump (diagnosticRequest "FPGA" 7), .exits 7 0, .childNotification 7] :=
  (accounted_iff_forkFailsCovered defaultConfig (started_root _) rfl).mpr (by decide +kernel)

end DumpCollector.System.InProgress
