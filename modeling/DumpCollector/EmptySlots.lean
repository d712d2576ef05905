import DumpCollector.Bmc.Steps
import DumpCollector.FaultLog.Steps
import DumpCollector.Fdr.Steps
import DumpCollector.System.Steps

namespace DumpCollector.EmptySlots

open Std Lib.Directory Lib.Effects Lib.Runs Entries Requests State Dispatch Steps Slots

variable {E X C R I : Type} [DumpEntry E]

/-- No slot is empty, and so nothing that goes through the entries dereferences an
empty slot. -/
structure SlotsFilled (ops : Ops E X C R I) (s : Daemon E X C) : Prop where
  nonNull : ∀ k : Nat, s.entries[k]? ≠ some none
  deleteAll : ∀ t, deleteAll s ≠ .error .nullDereference t
  limitDumpEntries : ∀ limit t, limitDumpEntries limit s ≠ .error .nullDereference t
  createEntry : ∀ io file t, ops.createEntry io file s ≠ .error .nullDereference t

def DereferencesSlots (ops : Ops E X C R I) : Prop :=
  ∀ io file s t, ops.createEntry io file s = .error .nullDereference t → ∃ n : Nat, s.entries[n]? = some none

variable {ops : Ops E X C R I} {named : Path → Option Nat}

theorem slotsFilled_iff (hnull : DereferencesSlots ops) {s : Daemon E X C} (hs : Keyed s) :
    SlotsFilled ops s ↔ NonNull s := by
  refine ⟨fun h => h.nonNull, fun hn => ⟨hn, ?_, ?_, ?_⟩⟩
  · intro t h
    obtain ⟨u, hu⟩ := deleteAll_ok hs hn
    rw [hu] at h
    cases h
  · intro limit t h
    obtain ⟨u, hu⟩ := limitDumpEntries_ok hs hn limit
    rw [hu] at h
    cases h
  · intro io file t h
    obtain ⟨n, hempty⟩ := hnull io file s t h
    exact hn n hempty

/-- The run lemma: by induction over the events, the slots stay filled as long as each
failure that is reported finds the entry of its collector. -/
theorem always_slotsFilled_iff (hops : Sound ops named) (hnull : DereferencesSlots ops) {s u : Daemon E X C}
    {es : List (Event R I)} (hs : Idle s) (hrun : run (step ops) s es = some u) :
    Always (step ops) (SlotsFilled ops) s es ↔ EachStep (step ops) FindsEntry s es := by
  refine always_iff_eachStep (step_keyed hops) ?_ hrun hs.keyed ((slotsFilled_iff hnull hs.keyed).mpr hs.nonNull)
  intro s e t hk hf h
  rw [slotsFilled_iff hnull (step_keyed hops s e t hk h)]
  exact step_nonNull_iff hops s e t hf.nonNull h

def FilledWhile (ops : Ops E X C R I) (started : Daemon E X C → Prop) : Prop :=
  ∀ s u es, started s → run (step ops) s es = some u →
    (Always (step ops) (SlotsFilled ops) s es ↔ EachStep (step ops) FindsEntry s es)

theorem slotsFilled_iff_findsEntry (bmc : Bmc.Manager.Config) (system : System.Manager.Config)
    (faultLog : FaultLog.Manager.Config) (fdr : Fdr.Manager.Config) :
    FilledWhile (Bmc.Manager.bmcOps bmc) (Bmc.Manager.Started bmc) ∧
    FilledWhile (System.Manager.systemOps system) (System.Manager.Started system) ∧
    FilledWhile (FaultLog.Manager.faultLogOps faultLog) (FaultLog.Manager.Started faultLog) ∧
    FilledWhile (Fdr.Manager.fdrOps fdr) (Fdr.Manager.Started fdr) := by
  refine ⟨fun s u es hs hrun => ?_, fun s u es hs hrun => ?_, fun s u es hs hrun => ?_, fun s u es hs hrun => ?_⟩
  · have hnull : DereferencesSlots (Bmc.Manager.bmcOps bmc) :=
      fun _ _ _ t h => absurd h (Bmc.Steps.createEntry_no_null t)
    exact always_slotsFilled_iff (Bmc.Steps.sound bmc) hnull (Bmc.Steps.restoring_of_started bmc hs).idle hrun
  · have hnull : DereferencesSlots (System.Manager.systemOps system) :=
      fun _ _ _ t h => absurd h (System.Steps.createEntry_no_null t)
    exact always_slotsFilled_iff (System.Steps.sound system) hnull (System.Steps.idle_of_started system hs) hrun
  · have hnull : DereferencesSlots (FaultLog.Manager.faultLogOps faultLog) :=
      fun _ _ _ _ h => FaultLog.Steps.createEntry_null h
    exact always_slotsFilled_iff (FaultLog.Steps.sound faultLog) hnull (FaultLog.Steps.idle_of_started faultLog hs) hrun
  · have hnull : DereferencesSlots (Fdr.Manager.fdrOps fdr) := fun _ _ _ _ h => Fdr.Steps.createEntry_null h
    exact always_slotsFilled_iff (Fdr.Steps.sound fdr) hnull (Fdr.Steps.idle_of_started fdr hs) hrun

section Orphan

open Bmc.Manager

def orphanFails : List (Event Request FileEvent) :=
  [.createDump (plainRequest 7), .delete 1, .exits 7 1, .childNotification 7]

theorem orphan_leaves_empty_slot : ∃ s t, Started defaultConfig s ∧
    run (step (bmcOps defaultConfig)) s orphanFails = some t ∧ t.entries[1]? = some none ∧
    deleteAll t = .error .nullDereference t :=
  ⟨bare ⟨false⟩ .root, _, started_root defaultConfig, rfl, rfl, rfl⟩

theorem failure_keeps_slots_filled : Always (step (bmcOps defaultConfig)) (SlotsFilled (bmcOps defaultConfig))
    (bare ⟨false⟩ .root) [.createDump (plainRequest 7), .exits 7 1, .childNotification 7] :=
  ((slotsFilled_iff_findsEntry defaultConfig System.Manager.defaultConfig FaultLog.Manager.defaultConfig
    Fdr.Manager.defaultConfig).1 _ _ _ (started_root defaultConfig) rfl).mpr (by decide)

end Orphan

end DumpCollector.EmptySlots
