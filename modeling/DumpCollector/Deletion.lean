import DumpCollector.Bmc.Steps
import DumpCollector.System.Steps

namespace DumpCollector.Deletion

open Std Lib.Directory Lib.Effects Lib.Maps Lib.Runs Entries FileNames Inotify Requests State Dispatch Steps Slots

variable {E X C R I : Type} [DumpEntry E]

/-- The steps that make an id a key of `entries`: a request that returns it, and the close
of a regular file with the id in its name, which leaves a completed entry with that file. -/
def Recreates (ops : Ops E X C R I) (named : Path → Option Nat) (n : Nat) (s : Daemon E X C) : Event R I → Prop
  | .createDump r => ∃ t, ops.createDump r s = .ok (some n) t
  | .handle io => ∃ path rest t e, s.todo = (path, IN_CLOSE_WRITE) :: rest ∧ s.disk.isDirectory path = false ∧
      named path = some n ∧ step ops s (.handle io) = some t ∧ t.entries[n]? = some (some e) ∧
      (DumpEntry.base e).status = .Completed ∧ DumpEntry.file e = some path
  | _ => False

/-- No failure is reported for the id while it is not a key. -/
def NotFailing (n : Nat) (s : Daemon E X C) : Event R I → Prop
  | .childNotification pid => failure s pid = some n → n ∈ s.entries
  | _ => True

instance decidableNotFailing (n : Nat) (s : Daemon E X C) (ev : Event R I) : Decidable (NotFailing n s ev) :=
  match ev with
  | .childNotification pid => inferInstanceAs (Decidable (failure s pid = some n → n ∈ s.entries))
  | .createDump _ | .delete _ | .deleteAll | .files _ | .exits _ _ | .stops _ _ | .continues _ | .watchReady _
  | .handle _ => isTrue trivial

variable {ops : Ops E X C R I} {named : Path → Option Nat}

/-- The step lemma: where an id is not a key, few steps make it one. -/
theorem step_recreates (hops : Sound ops named) (n : Nat) {s t : Daemon E X C} {ev : Event R I}
    (hev : NotFailing n s ev) (h : step ops s ev = some t) (hmem : n ∈ t.entries) :
    n ∈ s.entries ∨ Recreates ops named n s ev := by
  obtain ⟨v, hv⟩ := (mem_iff _ _).mp hmem
  cases step_slot hops h hv with
  | kept _ _ hkept => exact .inl ((mem_iff _ _).mpr ⟨v, hkept⟩)
  | created r pid kind e hr => exact .inr ⟨t, hr⟩
  | filed io path rest e htodo hnamed hst hfile _ hregular =>
      exact .inr ⟨path, rest, t, e, htodo, hregular, hnamed, h, hv, hst, hfile⟩
  | failed pid hfail => exact .inl (hev hfail)

def ComesBackOnly (ops : Ops E X C R I) (named : Path → Option Nat) : Prop :=
  ∀ (s t : Daemon E X C) (es : List (Event R I)) (n : Nat), n ∉ s.entries → run (step ops) s es = some t →
    EachStep (step ops) (NotFailing n) s es → n ∈ t.entries → SomeStep (step ops) (Recreates ops named n) s es

theorem comesBackOnly_of_sound (hops : Sound ops named) : ComesBackOnly ops named := by
  intro s t es n hgone hrun hes hmem
  exact (someStep_of_reached (fun _ _ _ hA h hP => step_recreates hops n hA h hP) hes hrun hmem).resolve_left hgone

theorem deleted_comesBackOnly (bmc : Bmc.Manager.Config) (system : System.Manager.Config) :
    ComesBackOnly (Bmc.Manager.bmcOps bmc) (fun file => namedId bmc.plat (filename file)) ∧
    ComesBackOnly (System.Manager.systemOps system) (fun file => namedId system.plat (filename file)) :=
  ⟨comesBackOnly_of_sound (Bmc.Steps.sound bmc), comesBackOnly_of_sound (System.Steps.sound system)⟩

section Orphan

open Bmc.Manager

def orphanFiles : List (Event Request FileEvent) :=
  [.files (.mkdir [] "1"), .watchReady [], .handle plainEvent, .files (.openFile ["1"] "obmcdump_1_1.tar"),
    .files (.closeFile ["1"] "obmcdump_1_1.tar"), .watchReady ["1"], .handle plainEvent]

theorem orphan_recreates_entry : ∃ s t, Started defaultConfig (bare ⟨false⟩ .root) ∧
    run (step (bmcOps defaultConfig)) (bare ⟨false⟩ .root) [.createDump (plainRequest 7), .delete 1] = some s ∧
    run (step (bmcOps defaultConfig)) s orphanFiles = some t ∧ 1 ∉ s.entries ∧ 1 ∈ t.entries :=
  ⟨_, _, started_root defaultConfig, rfl, rfl, by decide +kernel, by decide +kernel⟩

theorem orphan_recreated_by_close : ∃ s t,
    run (step (bmcOps defaultConfig)) (bare ⟨false⟩ .root) [.createDump (plainRequest 7), .delete 1] = some s ∧
    run (step (bmcOps defaultConfig)) s orphanFiles = some t ∧ 1 ∈ t.entries ∧
    SomeStep (step (bmcOps defaultConfig)) (Recreates (bmcOps defaultConfig)
      (fun file => namedId defaultConfig.plat (filename file)) 1) s orphanFiles := by
  refine ⟨_, _, rfl, rfl, by decide +kernel, ?_⟩
  exact (deleted_comesBackOnly defaultConfig System.Manager.defaultConfig).1 _ _ _ 1 (by decide +kernel) rfl
    (by decide +kernel) (by decide +kernel)

end Orphan

end DumpCollector.Deletion
