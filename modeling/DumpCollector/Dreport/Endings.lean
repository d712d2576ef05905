import DumpCollector.Dreport.Package
import DumpCollector.Lives

namespace DumpCollector.Dreport.Endings

open Std Lib.Directory Lib.Effects Lib.Maps Lib.Runs Entries FileNames Inotify Requests State Dispatch Frames
open DumpCollector.Steps Slots Children FileHandle Lifecycle Lives
open Package (Config Commands status inTmp)

section Script

/-- How the commands of a run of the script go: the directory in the temporary one is made or not,
the commands of package, whether a failing copy leaves a file, and the last removal. -/
structure Outcome where
  mkdir : Bool
  commands : Commands
  left : Bool
  rm : Bool

structure Ending where
  status : Nat
  delivered : Bool
  deriving DecidableEq

variable (cfg : Config) (o : Outcome)

/-- What package returns. Its last command is the removal of what has been copied. -/
def packaged : Bool :=
  status cfg o.commands && (inTmp cfg || match o.commands.cp with
    | .intoDirectory | .inPlace => o.rm
    | .fails _ => false)

def delivered : Bool :=
  status cfg o.commands && !inTmp cfg && match o.commands.cp with
    | .intoDirectory => true
    | .inPlace => false
    | .fails _ => o.left

/-- Without the directory in the temporary one main ends with an exit of its own: the status is that of
the message in front of it. -/
def ending : Ending :=
  if o.mkdir then ⟨if packaged cfg o then 0 else 1, delivered cfg o⟩ else ⟨0, false⟩

def Silent : Prop :=
  o.mkdir = false ∨ (status cfg o.commands = true ∧
    (inTmp cfg = true ∨ (o.commands.cp = .inPlace ∧ o.rm = true)))

theorem ending_silent_iff : ending cfg o = ⟨0, false⟩ ↔ Silent cfg o := by
  rw [ending, Silent, packaged, delivered]
  cases o.mkdir <;> cases status cfg o.commands <;> cases inTmp cfg <;> cases o.commands.cp <;> cases o.rm <;>
    cases o.left <;> simp

end Script

section Managers

variable {E X C R I : Type} [DumpEntry E] {ops : Ops E X C R I} {named : Path → Option Nat} {s t u : Daemon E X C}
  {es : List (Event R I)} {n : Nat}

/-- What may happen when the collector of a dump comes to an ending: its process exits with the
status and is not stopped, and without an archive no file of the dump is taken up. -/
structure EndsAs (named : Path → Option Nat) (n : Nat) (e : Ending) (s : Daemon E X C) (ev : Event R I) : Prop where
  exits : ∀ (pid : Nat) (p : Process C) status, s.procs[pid]? = some p → p.collector.entryId = n →
    ev = .exits pid status → status = e.status
  stops : ∀ (pid : Nat) (p : Process C) signal, s.procs[pid]? = some p → p.collector.entryId = n →
    ev ≠ .stops pid signal
  files : ∀ io, ev = .handle io → e.delivered = false → takenUp named s n = none

omit [DumpEntry E] in
theorem not_breaks {e : Ending} (hstatus : e.status = 0) {ev : Event R I} (h : EndsAs named n e s ev) :
    ¬ Breaks n s ev := by
  rintro ⟨pid, p, hp, hcollector, hbadly⟩
  cases ev with
  | exits q status =>
      obtain ⟨rfl, hne⟩ := hbadly
      exact hne ((h.exits q p status hp hcollector rfl).trans hstatus)
  | stops q signal =>
      cases hbadly
      exact h.stops _ p signal hp hcollector rfl
  | _ => exact hbadly

structure Left (e : Ending) (b : E) : Prop where
  failed : e.status = 0 → (DumpEntry.base b).status ≠ .Failed
  file : e.delivered = false → DumpEntry.file b = none
  inProgress : e = ⟨0, false⟩ → (DumpEntry.base b).status = .InProgress

theorem run_left (hops : Sound ops named) (horigin : KeepsOrigin ops) (hregistered : Registered t)
    (hbroken : ¬ Broken n t) {b : E} (hb : t.entries[n]? = some (some b))
    (hst : (DumpEntry.base b).status = .InProgress) (hfile : DumpEntry.file b = none) (hrun : run (step ops) t es = some u)
    (hstays : EachStep (step ops) (Stays ops n) t es) {e : Ending}
    (hends : EachStep (step ops) (EndsAs named n e) t es) :
    ∃ b', u.entries[n]? = some (some b') ∧ origin b' = origin b ∧ Left e b' := by
  have hslot := holds_collecting hb hst hfile
  obtain ⟨b', hb', hcontinues, -⟩ := run_continues hops horigin hslot hrun hb hstays
  have hnotFailed : e.status = 0 → (DumpEntry.base b').status ≠ .Failed := by
    intro hzero hfailed
    rcases run_failed hops hregistered hrun ⟨b', hb', hfailed⟩ with (⟨b₀, hb₀, hfailed₀⟩ | hbefore) | hsome
    · cases hb.symm.trans hb₀
      cases hst.symm.trans hfailed₀
    · exact hbroken hbefore
    · exact not_someStep (eachStep_mono (fun _ _ h => not_breaks hzero h) hends) hsome
  have hnoFile : e.delivered = false → DumpEntry.file b' = none := by
    intro hnone
    by_contra hne
    obtain ⟨file, hsome⟩ := Option.ne_none_iff_exists'.mp hne
    rcases run_file hops horigin hslot hrun hb' hsome with ⟨o, phase, hphase, hfile'⟩ | htaken
    · cases hphase
      cases hfile'
    · refine not_someStep (eachStep_mono (fun s ev h => ?_) hends) htaken
      rintro ⟨⟨io, rfl⟩, hup⟩
      cases (h.files io rfl hnone).symm.trans hup
  refine ⟨b', hb', hcontinues.origin, hnotFailed, hnoFile, ?_⟩
  rintro rfl
  obtain ⟨ls, after, -, -, hafter⟩ := (step_refines hops horigin n).run hrun hslot
  rw [Holds, hb'] at hafter
  obtain ⟨phase, rfl, hstatus, hphase⟩ := represents_entry hafter
  cases phase with
  | collecting => exact hstatus
  | collected file => cases (hnoFile rfl).symm.trans hphase
  | failed file => exact absurd hstatus (hnotFailed rfl)

/-- In any run of a manager, the entry of a dump that dreport collects comes to what the ending of
dreport leaves it at, whatever happens to other dumps, as long as it is not deleted. -/
def LeftByEndings (ops : Ops E X C R I) (named : Path → Option Nat) (started : Daemon E X C → Prop) : Prop :=
  ∀ s₀ es₀ s r n t, started s₀ → run (step ops) s₀ es₀ = some s → step ops s (.createDump r) = some t →
    ops.createDump r s = .ok (some n) t → n ∉ s.entries →
    (∀ (pid : Nat) (p : Process C), s.procs[pid]? = some p → p.collector.entryId ≠ n) →
    ∀ cfg o es u, run (step ops) t es = some u → EachStep (step ops) (Stays ops n) t es →
      EachStep (step ops) (EndsAs named n (ending cfg o)) t es →
      ∃ b, u.entries[n]? = some (some b) ∧ Left (ending cfg o) b ∧
        (Silent cfg o → (DumpEntry.base b).status = .InProgress ∧ DumpEntry.file b = none)

theorem leftByEndings {started : Daemon E X C → Prop} (hops : Sound ops named) (horigin : KeepsOrigin ops)
    (hbegun : ∀ s, started s → Begun s) : LeftByEndings ops named started := by
  intro s₀ es₀ s r n t hs₀ hrun₀ hstep hcreated hunused hfresh cfg o es u hrun hstays hends
  obtain ⟨b, hb, hst, hfile⟩ := requested_entry hops hcreated hunused
  have hregistered : Registered s :=
    invariant_run (fun s ev t hs h => step_registered hops s ev t hs h) hrun₀ (registered_of_idle (hbegun s₀ hs₀).idle)
  have hbroken : ¬ Broken n t := by
    intro hbroken
    rcases step_broken hops hstep hbroken with ⟨pid, p, status, hp, hcollector, -⟩ | ⟨pid, p, -, -, hbadly⟩
    · exact hfresh pid p hp hcollector
    · exact hbadly
  obtain ⟨b', hb', -, hleft⟩ := run_left hops horigin (step_registered hops s _ t hregistered hstep) hbroken hb hst
    hfile hrun hstays hends
  refine ⟨b', hb', hleft, fun hsilent => ?_⟩
  have hending := (ending_silent_iff cfg o).mpr hsilent
  exact ⟨hleft.inProgress hending, hleft.file (by rw [hending])⟩

end Managers

section Endings

open Bmc.Manager (BmcDaemon Request bmcOps plainRequest started_root)

private def userSession : Config where
  optional_path := []
  names := .none
  others _ := none
  vars := ⟨false, none⟩
  compression_type := "xz"
  dump_dir := "/var/lib/phosphor-debug-collector/dumps/1"
  headerExtension := false

/-- The temporary directory is full: nothing has been collected, and what the other commands would
have come to plays no part. -/
private def noSpace : Outcome where
  mkdir := false
  commands := ⟨true, 0, true, true, none, true, .intoDirectory⟩
  left := false
  rm := true

private def comesToItsEnd : List (Event Request FileEvent) := [.exits 7 0, .childNotification 7]

private theorem comesToItsEnd_endsAs {s : BmcDaemon} {named : Path → Option Nat} :
    EachStep (step (bmcOps Bmc.Manager.defaultConfig)) (EndsAs named 1 (ending userSession noSpace)) s
      comesToItsEnd := by
  refine eachStep_mono (C := fun _ ev => ev ∈ comesToItsEnd) (fun s ev h => ?_) (eachStep_of_mem fun _ h => h)
  obtain rfl | rfl : ev = .exits 7 0 ∨ ev = .childNotification 7 := by simpa [comesToItsEnd] using h
  · refine ⟨fun pid p status _ _ heq => ?_, fun pid p signal _ _ heq => ?_, fun io heq => ?_⟩ <;> cases heq
    rfl
  · refine ⟨fun pid p status _ _ heq => ?_, fun pid p signal _ _ heq => ?_, fun io heq => ?_⟩ <;> cases heq

end Endings

end DumpCollector.Dreport.Endings
