import DumpCollector.Keys

namespace DumpCollector.Limits

open Std Lib.Directory Lib.Effects Lib.Maps Lib.Runs Entries FileNames Inotify Requests State Dispatch Frames Steps
open Slots Keys

variable {E X C R I : Type}

def Within (limit : Nat) (s : Daemon E X C) : Prop := s.entries.size ≤ limit

instance decidableWithin (limit : Nat) (s : Daemon E X C) : Decidable (Within limit s) :=
  inferInstanceAs (Decidable (_ ≤ _))

/-- A file or a failure that makes a new key finds fewer entries than the limit. -/
def FindsRoom (named : Path → Option Nat) (made : I → Bool) (limit : Nat) (s : Daemon E X C) : Event R I → Prop
  | .handle io => ∀ _ ∈ newId named made s io, s.entries.size < limit
  | .childNotification pid => ∀ n ∈ failure s pid, n ∉ s.entries → s.entries.size < limit
  | _ => True

instance decidableFindsRoom (named : Path → Option Nat) (made : I → Bool) (limit : Nat) (s : Daemon E X C)
    (ev : Event R I) : Decidable (FindsRoom named made limit s ev) :=
  match ev with
  | .handle io => inferInstanceAs (Decidable (∀ _ ∈ newId named made s io, s.entries.size < limit))
  | .childNotification pid =>
      inferInstanceAs (Decidable (∀ n ∈ failure s pid, n ∉ s.entries → s.entries.size < limit))
  | .createDump _ | .delete _ | .deleteAll | .files _ | .exits _ _ | .stops _ _ | .continues _ | .watchReady _ =>
      isTrue trivial

section Requests

variable {s t : Daemon E X C}

theorem size_trimmed (h : Trimmed s t) : t.entries.size ≤ s.entries.size := size_le_of_subset (keys_trimmed h)

variable [DumpEntry E]

theorem size_outcome {f : Fork} {r : EStateM.Result Exn (Daemon E X C) (Option Nat)} (h : Outcome f s r) :
    (final r).entries.size ≤ s.entries.size + 1 := by
  cases h with
  | refused e t ht => exact Nat.le_succ_of_le (size_trimmed ht)
  | unregistered e pid kind u own hu =>
      have hsize := size_trimmed hu
      exact Nat.le_succ_of_le hsize
  | unfinished _ pid kind u hu _ _ _ hfin =>
      have hsize := size_trimmed hu
      rw [hfin]
      exact Nat.le_succ_of_le hsize
  | inserted pid kind u e own hu => exact (size_insertIfNew_le _).trans (Nat.add_le_add_right (size_trimmed hu) 1)

theorem size_limited {limit : Nat} (hlimit : 1 ≤ limit) (hs : Keyed s) (hsize : Within limit s)
    (h : limitDumpEntries limit s = .ok () t) : t.entries.size < limit := by
  by_cases hbelow : limit = 0 ∨ s.entries.size < limit
  · rw [limitDumpEntries_below hbelow] at h
    cases h
    exact hbelow.resolve_left (by omega)
  · rw [limitDumpEntries_above hbelow] at h
    have htrim := (keeps_deleteEach (s.entries.keys.take (s.entries.size - (limit - 1)))).ok h
    have hkept : t.entries.keys ⊆ s.entries.keys.drop (s.entries.size - (limit - 1)) := by
      intro k hk
      obtain ⟨v, hv⟩ := (mem_iff _ _).mp (ExtTreeMap.mem_keys.mp hk)
      have hmem : k ∈ s.entries.keys := ExtTreeMap.mem_keys.mpr ((mem_iff _ _).mpr ⟨v, htrim.entries k v hv⟩)
      rw [← List.take_append_drop (s.entries.size - (limit - 1)) s.entries.keys, List.mem_append] at hmem
      refine hmem.resolve_left fun hdeleted => ?_
      rw [deleteEach_erased hs h hdeleted] at hv
      cases hv
    have hlength := (List.subperm_of_subset ExtTreeMap.nodup_keys hkept).length_le
    rw [List.length_drop, ExtTreeMap.length_keys, ExtTreeMap.length_keys] at hlength
    rw [Within] at hsize
    omega

theorem within_of_limited {limit : Nat} (hlimit : 1 ≤ limit) {f : Fork} {m : Op E X C (Option Nat)}
    (hm : Limited limit f m) (hs : Keyed s) (hsize : Within limit s) : Within limit (final (m s)) := by
  obtain ⟨k, rfl, hk⟩ := hm
  cases h : (limitDumpEntries limit : Op E X C Unit) s with
  | ok u t =>
      rw [bind_of_ok h]
      have hroom := size_limited hlimit hs hsize h
      have hout := size_outcome (hk u t)
      rw [Within]
      omega
  | error e t =>
      rw [bind_of_error h]
      exact (size_trimmed ((keeps_limitDumpEntries limit).error h)).trans hsize

end Requests

section Runs

variable [DumpEntry E] {ops : Ops E X C R I} {named : Path → Option Nat} {made : I → Bool}

/-- The step lemma: within the limit, a step stays there exactly if it finds room for the
key that it makes. -/
theorem step_within_iff (hops : Sound ops named) (hmakes : Makes ops named made) {limit : Nat}
    (hrequest : ∀ r s, Keyed s → Within limit s → Within limit (final (ops.createDump r s)))
    {s t : Daemon E X C} {ev : Event R I} (hs : Keyed s) (hsize : Within limit s) (h : step ops s ev = some t) :
    Within limit t ↔ FindsRoom named made limit s ev := by
  cases step_keyMoves hops hmakes h with
  | fewer _ hev hnew hfail hkeys =>
      apply iff_of_true ((size_le_of_subset hkeys).trans hsize)
      cases ev with
      | handle io =>
          intro n hn
          rw [hnew io rfl] at hn
          cases hn
      | childNotification pid => exact fun n hn hno => absurd (hfail pid rfl n hn) hno
      | _ => trivial
  | requested r _ hfinal => exact iff_of_true (hfinal ▸ hrequest r s hs hsize) trivial
  | filed io n e hnew hno ht =>
      have hgrown : t.entries.size = s.entries.size + 1 := by rw [ht, size_insert_of_absent hno]
      rw [Within, hgrown, FindsRoom, hnew]
      exact ⟨fun hroom _ _ => hroom, fun hroom => hroom n rfl⟩
  | failed pid n hfail hno ht =>
      have hgrown : t.entries.size = s.entries.size + 1 := by rw [ht, size_insert_of_absent hno]
      rw [Within, hgrown, FindsRoom, hfail]
      exact ⟨fun hroom _ _ _ => hroom, fun hroom => hroom n rfl hno⟩

/-- From every state that is reached with no more entries than the limit, there are no
more in every run whose steps find room for the keys they make, and only in those. -/
def BoundedWhile (ops : Ops E X C R I) (named : Path → Option Nat) (made : I → Bool) (limit : Nat)
    (started : Daemon E X C → Prop) : Prop :=
  ∀ s₀ s u es₀ es, started s₀ → run (step ops) s₀ es₀ = some s → Within limit s → run (step ops) s es = some u →
    (Always (step ops) (Within limit) s es ↔ EachStep (step ops) (FindsRoom named made limit) s es)

theorem boundedWhile_of_limited (hops : Sound ops named) (hmakes : Makes ops named made) {limit : Nat}
    {started : Daemon E X C → Prop} (hidle : ∀ s, started s → Idle s)
    (hrequest : ∀ r s, Keyed s → Within limit s → Within limit (final (ops.createDump r s))) :
    BoundedWhile ops named made limit started := by
  intro s₀ s u es₀ es hs₀ hrun₀ hsize hrun
  have hkeyed : Keyed s := invariant_run (step_keyed hops) hrun₀ (hidle s₀ hs₀).keyed
  exact always_iff_eachStep (step_keyed hops)
    (fun s ev t hs hsize h => step_within_iff hops hmakes hrequest hs hsize h) hrun hkeyed hsize

end Runs

section Fdr

open Fdr.Manager Fdr.Steps

variable (cfg : Config)

theorem trigger_entries (r : Request) (s : FdrDaemon) :
    (final ((triggerFDRDumpScript cfg r >>= fun _ => (pure none : FdrOp (Option Nat))) s)).entries = s.entries := by
  rw [triggerFDRDumpScript, bind_assoc]
  cases hcheck : checkTrigger cfg r with
  | error e => rfl
  | ok u =>
      rw [bind_of_ok (fromExcept_eq_ok.mpr ⟨rfl, rfl⟩)]
      rcases forkCollector_cases r.fork () id s with ⟨-, h⟩ | ⟨pid, -, -, h⟩ | ⟨pid, -, -, h⟩
      · rw [bind_of_error h]
        rfl
      · rw [bind_of_error h]
        rfl
      · rw [bind_of_ok h]
        rfl

theorem within_fdr (hlimit : 1 ≤ cfg.FDR_DUMP_MAX_LIMIT) (r : Request) (s : FdrDaemon) (hs : Keyed s)
    (hsize : Within cfg.FDR_DUMP_MAX_LIMIT s) : Within cfg.FDR_DUMP_MAX_LIMIT (final (createDump cfg r s)) := by
  rw [createDump]
  cases getString (withAction r.params) "Action" with
  | error e => exact hsize
  | ok dumpAction =>
      rw [bind_of_ok (fromExcept_eq_ok.mpr ⟨rfl, rfl⟩)]
      by_cases haction : dumpAction ≠ "Collect"
      · rw [if_pos haction, Within, trigger_entries]
        exact hsize
      · rw [if_neg haction]
        have h := within_of_limited hlimit (collect_limited cfg r) hs hsize
        rwa [map_eq_pure_bind] at h

end Fdr

/-- The entries stay within the limits of the two managers exactly as long as no file and
no failure makes a key beyond them. -/
theorem bounded_iff_findsRoom (system : System.Manager.Config) (fdr : Fdr.Manager.Config)
    (hsystem : 1 ≤ system.SYSTEM_DUMP_MAX_LIMIT) (hfdr : 1 ≤ fdr.FDR_DUMP_MAX_LIMIT) :
    BoundedWhile (System.Manager.systemOps system) (fun file => namedId system.plat (filename file))
      (fun io => io.construction = .done) system.SYSTEM_DUMP_MAX_LIMIT (System.Manager.Started system) ∧
    BoundedWhile (Fdr.Manager.fdrOps fdr) (fun file => namedId fdr.plat (filename file))
      (fun io => io.construction = .done) fdr.FDR_DUMP_MAX_LIMIT (Fdr.Manager.Started fdr) :=
  ⟨boundedWhile_of_limited (System.Steps.sound system) (makes_system system)
      (fun _ hs => System.Steps.idle_of_started system hs)
      fun r _ hs hsize => within_of_limited hsystem (System.Steps.createDump_limited system r) hs hsize,
    boundedWhile_of_limited (Fdr.Steps.sound fdr) (makes_fdr fdr) (fun _ hs => Fdr.Steps.idle_of_started fdr hs)
      (within_fdr fdr hfdr)⟩

section Files

open Fdr.Manager

private def request (pid : Nat) : Request where
  params := (∅ : DumpCreateParams).insert "DiagnosticType" (.str "FDR")
  space := ⟨some (2 ^ 30), some (2 ^ 30)⟩
  fork := ⟨some pid, true⟩
  timeStamp := 1000000
  construction := .done

private def event : FileEvent := ⟨true, .done, 0⟩

private def unknownFile : List (Event Request FileEvent) :=
  [.createDump (request 7), .files (.openFile [] "obmcdump_5_5.tar"), .watchReady [], .handle event,
    .files (.closeFile [] "obmcdump_5_5.tar"), .watchReady [], .handle event]

theorem unknown_file_exceeds_limit : ∃ s t, Started defaultConfig s ∧ Within defaultConfig.FDR_DUMP_MAX_LIMIT s ∧
    run (step (fdrOps defaultConfig)) s unknownFile = some t ∧ ¬ Within defaultConfig.FDR_DUMP_MAX_LIMIT t := by
  have h : ((run (step (fdrOps defaultConfig)) (bare () .root) unknownFile).map fun t => t.entries.size) = some 2 := by
    decide +kernel
  obtain ⟨t, hrun, hsize⟩ := Option.map_eq_some_iff.mp h
  exact ⟨_, t, started_root _, by decide, hrun, by rw [Within, hsize]; decide⟩

theorem requests_stay_within_limit :
    Always (step (fdrOps defaultConfig)) (Within defaultConfig.FDR_DUMP_MAX_LIMIT) (bare () .root)
      [.createDump (request 7), .createDump (request 8), .createDump (request 9)] :=
  ((bounded_iff_findsRoom System.Manager.defaultConfig defaultConfig (by decide) (by decide)).2 _ _ _ [] _
    (started_root _) rfl (by decide) rfl).mpr (by decide +kernel)

end Files

end DumpCollector.Limits
