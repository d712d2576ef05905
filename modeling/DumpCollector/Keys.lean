import DumpCollector.Children
import DumpCollector.Bmc.Steps
import DumpCollector.System.Steps
import DumpCollector.Fdr.Steps
import DumpCollector.FaultLog.Steps

namespace DumpCollector.Keys

open Std Lib.Directory Lib.Effects Lib.Maps Entries FileNames Inotify Requests State Dispatch
open Frames Steps Slots Children

variable {E X C R I : Type}

def Makes (ops : Ops E X C R I) (named : Path → Option Nat) (made : I → Bool) : Prop :=
  ∀ io file s u t, ops.createEntry io file s = .ok u t → ∀ n, named file = some n → n ∉ s.entries →
    (n ∈ t.entries ↔ made io = true)

/-- The id that becomes a key when the next file event is handled. -/
def newId (named : Path → Option Nat) (made : I → Bool) (s : Daemon E X C) (io : I) : Option Nat :=
  match s.todo with
  | (path, mask) :: _ =>
      if mask = IN_CLOSE_WRITE ∧ s.disk.isDirectory path = false ∧ made io = true then
        (named path).filter fun n => n ∉ s.entries
      else none
  | [] => none

variable [DumpEntry E] {ops : Ops E X C R I} {named : Path → Option Nat} {made : I → Bool}

omit [DumpEntry E] in
theorem keys_trimmed {s t : Daemon E X C} (h : Trimmed s t) : ∀ k ∈ t.entries, k ∈ s.entries := by
  intro k hk
  obtain ⟨v, hv⟩ := (mem_iff _ _).mp hk
  exact (mem_iff _ _).mpr ⟨v, h.entries k v hv⟩

section CreateEntry

variable {io : I} {file : Path} {s t : Daemon E X C} {u : Unit}

theorem createEntry_keys (hops : Sound ops named) (hmakes : Makes ops named made)
    (h : ops.createEntry io file s = .ok u t) (k : Nat) :
    k ∈ t.entries ↔ k ∈ s.entries ∨ (named file = some k ∧ made io = true) := by
  have hmade := hmakes io file s u t h
  rcases (hops.createEntry io file s u t h).entries with ⟨heq, -⟩ | ⟨n, e, hnamed, heq, -⟩
  · rw [heq]
    refine ⟨.inl, fun hk => hk.elim id fun ⟨hnamed, hdone⟩ => ?_⟩
    by_contra hno
    exact hno (heq ▸ (hmade k hnamed hno).mpr hdone)
  · have hmem : k ∈ t.entries ↔ n = k ∨ k ∈ s.entries := by
      rw [heq, ExtTreeMap.mem_insert, LawfulEqCmp.compare_eq_iff_eq]
    rw [hmem]
    constructor
    · rintro (rfl | hk)
      · by_cases hn : n ∈ s.entries
        · exact .inl hn
        · exact .inr ⟨hnamed, (hmade n hnamed hn).mp (hmem.mpr (.inl rfl))⟩
      · exact .inl hk
    · rintro (hk | ⟨hk, -⟩)
      · exact .inr hk
      · exact .inl (Option.some.inj (hnamed.symm.trans hk))

end CreateEntry

/-- What a step does to the keys of `entries` and to the counter. -/
inductive KeyMoves (ops : Ops E X C R I) (named : Path → Option Nat) (made : I → Bool) (s t : Daemon E X C) :
    Event R I → Prop
  | fewer (ev : Event R I) (hev : ∀ r, ev ≠ .createDump r) (hnew : ∀ io, ev = .handle io → newId named made s io = none)
      (hfail : ∀ pid, ev = .childNotification pid → ∀ n ∈ failure s pid, n ∈ s.entries)
      (hkeys : ∀ k ∈ t.entries, k ∈ s.entries) (hid : t.lastEntryId = s.lastEntryId) : KeyMoves ops named made s t ev
  | requested (r : R) (hfresh : (ops.fork r).fresh s = true) (hfinal : final (ops.createDump r s) = t) :
      KeyMoves ops named made s t (.createDump r)
  | filed (io : I) (n : Nat) (e : E) (hnew : newId named made s io = some n) (hno : n ∉ s.entries)
      (ht : t.entries = s.entries.insert n (some e)) (hid : t.lastEntryId = s.lastEntryId) :
      KeyMoves ops named made s t (.handle io)
  | failed (pid n : Nat) (hfail : failure s pid = some n) (hno : n ∉ s.entries)
      (ht : t.entries = s.entries.insert n none) (hid : t.lastEntryId = s.lastEntryId) :
      KeyMoves ops named made s t (.childNotification pid)

section Step

variable {s t : Daemon E X C}

theorem handle_keyMoves (hops : Sound ops named) (hmakes : Makes ops named made) {io : I}
    (h : step ops s (.handle io) = some t) : KeyMoves ops named made s t (.handle io) := by
  have hid := (step_other hops (by simp) h).1
  obtain ⟨path, mask, rest, htodo, ⟨rfl, hdir, u, hc⟩ | ⟨-, hdir, rfl⟩ | ⟨rfl, -, -, rfl⟩ | ⟨hmask, -, rfl⟩⟩ :=
    step_handle h
  · have hkeys : ∀ k : Nat, k ∈ t.entries ↔ k ∈ (unwatched s rest path.dropLast).entries ∨
        (named path = some k ∧ made io = true) := createEntry_keys hops hmakes hc
    by_cases hnew : ∃ n, named path = some n ∧ made io = true ∧ n ∉ s.entries
    · obtain ⟨n, hnamed, hmade, hno⟩ := hnew
      have hid' : newId named made s io = some n := by simp [newId, htodo, hdir, hmade, hnamed, hno]
      rcases (hops.createEntry _ _ _ _ _ hc).entries with ⟨heq, -⟩ | ⟨n', e, hnamed', heq, -⟩
      · have hmem := (hkeys n).mpr (.inr ⟨hnamed, hmade⟩)
        rw [heq] at hmem
        exact absurd hmem hno
      · obtain rfl := Option.some.inj (hnamed.symm.trans hnamed')
        exact .filed io n e hid' hno heq hid
    · refine .fewer _ (by simp) (fun io' hio => ?_) (by simp) (fun k hk => ?_) hid
      · cases hio
        simp only [newId, htodo, hdir]
        split
        · rename_i hmade
          exact Option.filter_eq_none_iff.mpr fun n hn => by simpa using fun hno => hnew ⟨n, hn, hmade.2.2, hno⟩
        · rfl
      · rcases (hkeys k).mp hk with hk | ⟨hnamed, hmade⟩
        · exact hk
        · by_contra hno
          exact hnew ⟨k, hnamed, hmade, hno⟩
  · exact .fewer _ (by simp) (fun io' _ => by simp [newId, htodo, hdir]) (by simp) (fun _ hk => hk) rfl
  · exact .fewer _ (by simp) (fun io' _ => by simp [newId, htodo, IN_CREATE, IN_CLOSE_WRITE]) (by simp)
      (fun _ hk => hk) rfl
  · exact .fewer _ (by simp) (fun io' _ => by simp [newId, htodo, hmask]) (by simp) (fun _ hk => hk) rfl

theorem notified_keyMoves (hops : Sound ops named) {pid : Nat} (h : step ops s (.childNotification pid) = some t) :
    KeyMoves ops named made s t (.childNotification pid) := by
  have hid := (step_other hops (by simp) h).1
  obtain ⟨-, c, p, status, hchild, hp, hstatus, rfl⟩ := step_childNotification h
  have hfailure := failure_eq hchild hp hstatus
  by_cases hnew : status ≠ 0 ∧ c.entryId ∉ s.entries
  · rw [if_neg hnew.1] at hfailure
    refine .failed pid c.entryId hfailure hnew.2 (ExtTreeMap.ext_getElem? fun k => ?_) hid
    rw [reap_entries, ended_get, insert_get]
    simp only [hnew.1, ne_eq, not_false_eq_true, true_and]
    split
    · rename_i hk
      rw [← hk, (not_mem_iff _ _).mp hnew.2]
      rfl
    · rfl
  · refine .fewer _ (by simp) (by simp) (fun pid' hpid n hn => ?_) (fun k hk => ?_) hid
    · cases hpid
      rw [hfailure] at hn
      split at hn
      · cases hn
      · rename_i hstatus
        cases hn
        by_contra hno
        exact hnew ⟨hstatus, hno⟩
    · rw [reap_entries, mem_iff, ended_get] at hk
      split at hk
      · rename_i hfail
        by_contra hno
        exact hnew ⟨hfail.1, hfail.2 ▸ hno⟩
      · exact (mem_iff _ _).mpr hk

theorem step_keyMoves (hops : Sound ops named) (hmakes : Makes ops named made) {ev : Event R I}
    (h : step ops s ev = some t) : KeyMoves ops named made s t ev := by
  cases ev with
  | handle io => exact handle_keyMoves hops hmakes h
  | childNotification pid => exact notified_keyMoves hops h
  | createDump r =>
      obtain ⟨-, hfresh, hrun⟩ := step_createDump h
      exact .requested r hfresh (final_of_reply (reply_eq_some.mpr hrun))
  | _ =>
      refine .fewer _ (by simp) (by simp) (by simp) (fun k hk => ?_) (step_other hops (by simp) h).1
      obtain ⟨v, hv⟩ := (mem_iff _ _).mp hk
      cases step_slot hops h hv with
      | kept _ _ hkept => exact (mem_iff _ _).mpr ⟨v, hkept⟩

end Step

omit [DumpEntry E] in
theorem constructed_keys {id : Nat} {e : E} {construction : Construction} {s t : Daemon E X C} {u : Unit}
    (hno : id ∉ s.entries) (h : (match construction with
      | .done => insertEntry id e
      | .invalidArgument => pure ()
      | .failed => throw .sdBusError : Op E X C Unit) s = .ok u t) :
    id ∈ t.entries ↔ decide (construction = .done) = true := by
  cases construction with
  | done =>
      cases h
      simp [insertIfNew_of_absent ((not_mem_iff _ _).mp hno)]
  | invalidArgument =>
      cases h
      simpa using hno
  | failed => cases h

theorem makes_bmc (cfg : Bmc.Manager.Config) : Makes (Bmc.Manager.bmcOps cfg)
    (fun file => namedId cfg.plat (filename file)) fun io => io.construction = .done := by
  intro io file s u t h n hnamed hno
  obtain ⟨id, timestamp, hparse, rfl⟩ := namedId_eq_some.mp hnamed
  have hnone := (not_mem_iff _ _).mp hno
  change Bmc.Manager.createEntry cfg io file s = .ok u t at h
  cases hc : s.disk.content file with
  | none =>
      rw [Bmc.Steps.createEntry_absent hparse hc] at h
      cases h
  | some c =>
      rw [Bmc.Steps.createEntry_named hparse hc, Bmc.Steps.createOrUpdate_new hc hnone] at h
      exact constructed_keys hno h

theorem makes_system (cfg : System.Manager.Config) : Makes (System.Manager.systemOps cfg)
    (fun file => namedId cfg.plat (filename file)) fun io => io.construction = .done := by
  intro io file s u t h n hnamed hno
  obtain ⟨id, timestamp, hparse, rfl⟩ := namedId_eq_some.mp hnamed
  have hnone := (not_mem_iff _ _).mp hno
  change System.Manager.createEntry cfg io file s = .ok u t at h
  cases hc : s.disk.content file with
  | none =>
      rw [System.Steps.createEntry_absent hparse hc] at h
      cases h
  | some c =>
      rw [System.Steps.createEntry_new hparse hc fun e he => by rw [hnone] at he; cases he] at h
      exact constructed_keys hno h

theorem makes_fdr (cfg : Fdr.Manager.Config) : Makes (Fdr.Manager.fdrOps cfg)
    (fun file => namedId cfg.plat (filename file)) fun io => io.construction = .done := by
  intro io file s u t h n hnamed hno
  obtain ⟨id, timestamp, hparse, rfl⟩ := namedId_eq_some.mp hnamed
  have hnone := (not_mem_iff _ _).mp hno
  change Fdr.Manager.createEntry cfg io file s = .ok u t at h
  cases hc : s.disk.content file with
  | none =>
      rw [Fdr.Steps.createEntry_absent hparse hc] at h
      cases h
  | some c =>
      rw [Fdr.Steps.createEntry_new hparse hc hnone] at h
      exact constructed_keys hno h

theorem makes_faultLog (cfg : FaultLog.Manager.Config) : Makes (FaultLog.Manager.faultLogOps cfg)
    (fun file => namedId cfg.plat (filename file)) fun io => io.construction = .done := by
  intro io file s u t h n hnamed hno
  obtain ⟨id, timestamp, hparse, rfl⟩ := namedId_eq_some.mp hnamed
  have hnone := (not_mem_iff _ _).mp hno
  change FaultLog.Manager.createEntry cfg io file s = .ok u t at h
  rw [FaultLog.Steps.createEntry_new hparse hnone] at h
  obtain ⟨_, s₁, hleft, hsized⟩ := bind_eq_ok.mp h
  obtain ⟨-, rfl⟩ := FaultLog.Steps.throwLeft_ok hleft
  obtain ⟨size, s₂, hsize, hinsert⟩ := bind_eq_ok.mp hsized
  obtain ⟨c, -, -, rfl⟩ := FaultLog.Steps.fileSize_ok hsize
  exact constructed_keys hno hinsert

end DumpCollector.Keys
