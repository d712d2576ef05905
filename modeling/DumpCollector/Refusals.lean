import DumpCollector.FaultLog.Steps
import DumpCollector.Fdr.Steps
import DumpCollector.System.Steps

namespace DumpCollector.Refusals

open Std Lib.Directory Lib.Effects Lib.Maps Entries Requests State Dispatch Frames Steps Slots

variable {E X C : Type}

/-- A request that throws has left no trace: the entries, the last id and the files are
as before, and no collector has been started. -/
structure NoTrace (s t : Daemon E X C) : Prop where
  entries : t.entries = s.entries
  lastEntryId : t.lastEntryId = s.lastEntryId
  disk : t.disk = s.disk
  procs : t.procs = s.procs

structure Lost (s t : Daemon E X C) : Prop where
  gone : ∃ k : Nat, k ∈ s.entries ∧ t.entries[k]? = none
  old : ∀ (k : Nat) (v : Option E), t.entries[k]? = some v → s.entries[k]? = some v

def Refuses {α : Type} (x : Except Exn α) : Prop := ∃ e, x = .error e

/-- How a request can throw: after the retention has deleted something, at a check or at
the fork without a process, or when the collector runs already. -/
inductive Throws (f : Fork) (retains refused : Daemon E X C → Prop) (s t : Daemon E X C) : Prop
  | lost (hretains : ¬ retains s) (hlost : Lost s t)
  | refused (hretains : retains s) (hrefused : refused s) (htrace : NoTrace s t)
  | unforked (hretains : retains s) (hpid : f.pid = none) (htrace : NoTrace s t)
  | forked (hretains : retains s) (hrefused : ¬ refused s) (pid : Nat) (p : Process C) (hpid : f.pid = some pid)
      (hprocs : t.procs = s.procs.insert pid p) (hentries : t.entries = s.entries)

variable {f : Fork} {retains refused : Daemon E X C → Prop} {s t u : Daemon E X C}

theorem Lost.trace (h : Lost s t) : ¬ NoTrace s t := by
  intro htrace
  obtain ⟨k, hk, hnone⟩ := h.gone
  obtain ⟨v, hv⟩ := (mem_iff _ _).mp hk
  rw [htrace.entries, hv] at hnone
  cases hnone

theorem Throws.old (h : Throws f retains refused s t) (k : Nat) (v : Option E) (hv : t.entries[k]? = some v) :
    s.entries[k]? = some v := by
  cases h with
  | lost _ hlost => exact hlost.old k v hv
  | refused _ _ htrace => rwa [htrace.entries] at hv
  | unforked _ _ htrace => rwa [htrace.entries] at hv
  | forked _ _ _ _ _ _ hentries => rwa [hentries] at hv

theorem Throws.noTrace_iff (h : Throws f retains refused s t) (hfresh : f.fresh s = true) :
    NoTrace s t ↔ retains s ∧ (refused s ∨ f.pid = none) := by
  cases h with
  | lost hretains hlost => exact ⟨fun htrace => absurd htrace hlost.trace, fun h => absurd h.1 hretains⟩
  | refused hretains hrefused htrace => exact ⟨fun _ => ⟨hretains, .inl hrefused⟩, fun _ => htrace⟩
  | unforked hretains hpid htrace => exact ⟨fun _ => ⟨hretains, .inr hpid⟩, fun _ => htrace⟩
  | forked hretains hrefused pid p hpid hprocs hentries =>
      constructor
      · intro htrace
        have hget : s.procs[pid]? = some p := by rw [← htrace.procs, hprocs, insert_get, if_pos rfl]
        have hmem : pid ∈ s.procs := (mem_iff _ _).mpr ⟨p, hget⟩
        have hcontains : s.procs.contains pid = true := ExtTreeMap.contains_iff_mem.mpr hmem
        simp [Fork.fresh, hpid, hcontains] at hfresh
      · rintro ⟨-, h | h⟩
        · exact absurd h hrefused
        · rw [hpid] at h
          cases h

theorem Lost.trans (h : Lost s u)
    (k : ∀ (key : Nat) (v : Option E), t.entries[key]? = some v → u.entries[key]? = some v) :
    Lost s t := by
  obtain ⟨key, hkey, hnone⟩ := h.gone
  refine ⟨⟨key, hkey, ?_⟩, fun key v hv => h.old key v (k key v hv)⟩
  cases ht : t.entries[key]? with
  | none => rfl
  | some v =>
      rw [k key v ht] at hnone
      cases hnone

theorem throws_bind {α : Type} {e : Exn} {retention : Op E X C Unit} {body : Op E X C α} {below : Daemon E X C → Prop}
    (hbelow : below s → retention s = .ok () s) (habove : ¬ below s → ∀ u, retention s = .ok () u → Lost s u)
    (herror : ∀ e u, retention s = .error e u → e = .nullDereference)
    (hbody : ∀ u, retention s = .ok () u → body u = .error e t → Throws f retains refused u t)
    (h : (retention >>= fun _ => body) s = .error e t) (hnull : e ≠ .nullDereference) :
    Throws f (fun s => below s ∧ retains s) refused s t := by
  rcases bind_eq_error.mp h with hret | ⟨_, u, hret, hrest⟩
  · exact absurd (herror e t hret) hnull
  · have hthrows := hbody u hret hrest
    by_cases hb : below s
    · rw [hbelow hb] at hret
      cases hret
      cases hthrows with
      | lost hr hlost => exact .lost (fun h => hr h.2) hlost
      | refused hr hrefused htrace => exact .refused ⟨hb, hr⟩ hrefused htrace
      | unforked hr hpid htrace => exact .unforked ⟨hb, hr⟩ hpid htrace
      | forked hr hrefused pid p hpid hprocs hentries => exact .forked ⟨hb, hr⟩ hrefused pid p hpid hprocs hentries
    · exact .lost (fun h => hb h.1) ((habove hb u hret).trans hthrows.old)

variable [DumpEntry E]

theorem lost_of_deleteEach {keys : List Nat} {v : Unit} (hs : Keyed s) (h : deleteEach keys s = .ok v t) {k : Nat}
    (hk : k ∈ keys) (hmem : k ∈ s.entries) : Lost s t :=
  ⟨⟨k, hmem, deleteEach_erased hs h hk⟩, ((keeps_deleteEach keys).ok h).entries⟩

def BelowLimit (limit : Nat) (s : Daemon E X C) : Prop := limit = 0 ∨ s.entries.size < limit

theorem lost_of_limit {limit : Nat} {v : Unit} (hs : Keyed s) (hlimit : ¬ BelowLimit limit s)
    (h : limitDumpEntries limit s = .ok v t) : Lost s t := by
  rw [limitDumpEntries_above hlimit] at h
  have hsize : limit ≠ 0 ∧ limit ≤ s.entries.size := by
    rw [BelowLimit] at hlimit
    omega
  have hlength : s.entries.keys.length = s.entries.size := ExtTreeMap.length_keys
  cases hkeys : s.entries.keys with
  | nil =>
      rw [hkeys, List.length_nil] at hlength
      omega
  | cons k keys =>
      have hpos : s.entries.size - (limit - 1) ≠ 0 := by omega
      obtain ⟨n, hn⟩ := Nat.exists_eq_succ_of_ne_zero hpos
      refine lost_of_deleteEach hs h (k := k) ?_ ?_
      · rw [hkeys, hn]
        exact List.mem_cons_self
      · exact ExtTreeMap.mem_keys.mp (hkeys ▸ List.mem_cons_self)

theorem limitDumpEntries_error {limit : Nat} {e : Exn} (h : limitDumpEntries limit s = .error e t) :
    e = .nullDereference := by
  by_cases hlimit : limit = 0 ∨ s.entries.size < limit
  · rw [limitDumpEntries_below hlimit] at h
    cases h
  · rw [limitDumpEntries_above hlimit] at h
    exact deleteEach_error h

omit [DumpEntry E] in
theorem fork_error {kind : C} {unregistered : X → X} {mk : Nat → Except Exn E} {e : Exn} {α : Type}
    {k : Nat → Op E X C α} (hk : ∀ id s u, k id s ≠ .error e u)
    (h : (forkCollector f kind unregistered >>= fun id =>
      fromExcept (mk id) >>= fun entry => insertEntry id entry >>= fun _ => k id) s = .error e t) :
    (f.pid = none ∧ t = s) ∨
      ∃ pid p, f.pid = some pid ∧ t.procs = s.procs.insert pid p ∧ t.entries = s.entries := by
  rcases forkCollector_cases f kind unregistered s with ⟨hpid, hf⟩ | ⟨pid, hpid, -, hf⟩ | ⟨pid, hpid, -, hf⟩
  · rw [bind_of_error hf] at h
    cases h
    exact .inl ⟨hpid, rfl⟩
  · rw [bind_of_error hf] at h
    cases h
    exact .inr ⟨pid, _, hpid, rfl, rfl⟩
  · rw [bind_of_ok hf] at h
    cases hmk : mk (nextEntryId s) with
    | error exn =>
        rw [hmk] at h
        cases h
        exact .inr ⟨pid, _, hpid, rfl, rfl⟩
    | ok entry =>
        rw [hmk] at h
        exact absurd h (hk _ _ t)

omit [DumpEntry E] in
theorem whenever_modifyOwn_bind (c : Bool) (g : X → X) {α : Type} (k : Unit → Op E X C α) (s : Daemon E X C) :
    ∃ own, (whenever c (modifyOwn g) >>= k) s = k () { s with own := own } := by
  cases c with
  | false => exact ⟨s.own, rfl⟩
  | true => exact ⟨g s.own, rfl⟩

theorem limited_throws {limit : Nat} {α : Type} {body : Op E X C α} {e : Exn} (hs : Keyed s)
    (hbody : ∀ u, Keyed u → body u = .error e t → Throws f retains refused u t)
    (h : (limitDumpEntries limit >>= fun _ => body) s = .error e t) (hnull : e ≠ .nullDereference) :
    Throws f (fun s => BelowLimit limit s ∧ retains s) refused s t :=
  throws_bind limitDumpEntries_below (fun hlimit _ hu => lost_of_limit hs hlimit hu)
    (fun _ _ he => limitDumpEntries_error he)
    (fun u hu => hbody u ((slotsFrom_trimmed ((keeps_limitDumpEntries limit).ok hu)).keyed hs)) h hnull

section System

open System.Manager

def SystemRefuses (cfg : System.Manager.Config) (r : System.Manager.Request) (s : SystemDaemon) : Prop :=
  Refuses (checkRunning r s.own) ∨ Refuses (checkCapture cfg r s.disk)

theorem system_throws {cfg : System.Manager.Config} {r : System.Manager.Request} {s t : SystemDaemon} {e : Exn}
    (hs : Keyed s) (h : System.Manager.createDump cfg r s = .error e t) (hnull : e ≠ .nullDereference) :
    Throws r.fork (fun s => BelowLimit cfg.SYSTEM_DUMP_MAX_LIMIT s ∧ True) (SystemRefuses cfg r) s t := by
  refine limited_throws hs (fun u _ hbody => ?_) h hnull
  rcases fromExcept_bind_eq_error.mp hbody with ⟨hrunning, rfl⟩ | ⟨dumpType, hrunning, hcapture⟩
  · exact .refused trivial (.inl ⟨e, hrunning⟩) ⟨rfl, rfl, rfl, rfl⟩
  · rw [captureDump, bind_assoc] at hcapture
    simp only [bind_assoc] at hcapture
    rcases fromExcept_bind_eq_error.mp hcapture with ⟨hcheck, rfl⟩ | ⟨diagnosticType, hcheck, hfork⟩
    · exact .refused trivial (.inr ⟨e, hcheck⟩) ⟨rfl, rfl, rfl, rfl⟩
    · have hrefused : ¬ SystemRefuses cfg r u := by
        rintro (⟨_, hr⟩ | ⟨_, hr⟩)
        · rw [hrunning] at hr
          cases hr
        · rw [hcheck] at hr
          cases hr
      obtain ⟨own, hown⟩ := whenever_modifyOwn_bind (diagnosticType = "RetLTSSM")
        (setDebugMode true r.retimerWritten) _ u
      rw [hown] at hfork
      rcases fork_error (fun id s u hk => by cases hk) hfork with ⟨hpid, rfl⟩ | ⟨pid, p, hpid, hprocs, hentries⟩
      · exact .unforked trivial hpid ⟨rfl, rfl, rfl, rfl⟩
      · exact .forked trivial hrefused pid p hpid hprocs hentries

end System

section Fdr

open Fdr.Manager

theorem fdr_throws {cfg : Fdr.Manager.Config} {r : Fdr.Manager.Request} {s t : FdrDaemon} {e : Exn}
    (hs : Keyed s) (hcollect : getString (withAction r.params) "Action" = .ok "Collect")
    (h : Fdr.Manager.createDump cfg r s = .error e t) (hnull : e ≠ .nullDereference) :
    Throws r.fork (fun s => BelowLimit cfg.FDR_DUMP_MAX_LIMIT s ∧ True) (fun _ => Refuses (checkTrigger cfg r))
      s t := by
  rcases fromExcept_bind_eq_error.mp h with ⟨haction, -⟩ | ⟨action, haction, h⟩
  · rw [hcollect] at haction
    cases haction
  · rw [hcollect] at haction
    cases haction
    rw [if_neg (by decide)] at h
    rcases bind_eq_error.mp h with h | ⟨id, u, -, hret⟩
    · refine limited_throws hs (fun u _ hbody => ?_) h hnull
      rw [triggerFDRDumpScript, bind_assoc] at hbody
      rcases fromExcept_bind_eq_error.mp hbody with ⟨hcheck, rfl⟩ | ⟨_, hcheck, hfork⟩
      · exact .refused trivial ⟨e, hcheck⟩ ⟨rfl, rfl, rfl, rfl⟩
      · have hrefused : ¬ Refuses (checkTrigger cfg r) := by
          rintro ⟨_, hr⟩
          rw [hcheck] at hr
          cases hr
        rcases fork_error (fun id s u hk => by cases hk) hfork with ⟨hpid, rfl⟩ | ⟨pid, p, hpid, hprocs, hentries⟩
        · exact .unforked trivial hpid ⟨rfl, rfl, rfl, rfl⟩
        · exact .forked trivial hrefused pid p hpid hprocs hentries
    · cases hret

end Fdr

section FaultLog

open FaultLog.Manager

def Roomy (cfg : FaultLog.Manager.Config) (r : FaultLog.Manager.Request) (s : FaultLogDaemon) : Prop :=
  cfg.FAULTLOG_DUMP_MIN_SPACE_REQD ≤ allowedSize cfg s.disk (r.sizeFailed 0) ∨
    cfg.FAULTLOG_DUMP_ROTATION = false ∨ s.entries.isEmpty = true

def FaultDataRefuses (params : DumpCreateParams) : Prop :=
  params["CPER_TYPE"]?.isSome ∧ params["CPER_PATH"]?.isSome ∧
    (Refuses (getString params "CPER_TYPE") ∨ Refuses (getString params "CPER_PATH"))

def FaultLogRefuses (cfg : FaultLog.Manager.Config) (r : FaultLog.Manager.Request) (s : FaultLogDaemon) : Prop :=
  (allowedSize cfg s.disk (r.sizeFailed 0) < cfg.FAULTLOG_DUMP_MIN_SPACE_REQD ∧
    (cfg.FAULTLOG_DUMP_ROTATION = false ∨ allowedSize cfg s.disk (r.sizeFailed 1) = 0)) ∨
  FaultDataRefuses r.params

theorem rotate_error {cfg : FaultLog.Manager.Config} {failed : Nat → Bool} {keys : List Nat} {calls : Nat}
    {s t : FaultLogDaemon} {e : Exn} (h : rotate cfg failed keys calls s = .error e t) : e = .nullDereference := by
  induction keys generalizing s calls with
  | nil => cases h
  | cons key keys ih =>
      rcases bind_eq_error.mp h with hat | ⟨_, u, -, hrest⟩
      · by_cases hentry : ∃ entry, s.entries[key]? = some (some entry)
        · obtain ⟨entry, he⟩ := hentry
          rw [deleteAt_some he] at hat
          cases hat
        · rw [deleteAt_empty (fun entry he => hentry ⟨entry, he⟩)] at hat
          cases hat
          rfl
      · rcases bind_eq_error.mp hrest with hsize | ⟨size, v, -, hloop⟩
        · cases hsize
        · by_cases henough : cfg.FAULTLOG_DUMP_MIN_SPACE_REQD ≤ size
          · rw [if_pos henough] at hloop
            cases hloop
          · rw [if_neg henough] at hloop
            exact ih hloop

theorem rotate_lost {cfg : FaultLog.Manager.Config} {failed : Nat → Bool} {key : Nat} {keys : List Nat}
    {calls calls' : Nat} {s t : FaultLogDaemon} (hs : Keyed s) (hmem : key ∈ s.entries)
    (h : rotate cfg failed (key :: keys) calls s = .ok calls' t) : Lost s t := by
  obtain ⟨_, u, hat, hrest⟩ := bind_eq_ok.mp h
  have hkeep : Keeps Trimmed (getAllowedSize cfg (failed calls) >>= fun size =>
      if cfg.FAULTLOG_DUMP_MIN_SPACE_REQD ≤ size then pure (calls + 1)
      else rotate cfg failed keys (calls + 1) : FaultLogOp Nat) :=
    keeps_bind (keeps_bind keeps_get fun _ => keeps_pure _) fun _ =>
      keeps_ite (keeps_pure _) (FaultLog.Steps.keeps_rotate cfg failed keys _)
  have hfirst : deleteEach [key] s = .ok () u := (bind_of_ok hat _).trans rfl
  exact (lost_of_deleteEach hs hfirst List.mem_cons_self hmem).trans (hkeep.ok hrest).entries

theorem limitTotalDumpSize_cases (cfg : FaultLog.Manager.Config) (r : FaultLog.Manager.Request) {s : FaultLogDaemon}
    (hs : Keyed s) :
    (Roomy cfg r s ∧ (allowedSize cfg s.disk (r.sizeFailed 0) < cfg.FAULTLOG_DUMP_MIN_SPACE_REQD ∧
        (cfg.FAULTLOG_DUMP_ROTATION = false ∨ allowedSize cfg s.disk (r.sizeFailed 1) = 0)) ∧
      limitTotalDumpSize cfg r.sizeFailed s = .error (.quotaExceeded "Not enough space: Delete old dumps") s) ∨
    (Roomy cfg r s ∧ ¬ (allowedSize cfg s.disk (r.sizeFailed 0) < cfg.FAULTLOG_DUMP_MIN_SPACE_REQD ∧
        (cfg.FAULTLOG_DUMP_ROTATION = false ∨ allowedSize cfg s.disk (r.sizeFailed 1) = 0)) ∧
      limitTotalDumpSize cfg r.sizeFailed s = .ok () s) ∨
    (¬ Roomy cfg r s ∧ ((∃ t, limitTotalDumpSize cfg r.sizeFailed s = .error .nullDereference t) ∨
      ∀ e t, (limitTotalDumpSize cfg r.sizeFailed s = .error e t ∨ limitTotalDumpSize cfg r.sizeFailed s = .ok () t) →
        Lost s t)) := by
  by_cases henough : cfg.FAULTLOG_DUMP_MIN_SPACE_REQD ≤ allowedSize cfg s.disk (r.sizeFailed 0)
  · refine .inr (.inl ⟨.inl henough, fun h => by omega, ?_⟩)
    simp only [limitTotalDumpSize, get_bind, henough, if_true, pure_apply]
  · have hless : allowedSize cfg s.disk (r.sizeFailed 0) < cfg.FAULTLOG_DUMP_MIN_SPACE_REQD := by omega
    cases hrot : cfg.FAULTLOG_DUMP_ROTATION with
    | false =>
        refine .inl ⟨.inr (.inl hrot), ⟨hless, .inl rfl⟩, ?_⟩
        simp only [limitTotalDumpSize, get_bind, henough, hrot, if_false, Bool.false_eq_true, throw_apply]
    | true =>
        have hrun : limitTotalDumpSize cfg r.sizeFailed s = (rotate cfg r.sizeFailed s.entries.keys 1 >>= fun calls =>
            get >>= fun s => throwIf (s.entries.isEmpty && allowedSize cfg s.disk (r.sizeFailed calls) = 0)
              (.quotaExceeded "Not enough space: Delete old dumps")) s := by
          simp only [limitTotalDumpSize, get_bind, henough, hrot, if_false, if_true]
        rw [hrun]
        cases hkeys : s.entries.keys with
        | nil =>
            have hempty : s.entries.isEmpty = true := by
              rw [← ExtTreeMap.isEmpty_keys, hkeys]
              rfl
            have hroomy : Roomy cfg r s := .inr (.inr hempty)
            by_cases hzero : allowedSize cfg s.disk (r.sizeFailed 1) = 0
            · refine .inl ⟨hroomy, ⟨hless, .inr hzero⟩, ?_⟩
              simp [rotate, throwIf, hempty, hzero]
            · refine .inr (.inl ⟨hroomy, by simp [hzero], ?_⟩)
              simp [rotate, throwIf, hzero]
        | cons key keys =>
            have hempty : s.entries.isEmpty = false := by
              rw [← ExtTreeMap.isEmpty_keys, hkeys]
              rfl
            have hmem : key ∈ s.entries := ExtTreeMap.mem_keys.mp (hkeys ▸ List.mem_cons_self)
            refine .inr (.inr ⟨?_, ?_⟩)
            · rintro (h | h | h)
              · exact henough h
              · rw [hrot] at h
                cases h
              · rw [hempty] at h
                cases h
            · cases hrotate : rotate cfg r.sizeFailed (key :: keys) 1 s with
              | error e t =>
                  obtain rfl := rotate_error hrotate
                  exact .inl ⟨t, bind_of_error hrotate _⟩
              | ok calls u =>
                  refine .inr fun e t h => ?_
                  have hlost := rotate_lost hs hmem hrotate
                  rw [bind_of_ok hrotate, get_bind] at h
                  cases hthrow : (u.entries.isEmpty && allowedSize cfg u.disk (r.sizeFailed calls) = 0 : Bool) <;>
                    rw [hthrow] at h <;> rcases h with h | h <;> cases h <;> exact hlost

theorem faultData_cases (cfg : FaultLog.Manager.Config) (params : DumpCreateParams) (s : FaultLogDaemon) :
    (FaultDataRefuses params ∧ ∃ e own, faultData cfg params s = .error e { s with own := own }) ∨
    (¬ FaultDataRefuses params ∧ ∃ data own, faultData cfg params s = .ok data { s with own := own }) := by
  cases htype : params["CPER_TYPE"]? with
  | none => exact .inr ⟨fun h => by simp [FaultDataRefuses, htype] at h, (0, "", ""), s.own, by simp [faultData, htype]⟩
  | some type =>
      cases hpath : params["CPER_PATH"]? with
      | none =>
          refine .inr ⟨fun h => by simp [FaultDataRefuses, hpath] at h, (0, "", ""), s.own, ?_⟩
          simp [faultData, htype, hpath]
      | some path =>
          cases hname : getString params "CPER_TYPE" with
          | error exn =>
              refine .inl ⟨⟨by simp [htype], by simp [hpath], .inl ⟨exn, hname⟩⟩, exn, s.own, ?_⟩
              simp [faultData, htype, hpath, hname, fromExcept]
          | ok additionalTypeName =>
              cases hfile : getString params "CPER_PATH" with
              | error exn =>
                  refine .inl ⟨⟨by simp [htype], by simp [hpath], .inr ⟨exn, hfile⟩⟩, exn,
                    ⟨FileNames.uint32 (s.own.lastCperId + 1)⟩, ?_⟩
                  simp only [faultData, htype, hpath, hname, hfile, fromExcept, pure_bind, modify_bind, get_bind,
                    throw_bind_apply]
              | ok file =>
                  refine .inr ⟨?_, (cfg.CPER, additionalTypeName, toString (FileNames.uint32 (s.own.lastCperId + 1))),
                    ⟨FileNames.uint32 (s.own.lastCperId + 1)⟩, ?_⟩
                  · rintro ⟨-, -, ⟨_, h⟩ | ⟨_, h⟩⟩
                    · rw [hname] at h
                      cases h
                    · rw [hfile] at h
                      cases h
                  · simp only [faultData, htype, hpath, hname, hfile, fromExcept, pure_bind, modify_bind, get_bind,
                      pure_apply]

theorem capture_throws {cfg : FaultLog.Manager.Config} {r : FaultLog.Manager.Request} {s t : FaultLogDaemon} {e : Exn}
    (h : (captureDump cfg r >>= fun info => fromExcept (construct cfg r info) >>= fun entry =>
      insertEntry info.id entry >>= fun _ => pure info.id) s = .error e t) :
    Throws r.fork (fun _ => True) (fun _ => FaultDataRefuses r.params) s t := by
  simp only [captureDump, bind_assoc, pure_bind] at h
  rcases faultData_cases cfg r.params s with
    ⟨hdata, exn, own, hrun⟩ | ⟨hdata, data, own, hrun⟩
  · rw [bind_of_error hrun] at h
    cases h
    exact .refused trivial hdata ⟨rfl, rfl, rfl, rfl⟩
  · rw [bind_of_ok hrun] at h
    rcases fork_error (fun id s u hk => by cases hk) h with ⟨hpid, rfl⟩ | ⟨pid, p, hpid, hprocs, hentries⟩
    · exact .unforked trivial hpid ⟨rfl, rfl, rfl, rfl⟩
    · exact .forked trivial hdata pid p hpid hprocs hentries

theorem faultLog_throws {cfg : FaultLog.Manager.Config} {r : FaultLog.Manager.Request} {s t : FaultLogDaemon} {e : Exn}
    (hs : Keyed s) (h : FaultLog.Manager.createDump cfg r s = .error e t) (hnull : e ≠ .nullDereference) :
    Throws r.fork (fun s => BelowLimit cfg.FAULTLOG_DUMP_MAX_LIMIT s ∧ Roomy cfg r s) (FaultLogRefuses cfg r) s t := by
  refine limited_throws hs (fun u hu hbody => ?_) h hnull
  rcases limitTotalDumpSize_cases cfg r hu with
    ⟨hroomy, hquota, hrun⟩ | ⟨hroomy, hquota, hrun⟩ | ⟨hroomy, ⟨v, hrun⟩ | hlost⟩
  · rw [bind_of_error hrun] at hbody
    cases hbody
    exact .refused hroomy (.inl hquota) ⟨rfl, rfl, rfl, rfl⟩
  · rw [bind_of_ok hrun] at hbody
    cases capture_throws hbody with
    | lost hretains => exact absurd trivial hretains
    | refused _ hdata htrace => exact .refused hroomy (.inr hdata) htrace
    | unforked _ hpid htrace => exact .unforked hroomy hpid htrace
    | forked _ hdata pid p hpid hprocs hentries =>
        exact .forked hroomy (fun h => h.elim hquota hdata) pid p hpid hprocs hentries
  · rw [bind_of_error hrun] at hbody
    cases hbody
    exact absurd rfl hnull
  · apply Throws.lost hroomy
    rcases bind_eq_error.mp hbody with hlimit | ⟨_, v, hlimit, hrest⟩
    · exact hlost e t (.inl hlimit)
    · exact (hlost e v (.inr hlimit)).trans (capture_throws hrest).old

end FaultLog

/-- A request that throws leaves no trace exactly if the retention had nothing to delete,
and it was refused by a check or had no process. -/
theorem request_noTrace_iff (system : System.Manager.Config) (fdr : Fdr.Manager.Config)
    (faultLog : FaultLog.Manager.Config) :
    (∀ r s e t, Keyed s → r.fork.fresh s = true → System.Manager.createDump system r s = .error e t →
      e ≠ .nullDereference → (NoTrace s t ↔
        BelowLimit system.SYSTEM_DUMP_MAX_LIMIT s ∧ (SystemRefuses system r s ∨ r.fork.pid = none))) ∧
    (∀ r s e t, Keyed s → r.fork.fresh s = true →
      getString (Fdr.Manager.withAction r.params) "Action" = .ok "Collect" →
      Fdr.Manager.createDump fdr r s = .error e t → e ≠ .nullDereference → (NoTrace s t ↔
        BelowLimit fdr.FDR_DUMP_MAX_LIMIT s ∧ (Refuses (Fdr.Manager.checkTrigger fdr r) ∨ r.fork.pid = none))) ∧
    (∀ r s e t, Keyed s → r.fork.fresh s = true → FaultLog.Manager.createDump faultLog r s = .error e t →
      e ≠ .nullDereference → (NoTrace s t ↔ (BelowLimit faultLog.FAULTLOG_DUMP_MAX_LIMIT s ∧ Roomy faultLog r s) ∧
        (FaultLogRefuses faultLog r s ∨ r.fork.pid = none))) := by
  refine ⟨fun r s e t hs hfresh h hnull => ?_, fun r s e t hs hfresh hcollect h hnull => ?_,
    fun r s e t hs hfresh h hnull => ?_⟩
  · rw [(system_throws hs h hnull).noTrace_iff hfresh, and_true]
  · rw [(fdr_throws hs hcollect h hnull).noTrace_iff hfresh, and_true]
  · exact (faultLog_throws hs h hnull).noTrace_iff hfresh

section Requests

open System.Manager

def oneDump : System.Manager.Config := { defaultConfig with SYSTEM_DUMP_MAX_LIMIT := 1 }

def emptySystem : SystemDaemon := bare ⟨∅, ⟨false, false⟩⟩ .root

theorem refused_request_deletes_dump : ∃ s t, Started oneDump emptySystem ∧
    step (systemOps oneDump) emptySystem (.createDump (diagnosticRequest "FPGA" 7)) = some s ∧
    System.Manager.createDump oneDump (diagnosticRequest "bogus" 8) s =
      .error (.invalidArgument "DiagnosticType" "bogus") t ∧ ¬ NoTrace s t :=
  ⟨_, _, started_root oneDump, rfl, rfl, fun h => absurd (congrArg ExtTreeMap.size h.entries) (by decide)⟩

/-- Below the limit the dump that is there stays. -/
theorem refused_request_leaves_no_trace : ∃ s t, Started defaultConfig emptySystem ∧
    step (systemOps defaultConfig) emptySystem (.createDump (diagnosticRequest "FPGA" 7)) = some s ∧
    s.entries.size = 1 ∧ System.Manager.createDump defaultConfig (diagnosticRequest "bogus" 8) s =
      .error (.invalidArgument "DiagnosticType" "bogus") t ∧ NoTrace s t := by
  obtain ⟨s, hstep, hsize, hfresh, hrefuses, t, herror⟩ : ∃ s,
      step (systemOps defaultConfig) emptySystem (.createDump (diagnosticRequest "FPGA" 7)) = some s ∧
      s.entries.size = 1 ∧ (diagnosticRequest "bogus" 8).fork.fresh s = true ∧
      Refuses (checkCapture defaultConfig (diagnosticRequest "bogus" 8) s.disk) ∧ ∃ t,
      System.Manager.createDump defaultConfig (diagnosticRequest "bogus" 8) s =
        .error (.invalidArgument "DiagnosticType" "bogus") t :=
    ⟨_, rfl, by decide +kernel, by decide +kernel, ⟨_, rfl⟩, _, rfl⟩
  have hkeyed : Keyed s := step_keyed (System.Steps.sound defaultConfig) _ _ _ (idle_bare _ _).keyed hstep
  refine ⟨s, t, started_root defaultConfig, hstep, hsize, herror, ?_⟩
  refine ((request_noTrace_iff defaultConfig Fdr.Manager.defaultConfig FaultLog.Manager.defaultConfig).1
    (diagnosticRequest "bogus" 8) s (.invalidArgument "DiagnosticType" "bogus") t hkeyed hfresh herror
    (by decide)).mpr ⟨.inr ?_, .inl (.inr hrefuses)⟩
  rw [hsize]
  decide

end Requests

end DumpCollector.Refusals
