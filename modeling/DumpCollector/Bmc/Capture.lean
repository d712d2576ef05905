import DumpCollector.Bmc.Manager
import DumpCollector.Frames

namespace DumpCollector.Bmc.Capture

open Std Lib.Directory Lib.Effects Lib.Maps Entries FileNames Requests State Dispatch Frames
open Bmc.Manager

variable (cfg : Config)

section Keeps

variable {Q : BmcDaemon → BmcDaemon → Prop} [Std.Refl Q] [IsTrans BmcDaemon Q]

theorem keeps_getDirectorySize (dir : Path) : Keeps Q (getDirectorySize dir) :=
  keeps_bind keeps_get fun _ => keeps_bind (keeps_throwIf _ _) fun _ => keeps_pure _

omit [IsTrans BmcDaemon Q] in
theorem keeps_minElement : Keeps Q minElement := by
  intro s
  cases hs : s.entries.minKey? with
  | none =>
      simp only [minElement, get_bind, hs, throw_apply]
      exact refl s
  | some key =>
      simp only [minElement, get_bind, hs, pure_apply]
      exact refl s

theorem keeps_checkRequest (r : Request) : Keeps Q (checkRequest cfg r) := by
  refine keeps_bind (keeps_fromExcept _) fun _ => keeps_bind (keeps_fromExcept _) fun _ => ?_
  refine keeps_bind keeps_get fun _ => keeps_bind (keeps_throwIf _ _) fun _ => ?_
  exact keeps_bind (keeps_fromExcept _) fun _ => keeps_pure _

variable (hQ : ∀ s (k : Nat) (e : BmcEntry), s.entries[k]? = some (some e) → Q s (s.deleteEntry e))
include hQ

theorem rotate_keeps (rounds size : Nat) : Keeps Q (rotate cfg rounds size) := by
  induction rounds generalizing size with
  | zero => exact keeps_bind (keeps_throwIf _ _) fun _ => keeps_pure _
  | succ rounds ih =>
      refine keeps_ite (keeps_pure _) (keeps_bind keeps_minElement fun key => ?_)
      exact keeps_bind (keeps_getDirectorySize _) fun _ => keeps_bind (deleteAt_keeps hQ _) fun _ => ih _

theorem getAllowedSize_keeps : Keeps Q (getAllowedSize cfg) := by
  refine keeps_bind (keeps_getDirectorySize _) fun used => keeps_bind (keeps_bind keeps_get fun s => ?_)
    fun _ => keeps_pure _
  exact keeps_ite (rotate_keeps cfg hQ _ _) (keeps_ite (keeps_throw _) (keeps_pure _))

end Keeps

section CreateDump

def prepare (r : Request) : BmcOp (String × OriginatorTypes × DumpTypes) := do
  let o ← checkRequest cfg r
  let _ ← getAllowedSize cfg
  let _ ← fromExcept (value (dumpTypeToString cfg.tables o.2.2))
  pure o

def starts (r : Request) (s : BmcDaemon) : Option (Nat × DumpTypes) :=
  match prepare cfg r s, r.fork.pid with
  | .ok o _, some pid => some (pid, o.2.2)
  | _, _ => none

def finish (r : Request) (o : String × OriginatorTypes × DumpTypes) (id : Nat) : BmcOp Nat := do
  let e ← fromExcept (construct r.construction
    (create id r.timeStamp 0 none .InProgress o.1 o.2.1 r.entryProcessGroupID))
  insertEntry id e
  whenever (o.2.2 = .USER) (modify fun s => { s with own := ⟨true⟩ })
  pure id

theorem createDump_eq_finish (r : Request) :
    createDump cfg r = prepare cfg r >>= fun o => forkCollector r.fork o.2.2 id >>= finish r o := by
  simp only [createDump, captureDump, prepare, bind_assoc, pure_bind]
  rfl

/-- What a request comes to, by the point at which it stops. -/
inductive Captured (r : Request) (s : BmcDaemon) : EStateM.Result Exn BmcDaemon Nat → Prop
  | refused (e : Exn) (t : BmcDaemon) (hstarts : starts cfg r s = none) (ht : t = final (prepare cfg r s)) :
      Captured r s (.error e t)
  | unregistered (pid : Nat) (type : DumpTypes) (u : BmcDaemon) (hstarts : starts cfg r s = some (pid, type))
      (hu : u = final (prepare cfg r s)) (hregistered : r.fork.registered = false) :
      Captured r s (.error .internalFailure (forked pid type u))
  | unconstructed (e : Exn) (pid : Nat) (type : DumpTypes) (u : BmcDaemon)
      (hstarts : starts cfg r s = some (pid, type)) (hu : u = final (prepare cfg r s))
      (hregistered : r.fork.registered = true) (hconstruction : r.construction ≠ .done) :
      Captured r s (.error e (registered pid type u))
  | inserted (pid : Nat) (type : DumpTypes) (u : BmcDaemon) (originatorId : String) (originatorType : OriginatorTypes)
      (hstarts : starts cfg r s = some (pid, type)) (hu : u = final (prepare cfg r s))
      (hregistered : r.fork.registered = true) (hconstruction : r.construction = .done) :
      Captured r s (.ok (nextEntryId u) { registered pid type u with
        entries := u.entries.insertIfNew (nextEntryId u) (some (create (nextEntryId u) r.timeStamp 0 none .InProgress
          originatorId originatorType r.entryProcessGroupID))
        own := if type = .USER then ⟨true⟩ else u.own })

variable {cfg} {r : Request} {s : BmcDaemon}

theorem finish_done (hconstruction : r.construction = .done) (o : String × OriginatorTypes × DumpTypes) (id : Nat)
    (u : BmcDaemon) : finish r o id u = .ok id { u with
      entries := u.entries.insertIfNew id
        (some (create id r.timeStamp 0 none .InProgress o.1 o.2.1 r.entryProcessGroupID))
      own := if o.2.2 = .USER then ⟨true⟩ else u.own } := by
  by_cases hu : o.2.2 = .USER
  · simp only [finish, hconstruction, construct, fromExcept, pure_bind, insertEntry, modify_bind, whenever, hu,
      decide_true, if_true]
    rfl
  · simp only [finish, hconstruction, construct, fromExcept, pure_bind, insertEntry, modify_bind, whenever, hu,
      decide_false, Bool.false_eq_true, if_false]
    rfl

theorem finish_failed (hconstruction : r.construction ≠ .done) (o : String × OriginatorTypes × DumpTypes) (id : Nat)
    (u : BmcDaemon) : ∃ e, finish r o id u = .error e u := by
  cases hc : r.construction with
  | done => exact absurd hc hconstruction
  | invalidArgument => exact ⟨.internalFailure, by simp only [finish, hc, construct, fromExcept, throw_bind_apply]⟩
  | failed => exact ⟨.sdBusError, by simp only [finish, hc, construct, fromExcept, throw_bind_apply]⟩

variable (cfg) in
theorem createDump_captured (r : Request) (s : BmcDaemon) : Captured cfg r s (createDump cfg r s) := by
  rw [createDump_eq_finish]
  cases hprepare : prepare cfg r s with
  | error e u =>
      rw [bind_of_error hprepare]
      exact .refused e u (by simp only [starts, hprepare]) (by rw [hprepare, final_error])
  | ok o u =>
      have hfinal : u = final (prepare cfg r s) := by rw [hprepare, final_ok]
      rw [bind_of_ok hprepare]
      rcases forkCollector_cases r.fork o.2.2 id u with
        ⟨hpid, h⟩ | ⟨pid, hpid, hregistered, h⟩ | ⟨pid, hpid, hregistered, h⟩
      · rw [bind_of_error h]
        exact .refused _ u (by simp only [starts, hprepare, hpid]) hfinal
      · rw [bind_of_error h]
        exact .unregistered pid o.2.2 u (by simp only [starts, hprepare, hpid]) hfinal hregistered
      · have hstarts : starts cfg r s = some (pid, o.2.2) := by simp only [starts, hprepare, hpid]
        rw [bind_of_ok h]
        by_cases hconstruction : r.construction = .done
        · rw [finish_done hconstruction]
          exact .inserted pid o.2.2 u o.1 o.2.1 hstarts hfinal hregistered hconstruction
        · obtain ⟨e, he⟩ := finish_failed hconstruction o (nextEntryId u) (registered pid o.2.2 u)
          rw [he]
          exact .unconstructed e pid o.2.2 u hstarts hfinal hregistered hconstruction

theorem prepare_keeps {Q : BmcDaemon → BmcDaemon → Prop} [Std.Refl Q] [IsTrans BmcDaemon Q]
    (hQ : ∀ s (k : Nat) (e : BmcEntry), s.entries[k]? = some (some e) → Q s (s.deleteEntry e)) (r : Request) :
    Keeps Q (prepare cfg r) :=
  keeps_bind (keeps_checkRequest cfg r) fun _ => keeps_bind (getAllowedSize_keeps cfg hQ) fun _ =>
    keeps_bind (keeps_fromExcept _) fun _ => keeps_pure _

variable (cfg) in
theorem trimmed_prepare (r : Request) (s : BmcDaemon) : Trimmed s (final (prepare cfg r s)) :=
  prepare_keeps (fun s _ e _ => trimmed_deleteEntry s e) r s

variable (cfg) in
theorem sameOwn_prepare (r : Request) (s : BmcDaemon) : (final (prepare cfg r s)).own = s.own :=
  prepare_keeps (fun s _ e _ => sameOwn_deleteEntry s e) r s

theorem checkRequest_ok {o : String × OriginatorTypes × DumpTypes} {t : BmcDaemon}
    (h : checkRequest cfg r s = .ok o t) : t = s ∧ (s.own.fUserDumpInProgress && o.2.2 = .USER) = false := by
  rw [checkRequest] at h
  obtain ⟨originator, s₁, h₁, hk₁⟩ := bind_eq_ok.mp h
  obtain ⟨-, rfl⟩ := fromExcept_eq_ok.mp h₁
  obtain ⟨type, s₂, h₂, hk₂⟩ := bind_eq_ok.mp hk₁
  obtain ⟨-, rfl⟩ := fromExcept_eq_ok.mp h₂
  rw [get_bind] at hk₂
  obtain ⟨u, s₃, h₃, hk₃⟩ := bind_eq_ok.mp hk₂
  rw [throwIf] at h₃
  split at h₃
  · cases h₃
  · rename_i hflag
    cases h₃
    obtain ⟨_, s₄, h₄, hk₄⟩ := bind_eq_ok.mp hk₃
    obtain ⟨-, rfl⟩ := fromExcept_eq_ok.mp h₄
    cases hk₄
    exact ⟨rfl, Bool.eq_false_iff.mpr hflag⟩

theorem starts_eq_some {pid : Nat} {type : DumpTypes} : starts cfg r s = some (pid, type) ↔
    r.fork.pid = some pid ∧ ∃ o u, prepare cfg r s = .ok o u ∧ o.2.2 = type := by
  rw [starts]
  cases prepare cfg r s with
  | error e u => simp
  | ok o u => cases r.fork.pid with
    | none => simp
    | some pid' => simp [and_comm]

theorem not_inProgress_of_starts {pid : Nat} (h : starts cfg r s = some (pid, .USER)) :
    s.own.fUserDumpInProgress = false := by
  obtain ⟨-, o, u, hprepare, htype⟩ := starts_eq_some.mp h
  obtain ⟨o', s', hcheck, hrest⟩ := bind_eq_ok.mp hprepare
  obtain ⟨_, s₁, -, hrest⟩ := bind_eq_ok.mp hrest
  obtain ⟨_, s₂, -, hrest⟩ := bind_eq_ok.mp hrest
  cases hrest
  simpa [htype] using (checkRequest_ok hcheck).2

end CreateDump

end DumpCollector.Bmc.Capture
