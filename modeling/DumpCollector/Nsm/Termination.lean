import DumpCollector.Lib.Loops
import DumpCollector.Nsm.Retrieval

namespace DumpCollector.Nsm.Termination

open Lib.Effects Lib.Loops NetDump Retrieval

section Answers

variable (dev : Device)

def reported (dataType : DeviceTypeData) (calls : Nat) : Option OperationStatus :=
  match dev.status calls with
  | .answered response => some (commandStatus dataType response)
  | .failed => some .Error
  | .noBus => none

/-- The request for a record is accepted before the errors allowed to it are used up. -/
inductive Accepts : Nat → Nat → Nat → Prop
  | now {errors calls : Nat} (h : dev.requestRecord calls = .answered ()) : Accepts (errors + 1) calls (calls + 1)
  | again {errors calls after : Nat} (h : dev.requestRecord calls = .failed)
      (k : Accepts errors (calls + 1) after) : Accepts (errors + 1) calls after

/-- The record is ready before the errors and the busy replies allowed to it are used up. -/
inductive Readies (dataType : DeviceTypeData) : Nat → Nat → Nat → Nat → Prop
  | now {errors busy calls : Nat} (h : reported dev dataType calls = some .Success) :
      Readies dataType (errors + 1) (busy + 1) calls (calls + 1)
  | error {errors busy calls after : Nat} (h : reported dev dataType calls = some .Error)
      (k : Readies dataType errors (busy + 1) (calls + 1) after) :
      Readies dataType (errors + 1) (busy + 1) calls after
  | busy {errors busy calls after : Nat} (h : reported dev dataType calls = some .InProgress)
      (k : Readies dataType (errors + 1) busy (calls + 1) after) :
      Readies dataType (errors + 1) (busy + 1) calls after

/-- A device that has answered so many calls gives one more record, and names another one
after it. -/
def Continues (dataType : DeviceTypeData) (calls after : Nat) : Prop :=
  ∃ accepted ready, Accepts dev MAX_ERROR_COUNT calls accepted ∧
    Readies dev dataType MAX_ERROR_COUNT MAX_IN_PROGRESS_COUNT accepted ready ∧
    (∃ reads, dev.fd ready = .answered reads) ∧
    (∃ record, record ≠ 0 ∧ dev.nextRecordHandle (ready + 1) = .answered record) ∧ after = ready + 2

def Endless (dataType : DeviceTypeData) (calls : Nat) : Prop :=
  ∃ f : Nat → Nat, f 0 = calls ∧ ∀ k, Continues dev dataType (f k) (f (k + 1))

end Answers

section Calls

variable {α : Type} {answer : Nat → Reply α} {exchange : Option α → Exchange} {s : Session}

theorem call_answered {a : α} (h : answer s.history.length = .answered a) :
    call answer exchange s = .ok (some a) { s with history := s.history ++ [exchange (some a)] } := by
  rw [call]
  rw [get_bind, h]
  rfl

theorem call_failed (h : answer s.history.length = .failed) :
    call answer exchange s = .ok none { s with history := s.history ++ [exchange none] } := by
  rw [call]
  rw [get_bind, h]
  rfl

theorem call_noBus (h : answer s.history.length = .noBus) : call answer exchange s = .error .noBus s := by
  rw [call]
  rw [get_bind, h]
  rfl

theorem within_call (answer : Nat → Reply α) (exchange : Option α → Exchange) :
    Within .unfinished (call answer exchange) := by
  intro s t h
  cases hanswer : answer s.history.length with
  | answered a =>
      rw [call_answered hanswer] at h
      cases h
  | failed =>
      rw [call_failed hanswer] at h
      cases h
  | noBus =>
      rw [call_noBus hanswer] at h
      cases h

end Calls

section Requests

variable {dev : Device} {target : Target} {s : Session}

theorem accepts_answered {errors calls after : Nat} (h : dev.requestRecord calls = .answered ()) :
    Accepts dev (errors + 1) calls after ↔ calls + 1 = after := by
  constructor
  · rintro (_ | ⟨hfailed, _⟩)
    · rfl
    · rw [h] at hfailed
      cases hfailed
  · rintro rfl
    exact .now h

theorem accepts_failed {errors calls after : Nat} (h : dev.requestRecord calls = .failed) :
    Accepts dev (errors + 1) calls after ↔ Accepts dev errors (calls + 1) after := by
  constructor
  · rintro (hanswered | ⟨_, k⟩)
    · rw [h] at hanswered
      cases hanswered
    · exact k
  · exact .again h

theorem not_accepts_noBus {errors calls after : Nat} (h : dev.requestRecord calls = .noBus) :
    ¬ Accepts dev (errors + 1) calls after := by
  rintro (hanswered | ⟨hfailed, _⟩)
  · rw [h] at hanswered
    cases hanswered
  · rw [h] at hfailed
    cases hfailed

theorem requestRecord_iff {record : UInt64} {errors after : Nat} {res : OperationStatus} (hres : res ≠ .Success) :
    (∃ t, requestRecord dev target record errors res s = .ok .Success t ∧ t.history.length = after) ↔
      Accepts dev errors s.history.length after := by
  induction errors generalizing s res with
  | zero =>
      constructor
      · rintro ⟨t, h, _⟩
        cases h
        exact absurd rfl hres
      · intro h
        cases h
  | succ errors ih =>
      cases hanswer : dev.requestRecord s.history.length with
      | answered a =>
          have hsend : sendRequestRecordCommand dev target record s = .ok .Success _ :=
            bind_of_ok (call_answered hanswer) _
          have hdone : requestRecord dev target record (errors + 1) res s = .ok .Success _ := bind_of_ok hsend _
          rw [accepts_answered hanswer, hdone]
          simp
      | failed =>
          have hsend : sendRequestRecordCommand dev target record s = .ok .Error _ :=
            bind_of_ok (call_failed hanswer) _
          have hrest : requestRecord dev target record (errors + 1) res s =
              requestRecord dev target record errors .Error _ := bind_of_ok hsend _
          rw [accepts_failed hanswer, hrest, ih (by decide)]
          simp
      | noBus =>
          have hsend : sendRequestRecordCommand dev target record s = .error .noBus s :=
            bind_of_error (call_noBus hanswer) _
          have hstop : requestRecord dev target record (errors + 1) res s = .error .noBus s := bind_of_error hsend _
          rw [hstop]
          simp [not_accepts_noBus hanswer]

theorem within_requestRecord (record : UInt64) (errors : Nat) (res : OperationStatus) :
    Within .unfinished (requestRecord dev target record errors res) := by
  induction errors generalizing res with
  | zero => exact within_pure res
  | succ errors ih =>
      have hsend : Within .unfinished (sendRequestRecordCommand dev target record) :=
        within_bind (within_call _ _) fun _ => within_pure _
      exact within_bind hsend fun res => within_ite (within_pure res) (ih res)

end Requests

section Waits

variable {dev : Device} {target : Target} {s : Session}

theorem getRequestRecordCommandStatus_cases (dev : Device) (target : Target) (s : Session) :
    (∃ res t, reported dev target.dataType s.history.length = some res ∧ t.history.length = s.history.length + 1 ∧
      getRequestRecordCommandStatus dev target s = .ok res t) ∨
    (reported dev target.dataType s.history.length = none ∧
      getRequestRecordCommandStatus dev target s = .error .noBus s) := by
  unfold reported
  cases hanswer : dev.status s.history.length with
  | answered response =>
      refine .inl ⟨commandStatus target.dataType response, _, rfl, ?_, bind_of_ok (call_answered hanswer) _⟩
      simp
  | failed =>
      refine .inl ⟨.Error, _, rfl, ?_, bind_of_ok (call_failed hanswer) _⟩
      simp
  | noBus => exact .inr ⟨rfl, bind_of_error (call_noBus hanswer) _⟩

theorem readies_iff {dataType : DeviceTypeData} {errors busy calls after : Nat} :
    Readies dev dataType (errors + 1) (busy + 1) calls after ↔
      match reported dev dataType calls with
      | some .Success => calls + 1 = after
      | some .Error => Readies dev dataType errors (busy + 1) (calls + 1) after
      | some .InProgress => Readies dev dataType (errors + 1) busy (calls + 1) after
      | none => False := by
  constructor
  · rintro (h | ⟨h, k⟩ | ⟨h, k⟩) <;> rw [h]
    · exact k
    · exact k
  · cases h : reported dev dataType calls with
    | none => exact False.elim
    | some res =>
        cases res with
        | Success => exact fun hafter => hafter ▸ .now h
        | Error => exact .error h
        | InProgress => exact .busy h

theorem awaitRecord_stop {errorCounter busyCounter : Nat}
    (h : ¬ (errorCounter < MAX_ERROR_COUNT ∧ busyCounter < MAX_IN_PROGRESS_COUNT)) (rounds : Nat) :
    awaitRecord dev target rounds errorCounter busyCounter = pure (errorCounter, busyCounter) := by
  cases rounds with
  | zero => rfl
  | succ rounds => rw [awaitRecord, if_neg h]

def Awaited (dev : Device) (target : Target) (rounds errorCounter busyCounter after : Nat) (s : Session) : Prop :=
  ∃ counters t, awaitRecord dev target rounds errorCounter busyCounter s = .ok counters t ∧
    counters.1 ≠ MAX_ERROR_COUNT ∧ counters.2 ≠ MAX_IN_PROGRESS_COUNT ∧ t.history.length = after

theorem not_awaited {rounds errorCounter busyCounter after : Nat}
    (h : errorCounter = MAX_ERROR_COUNT ∨ busyCounter = MAX_IN_PROGRESS_COUNT) :
    ¬ Awaited dev target rounds errorCounter busyCounter after s := by
  rintro ⟨counters, t, hawait, herror, hbusy, _⟩
  rw [awaitRecord_stop (by omega)] at hawait
  cases hawait
  exact h.elim herror hbusy

/-- Each round but the last uses one of the errors or one of the busy replies that are still
allowed, so that the loop has as many rounds as it needs. -/
theorem awaited_iff {rounds errors busy errorCounter busyCounter after : Nat} (hrounds : rounds = errors + busy)
    (herror : errors + errorCounter = MAX_ERROR_COUNT) (hbusy : busy + busyCounter = MAX_IN_PROGRESS_COUNT) :
    Awaited dev target rounds errorCounter busyCounter after s ↔
      Readies dev target.dataType errors busy s.history.length after := by
  induction rounds generalizing errors busy errorCounter busyCounter s with
  | zero =>
      refine iff_of_false (not_awaited (by omega)) fun h => ?_
      cases h <;> omega
  | succ rounds ih =>
      cases errors with
      | zero =>
          refine iff_of_false (not_awaited (by omega)) fun h => ?_
          cases h
      | succ errors =>
          cases busy with
          | zero =>
              refine iff_of_false (not_awaited (by omega)) fun h => ?_
              cases h
          | succ busy =>
              have hmore : errorCounter < MAX_ERROR_COUNT ∧ busyCounter < MAX_IN_PROGRESS_COUNT := by omega
              rw [readies_iff, Awaited, awaitRecord, if_pos hmore]
              obtain ⟨res, t, hreported, hlength, hstatus⟩ | ⟨hreported, hstatus⟩ :=
                getRequestRecordCommandStatus_cases dev target s
              · rw [hreported, bind_of_ok hstatus, ← hlength]
                cases res with
                | Success =>
                    constructor
                    · rintro ⟨counters, u, hret, _, _, hafter⟩
                      cases hret
                      exact hafter
                    · intro hafter
                      exact ⟨_, t, rfl, by omega, by omega, hafter⟩
                | InProgress => exact ih (by omega) (by omega) (by omega)
                | Error => exact ih (by omega) (by omega) (by omega)
              · rw [hreported, bind_of_error hstatus]
                simp

theorem within_awaitRecord (rounds errorCounter busyCounter : Nat) :
    Within .unfinished (awaitRecord dev target rounds errorCounter busyCounter) := by
  induction rounds generalizing errorCounter busyCounter with
  | zero => exact within_pure _
  | succ rounds ih =>
      have hstatus : Within .unfinished (getRequestRecordCommandStatus dev target) :=
        within_bind (within_call _ _) fun _ => within_pure _
      refine within_ite (within_bind hstatus fun res => ?_) (within_pure _)
      cases res with
      | Success => exact within_pure _
      | InProgress => exact ih _ _
      | Error => exact ih _ _

end Waits

section Records

variable {dev : Device} {target : Target} {s : Session}

theorem saveRecord_success_iff {after : Nat} :
    (∃ t, saveRecord dev target s = .ok .Success t ∧ t.history.length = after) ↔
      (∃ reads, dev.fd s.history.length = .answered reads) ∧ s.history.length + 1 = after := by
  cases hanswer : dev.fd s.history.length with
  | answered reads =>
      have hsave : saveRecord dev target s = .ok .Success _ := bind_of_ok (call_answered hanswer) _
      rw [hsave]
      simp
  | failed =>
      have hsave : saveRecord dev target s = .ok .Error _ := bind_of_ok (call_failed hanswer) _
      rw [hsave]
      simp
  | noBus =>
      have hsave : saveRecord dev target s = .error .noBus s := bind_of_error (call_noBus hanswer) _
      rw [hsave]
      simp

theorem retrieve_eq_loop (records : Nat) (record : UInt64) :
    retrieve dev target records record = loop .unfinished (nextRecord dev target) records record := by
  induction records generalizing record with
  | zero => rfl
  | succ records ih =>
      rw [retrieve_succ, loop]
      congr 1
      funext out
      cases out with
      | inl res => rfl
      | inr next => exact ih next

theorem within_nextRecord (record : UInt64) : Within .unfinished (nextRecord dev target record) := by
  have hsave : Within .unfinished (saveRequested dev target) := by
    refine within_bind (within_awaitRecord _ _ _) fun counters => ?_
    refine within_ite (within_pure _) (within_ite (within_pure _) (within_bind ?_ fun _ => within_pure _))
    refine within_bind (within_call _ _) fun reply => ?_
    cases reply with
    | none => exact within_pure _
    | some reads => exact within_bind (within_modify _) fun _ => within_pure _
  have hnext : Within .unfinished (getNextRecord dev target) :=
    within_bind (within_call _ _) fun _ => within_pure _
  refine within_bind (within_requestRecord _ _ _) fun res => within_ite (within_pure _) ?_
  refine within_bind hsave fun res => within_ite (within_pure _) ?_
  exact within_bind hnext fun next => within_ite (within_pure _) (within_pure _)

theorem saveRequested_success_iff {after : Nat} :
    (∃ t, saveRequested dev target s = .ok .Success t ∧ t.history.length = after) ↔
      ∃ ready, Readies dev target.dataType MAX_ERROR_COUNT MAX_IN_PROGRESS_COUNT s.history.length ready ∧
        (∃ reads, dev.fd ready = .answered reads) ∧ ready + 1 = after := by
  constructor
  · rintro ⟨t, h, hafter⟩
    obtain ⟨counters, u, hawait, herror, hbusy, hsave⟩ := saveRequested_iff.mp h
    have hready := (awaited_iff rfl (Nat.add_zero _) (Nat.add_zero _)).mp ⟨counters, u, hawait, herror, hbusy, rfl⟩
    exact ⟨_, hready, saveRecord_success_iff.mp ⟨t, hsave, hafter⟩⟩
  · rintro ⟨ready, hready, hfd⟩
    obtain ⟨counters, u, hawait, herror, hbusy, rfl⟩ :=
      (awaited_iff rfl (Nat.add_zero _) (Nat.add_zero _)).mpr hready
    obtain ⟨t, hsave, hafter⟩ := saveRecord_success_iff.mpr hfd
    exact ⟨t, saveRequested_iff.mpr ⟨counters, u, hawait, herror, hbusy, hsave⟩, hafter⟩

theorem getNextRecord_iff {record : UInt64} (hrecord : record ≠ 0) {after : Nat} :
    (∃ t, getNextRecord dev target s = .ok record t ∧ t.history.length = after) ↔
      dev.nextRecordHandle s.history.length = .answered record ∧ s.history.length + 1 = after := by
  cases hanswer : dev.nextRecordHandle s.history.length with
  | answered next =>
      have hnext : getNextRecord dev target s = .ok next _ := bind_of_ok (call_answered hanswer) _
      rw [hnext]
      simp
  | failed =>
      have hnext : getNextRecord dev target s = .ok 0 _ := bind_of_ok (call_failed hanswer) _
      rw [hnext]
      simp [hrecord.symm]
  | noBus =>
      have hnext : getNextRecord dev target s = .error .noBus s := bind_of_error (call_noBus hanswer) _
      rw [hnext]
      simp

theorem continues_iff {record : UInt64} {after : Nat} :
    (∃ next t, nextRecord dev target record s = .ok (.inr next) t ∧ t.history.length = after) ↔
      Continues dev target.dataType s.history.length after := by
  constructor
  · rintro ⟨next, t, h, hafter⟩
    obtain ⟨hzero, u, v, hrequest, hsaved, hnext⟩ := nextRecord_inr_iff.mp h
    obtain ⟨ready, hready, hfd, hv⟩ := saveRequested_success_iff.mp ⟨v, hsaved, rfl⟩
    obtain ⟨hhandle, hw⟩ := (getNextRecord_iff hzero).mp ⟨t, hnext, hafter⟩
    rw [← hv] at hhandle hw
    exact ⟨_, ready, (requestRecord_iff (by decide)).mp ⟨u, hrequest, rfl⟩, hready, hfd,
      ⟨next, hzero, hhandle⟩, hw.symm⟩
  · rintro ⟨accepted, ready, haccepts, hready, hfd, ⟨next, hzero, hhandle⟩, hafter⟩
    have haccepted : ∃ u, requestRecord dev target record MAX_ERROR_COUNT .InProgress s = .ok .Success u ∧
        u.history.length = accepted := (requestRecord_iff (by decide)).mpr haccepts
    obtain ⟨u, hrequest, rfl⟩ := haccepted
    obtain ⟨v, hsaved, hv⟩ := saveRequested_success_iff.mpr ⟨ready, hready, hfd, rfl⟩
    rw [← hv] at hhandle
    have hnamed : ∃ t, getNextRecord dev target v = .ok next t ∧ t.history.length = v.history.length + 1 :=
      (getNextRecord_iff hzero).mpr ⟨hhandle, rfl⟩
    obtain ⟨t, hnext, ht⟩ := hnamed
    exact ⟨next, t, nextRecord_inr_iff.mpr ⟨hzero, u, v, hrequest, hsaved, hnext⟩, by omega⟩

/-- The loop over the records ends, if and only if the device does not go on for ever. -/
theorem ends_retrieve_iff (record : UInt64) :
    Ends .unfinished (fun records => retrieve dev target records record) s ↔
      ¬ Endless dev target.dataType s.history.length := by
  simp only [retrieve_eq_loop]
  rw [ends_iff_acc within_nextRecord, Endless, ← acc_iff_no_chain (r := fun after calls =>
    Continues dev target.dataType calls after)]
  constructor
  · intro h
    refine acc_of_simulation (R := fun calls x => x.2.history.length = calls) ?_ h rfl
    rintro _ after ⟨current, t⟩ rfl hcontinues
    obtain ⟨next, u, hnext, hafter⟩ := continues_iff.mpr hcontinues
    exact ⟨(next, u), hafter, hnext⟩
  · intro h
    refine acc_of_simulation (R := fun x calls => x.2.history.length = calls) ?_ h rfl
    rintro ⟨current, t⟩ ⟨next, u⟩ _ rfl hnext
    exact ⟨_, rfl, continues_iff.mp ⟨next, u, hnext, rfl⟩⟩

theorem within_erase (rounds : Nat) (res : OperationStatus) (errorCounter busyCounter : Nat) :
    Within .unfinished (erase dev target rounds res errorCounter busyCounter) := by
  induction rounds generalizing res errorCounter busyCounter with
  | zero => exact within_pure res
  | succ rounds ih =>
      have hsend : Within .unfinished (sendSwitchEraseCommand dev target) :=
        within_bind (within_call _ _) fun _ => within_pure _
      have hstatus : Within .unfinished (getSwitchEraseStatus dev target) :=
        within_bind (within_call _ _) fun _ => within_pure _
      refine within_ite (within_bind hsend fun res => within_ite (ih _ _ _) ?_) (within_pure res)
      exact within_bind hstatus fun res => ih _ _ _

theorem ends_getSwitchDump_iff (switchIndex : UInt8) :
    Ends .unfinished (fun records => getSwitchDump dev records switchIndex) s ↔
      ¬ Endless dev .NVSwitch s.history.length := by
  refine Iff.trans (ends_bind (fun res => ?_) s) (ends_retrieve_iff 0)
  exact within_ite (within_pure res) (within_erase _ _ _ _)

end Records

/-- All four functions end, if and only if the device does not keep giving records and
naming others after them. -/
theorem dumps_end_iff (dev : Device) (s : Session) :
    (∀ switchIndex, Ends .unfinished (fun records => getSwitchDump dev records switchIndex) s ↔
      ¬ Endless dev .NVSwitch s.history.length) ∧
    (Ends .unfinished (fun records => getLinkMgmtNICDump dev records) s ↔
      ¬ Endless dev .NVLinkMgmtNIC_Dump s.history.length) ∧
    (Ends .unfinished (fun records => getLinkMgmtNICLog dev records) s ↔
      ¬ Endless dev .NVLinkMgmtNIC_Log s.history.length) ∧
    (∀ GPUIndex, Ends .unfinished (fun records => getGPUDump dev records GPUIndex) s ↔
      ¬ Endless dev .GPU_SXM s.history.length) := by
  exact ⟨ends_getSwitchDump_iff, ends_retrieve_iff 0, ends_retrieve_iff 0, fun GPUIndex => ends_retrieve_iff 0⟩

section Devices

def cyclic (dataType : DeviceTypeData) : Device where
  requestRecord _ := .answered ()
  status _ := .answered (statusPrefix dataType ++ "Success")
  fd _ := .answered (.bytes 1 [2] .endOfFile)
  nextRecordHandle _ := .answered 1
  eraseDebugInfo _ := .answered ()
  eraseDebugInfoStatus _ :=
    .answered ("com.nvidia.Dump.Erase.OperationStatus.Success", "com.nvidia.Dump.Erase.EraseStatus.DataErased")

theorem endless_cyclic (dataType : DeviceTypeData) (calls : Nat) : Endless (cyclic dataType) dataType calls := by
  have hready (n : Nat) : reported (cyclic dataType) dataType n = some .Success := by
    simp [reported, cyclic, commandStatus]
  refine ⟨fun k => calls + 4 * k, by simp, fun k => ?_⟩
  exact ⟨_, _, .now rfl, .now (hready _), ⟨_, rfl⟩, ⟨1, by decide, rfl⟩, by simp only [Nat.mul_succ]; omega⟩

theorem cyclic_never_ends :
    ¬ Ends .unfinished (fun records => getSwitchDump (cyclic .NVSwitch) records 0) start ∧
    ¬ Ends .unfinished (fun records => getLinkMgmtNICDump (cyclic .NVLinkMgmtNIC_Dump) records) start ∧
    ¬ Ends .unfinished (fun records => getLinkMgmtNICLog (cyclic .NVLinkMgmtNIC_Log) records) start ∧
    ¬ Ends .unfinished (fun records => getGPUDump (cyclic .GPU_SXM) records 0) start := by
  refine ⟨fun h => ?_, fun h => ?_, fun h => ?_, fun h => ?_⟩
  · exact (ends_getSwitchDump_iff 0).mp h (endless_cyclic _ _)
  · exact (ends_retrieve_iff 0).mp h (endless_cyclic _ _)
  · exact (ends_retrieve_iff 0).mp h (endless_cyclic _ _)
  · exact (ends_retrieve_iff 0).mp h (endless_cyclic _ _)

end Devices

end DumpCollector.Nsm.Termination
