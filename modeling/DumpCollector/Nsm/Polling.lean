import DumpCollector.Nsm.Termination
import Mathlib.Logic.Relation

namespace DumpCollector.Nsm.Polling

open Lib.Effects Lib.Loops NetDump Retrieval Termination

/-- The variables that the loops of a function test, with the widths that they have. -/
structure Counters where
  res : OperationStatus
  errorCounter : UInt8
  busyCounter : UInt16

def reset : Counters := ⟨.InProgress, 0, 0⟩

section Rounds

variable (dev : Device) (target : Target)

def requestRound (record : UInt64) (c : Counters) : ToolM (Counters ⊕ Counters) :=
  if c.errorCounter.toNat < MAX_ERROR_COUNT ∧ c.res ≠ .Success then do
    let res ← sendRequestRecordCommand dev target record
    if res ≠ .Success then pure (.inr { c with res := res, errorCounter := c.errorCounter + 1 })
    else pure (.inr { c with res := res })
  else pure (.inl c)

/-- The two comparisons are added as the numbers one and zero. -/
def counted (c : Counters) (res : OperationStatus) : Counters where
  res := res
  errorCounter := c.errorCounter + if res = .Error then 1 else 0
  busyCounter := c.busyCounter + if res = .InProgress then 1 else 0

def statusRound (c : Counters) : ToolM (Counters ⊕ Counters) :=
  if c.errorCounter.toNat < MAX_ERROR_COUNT ∧ c.busyCounter.toNat < MAX_IN_PROGRESS_COUNT ∧ c.res ≠ .Success then do
    let res ← getRequestRecordCommandStatus dev target
    pure (.inr (counted c res))
  else pure (.inl c)

def eraseRound (c : Counters) : ToolM (Counters ⊕ Counters) :=
  if c.errorCounter.toNat < MAX_ERROR_COUNT ∧ c.busyCounter.toNat < MAX_IN_PROGRESS_COUNT ∧ c.res ≠ .Success then do
    let res ← sendSwitchEraseCommand dev target
    let errorCounter := c.errorCounter + if res = .Error then 1 else 0
    if res = .Success then do
      let res ← getSwitchEraseStatus dev target
      pure (.inr (counted { c with errorCounter := errorCounter } res))
    else pure (.inr { c with res := res, errorCounter := errorCounter })
  else pure (.inl c)

end Rounds

section Phases

def deviceName (target : Target) : String :=
  match target.dataType with
  | .NVSwitch => "Net_NVSwitch_" ++ toString target.index.toNat ++ " dump"
  | .NVLinkMgmtNIC_Dump => "Net_NVLinkManagementNIC_0 dump"
  | .NVLinkMgmtNIC_Log => "Net_NVLinkManagementNIC_0 Log"
  | .GPU_SXM => "Net_GPU_SXM_" ++ toString target.index.toNat ++ " dump"

def reportedErrors (target : Target) : String := "Getting the " ++ deviceName target ++ " reported errors"

def timeout (target : Target) : String := "Getting the " ++ deviceName target ++ " timeout"

def notSaved (target : Target) : String := "Saving the " ++ deviceName target ++ " reported errors"

/-- How a round of the loop over the records goes on after its two inner loops: it leaves the
loop, or it calls saveRecord. -/
inductive Waited
  | breaks (res : OperationStatus) (log : List String)
  | saves (log : List String)

structure Fetched where
  res : OperationStatus
  log : List String
  next : Option UInt64

variable (dev : Device) (target : Target) (rounds : Nat)

/-- The outcome of the loop around the status is forgotten, and told from the counters. -/
def decision (log : List String) (c : Counters) : Waited :=
  if MAX_ERROR_COUNT = c.errorCounter.toNat then .breaks .InProgress (log ++ [reportedErrors target])
  else if MAX_IN_PROGRESS_COUNT = c.busyCounter.toNat then .breaks .InProgress (log ++ [timeout target])
  else .saves log

def waitForStatus (log : List String) : ToolM Waited := do
  let c ← loop .unfinished (statusRound dev target) rounds reset
  pure (decision target log c)

def waitForRecord (record : UInt64) (log : List String) : ToolM Waited := do
  let c ← loop .unfinished (requestRound dev target record) rounds reset
  if c.res ≠ .Success then pure (.breaks c.res log) else waitForStatus dev target rounds log

def afterSave (log : List String) (res : OperationStatus) : ToolM Fetched :=
  if res ≠ .Success then pure ⟨.InProgress, log ++ [notSaved target], none⟩
  else do
    let next ← getNextRecord dev target
    pure ⟨.Success, log, some next⟩

def fetchRecord (record : UInt64) (log : List String) : ToolM Fetched := do
  match ← waitForRecord dev target rounds record log with
  | .breaks res log => pure ⟨res, log, none⟩
  | .saves log => do
      let res ← saveRecord dev target
      afterSave dev target log res

def eraseContents : ToolM Counters := loop .unfinished (eraseRound dev target) rounds reset

end Phases

section Replies

def requestReply : Exchange → Option (Option Unit)
  | .requestRecord _ _ reply => some reply
  | _ => none

def statusReply : Exchange → Option OperationStatus
  | .status target reply => some ((reply.map (commandStatus target.dataType)).getD .Error)
  | _ => none

def eraseStatusReply : Exchange → Option OperationStatus
  | .eraseDebugInfoStatus _ reply => some ((reply.map eraseStatus).getD .Error)
  | _ => none

def requests (es : List Exchange) : List (Option Unit) := es.filterMap requestReply

def statuses (es : List Exchange) : List OperationStatus := es.filterMap statusReply

def eraseRequests (es : List Exchange) : List (Option Unit) := es.filterMap erasure

def eraseStatuses (es : List Exchange) : List OperationStatus := es.filterMap eraseStatusReply

theorem requests_append (es fs : List Exchange) : requests (es ++ fs) = requests es ++ requests fs :=
  List.filterMap_append

theorem statuses_append (es fs : List Exchange) : statuses (es ++ fs) = statuses es ++ statuses fs :=
  List.filterMap_append

theorem eraseRequests_append (es fs : List Exchange) :
    eraseRequests (es ++ fs) = eraseRequests es ++ eraseRequests fs := List.filterMap_append

theorem eraseStatuses_append (es fs : List Exchange) :
    eraseStatuses (es ++ fs) = eraseStatuses es ++ eraseStatuses fs := List.filterMap_append

/-- The last request was accepted, and the last status was that of success. -/
def Ready (es : List Exchange) : Prop :=
  (requests es).getLast? = some (some ()) ∧ (statuses es).getLast? = some .Success

def ForRecord (target : Target) (record : UInt64) (es : List Exchange) : Prop :=
  ∃ (asked : List (Option Unit)) (polled : List (Option String)),
    es = asked.map (.requestRecord target record) ++ polled.map (.status target)

def ForErasing (target : Target) (es : List Exchange) : Prop :=
  ∀ e ∈ es, (∃ reply, e = .eraseDebugInfo target reply) ∨ ∃ reply, e = .eraseDebugInfoStatus target reply

/-- How the phase of a record that is not ready ends, with at most one message. The session is
that of its last exchange, so that nothing is called after it. -/
inductive GivesUp (dev : Device) (target : Target) (log : List String) (es : List Exchange) (t : Session) :
    EStateM.Result Stop Session Fetched → Prop
  | refused {res : OperationStatus} (hres : res ≠ .Success) (h : (requests es).count none = MAX_ERROR_COUNT) :
      GivesUp dev target log es t (.ok ⟨res, log, none⟩ t)
  | errors (h : (statuses es).count .Error = MAX_ERROR_COUNT) :
      GivesUp dev target log es t (.ok ⟨.InProgress, log ++ [reportedErrors target], none⟩ t)
  | timedOut (h : (statuses es).count .InProgress = MAX_IN_PROGRESS_COUNT) :
      GivesUp dev target log es t (.ok ⟨.InProgress, log ++ [timeout target], none⟩ t)
  | unasked (h : (requests es).getLast? ≠ some (some ())) (hlost : dev.requestRecord t.history.length = .noBus) :
      GivesUp dev target log es t (.error .noBus t)
  | unpolled (h : (requests es).getLast? = some (some ())) (hlost : dev.status t.history.length = .noBus) :
      GivesUp dev target log es t (.error .noBus t)

/-- The erasing stops at the status that says so, or with one of its counters used up. -/
inductive Erases (dev : Device) (es : List Exchange) : EStateM.Result Stop Session Counters → Prop
  | done {c : Counters} {t : Session} (hres : c.res = .Success)
      (h : es.getLast?.bind eraseStatusReply = some .Success) : Erases dev es (.ok c t)
  | failed {c : Counters} {t : Session} (hres : c.res ≠ .Success)
      (h : (eraseRequests es).count none + (eraseStatuses es).count .Error = MAX_ERROR_COUNT ∨
        (eraseStatuses es).count .InProgress = MAX_IN_PROGRESS_COUNT) : Erases dev es (.ok c t)
  | noBus {t : Session} (h : es.getLast?.bind eraseStatusReply ≠ some .Success)
      (hlost : dev.eraseDebugInfo t.history.length = .noBus ∨ dev.eraseDebugInfoStatus t.history.length = .noBus) :
      Erases dev es (.error .noBus t)

/-- Whenever the condition of the loop is tested, the counters are the numbers of the replies
that they stand for. -/
def Exact (round : Counters → ToolM (Counters ⊕ Counters)) (errors busy : List Exchange → Nat) (s : Session) : Prop :=
  ∀ c t, Relation.ReflTransGen (fun x y => Follows round y x) (reset, s) (c, t) →
    ∃ es, t.history = s.history ++ es ∧ c.errorCounter.toNat = errors es ∧ c.busyCounter.toNat = busy es

end Replies

section Counting

/-- The counters after some replies, none of which has used one of them up before the last. -/
structure Counts (rs : List OperationStatus) (c : Counters) : Prop where
  error : c.errorCounter.toNat = rs.count .Error
  busy : c.busyCounter.toNat = rs.count .InProgress
  errorLe : rs.count .Error ≤ MAX_ERROR_COUNT
  busyLe : rs.count .InProgress ≤ MAX_IN_PROGRESS_COUNT
  length : rs.length = rs.count .Error + rs.count .InProgress + if c.res = .Success then 1 else 0
  success : c.res = .Success ↔ rs.getLast? = some .Success
  left : c.res = .Success → rs.count .Error < MAX_ERROR_COUNT ∧ rs.count .InProgress < MAX_IN_PROGRESS_COUNT

def More (c : Counters) : Prop :=
  c.errorCounter.toNat < MAX_ERROR_COUNT ∧ c.busyCounter.toNat < MAX_IN_PROGRESS_COUNT ∧ c.res ≠ .Success

def size (c : Counters) : Nat :=
  (MAX_ERROR_COUNT - c.errorCounter.toNat) + (MAX_IN_PROGRESS_COUNT - c.busyCounter.toNat) +
    if c.res = .Success then 0 else 1

variable {c : Counters} {rs : List OperationStatus}

theorem counts_reset : Counts [] reset := by
  constructor <;> simp [reset]

theorem counted_error (h : More c) (res : OperationStatus) :
    (counted c res).errorCounter.toNat = c.errorCounter.toNat + if res = .Error then 1 else 0 := by
  have hlt : c.errorCounter.toNat < 3 := h.1
  by_cases hres : res = .Error
  · simp only [counted, hres, if_true, UInt8.toNat_add, UInt8.toNat_one]
    omega
  · simp only [counted, hres, if_false, UInt8.add_zero, Nat.add_zero]

theorem counted_busy (h : More c) (res : OperationStatus) :
    (counted c res).busyCounter.toNat = c.busyCounter.toNat + if res = .InProgress then 1 else 0 := by
  have hlt : c.busyCounter.toNat < 1000 := h.2.1
  by_cases hres : res = .InProgress
  · simp only [counted, hres, if_true, UInt16.toNat_add, UInt16.toNat_one]
    omega
  · simp only [counted, hres, if_false, UInt16.add_zero, Nat.add_zero]

theorem counts_counted (hc : Counts rs c) (h : More c) (res : OperationStatus) :
    Counts (rs ++ [res]) (counted c res) := by
  have herror := counted_error h res
  have hbusy := counted_busy h res
  obtain ⟨hmoreError, hmoreBusy, hres⟩ := h
  have hcountError : (rs ++ [res]).count .Error = rs.count .Error + if res = .Error then 1 else 0 := by
    rw [List.count_append, List.count_singleton]
    simp
  have hcountBusy : (rs ++ [res]).count .InProgress = rs.count .InProgress + if res = .InProgress then 1 else 0 := by
    rw [List.count_append, List.count_singleton]
    simp
  have hlength := hc.length
  rw [if_neg hres] at hlength
  have hlast : (rs ++ [res]).getLast? = some res := List.getLast?_concat
  have hres' : (counted c res).res = res := rfl
  rw [hc.error] at herror hmoreError
  rw [hc.busy] at hbusy hmoreBusy
  refine ⟨by rw [herror, hcountError], by rw [hbusy, hcountBusy], ?_, ?_, ?_, ?_, ?_⟩
  · rw [hcountError]
    split <;> omega
  · rw [hcountBusy]
    split <;> omega
  · rw [List.length_append, hcountError, hcountBusy, hres']
    cases res <;> simp [hlength] <;> omega
  · rw [hlast, hres', Option.some_inj]
  · rw [hres']
    rintro rfl
    rw [hcountError, hcountBusy, if_neg (by decide), if_neg (by decide)]
    exact ⟨hmoreError, hmoreBusy⟩

theorem size_counted (h : More c) (res : OperationStatus) : size (counted c res) < size c := by
  have herror := counted_error h res
  have hbusy := counted_busy h res
  obtain ⟨hmoreError, hmoreBusy, hres⟩ := h
  have hres' : (counted c res).res = res := rfl
  rw [size, size, herror, hbusy, hres', if_neg hres]
  cases res <;> simp <;> omega

/-- The loop has used up one of its counters exactly if it has not come to success. -/
theorem success_iff_left (hc : Counts rs c) (h : ¬More c) :
    c.res = .Success ↔ MAX_ERROR_COUNT ≠ c.errorCounter.toNat ∧ MAX_IN_PROGRESS_COUNT ≠ c.busyCounter.toNat := by
  have herrorLe := hc.errorLe
  have hbusyLe := hc.busyLe
  rw [← hc.error] at herrorLe
  rw [← hc.busy] at hbusyLe
  constructor
  · intro hres
    obtain ⟨herror, hbusy⟩ := hc.left hres
    rw [← hc.error] at herror
    rw [← hc.busy] at hbusy
    omega
  · rintro ⟨herror, hbusy⟩
    by_contra hres
    exact h ⟨by omega, by omega, hres⟩

theorem length_le (hc : Counts rs c) : rs.length ≤ maxRounds := by
  have hlength := hc.length
  have herror := hc.errorLe
  have hbusy := hc.busyLe
  rw [maxRounds]
  by_cases hres : c.res = .Success
  · have hleft := hc.left hres
    rw [if_pos hres] at hlength
    omega
  · rw [if_neg hres] at hlength
    omega

end Counting

section Loop

/-- A round that counts one reply while its loop goes on, or finds no bus for its next call.
The relation says what the exchanges of the loop have to do with its replies. -/
def CountsReplies (lost : Nat → Prop) (round : Counters → ToolM (Counters ⊕ Counters))
    (P : List Exchange → List OperationStatus → Prop) : Prop :=
  ∀ es rs c (s : Session), P es rs → Counts rs c →
    (¬More c ∧ round c s = .ok (.inl c) s) ∨
    (More c ∧ ((∃ res fs t, round c s = .ok (.inr (counted c res)) t ∧ t.history = s.history ++ fs ∧
        P (es ++ fs) (rs ++ [res])) ∨
      ∃ fs t, round c s = .error .noBus t ∧ t.history = s.history ++ fs ∧ P (es ++ fs) rs ∧ lost t.history.length))

/-- What holds when the condition of the loop is tested. -/
def Tested (P : List Exchange → List OperationStatus → Prop) (s : Session) (x : Counters × Session) : Prop :=
  ∃ es rs, x.2.history = s.history ++ es ∧ P es rs ∧ Counts rs x.1

variable {lost : Nat → Prop} {round : Counters → ToolM (Counters ⊕ Counters)}
  {P : List Exchange → List OperationStatus → Prop} {s : Session}

theorem tested_reset (hP : P [] []) (s : Session) : Tested P s (reset, s) :=
  ⟨[], [], (List.append_nil _).symm, hP, counts_reset⟩

/-- The step lemma. -/
theorem tested_follows (hround : CountsReplies lost round P) (x y : Counters × Session) (hx : Tested P s x)
    (h : Follows round y x) : Tested P s y ∧ size y.1 < size x.1 := by
  obtain ⟨es, rs, hhistory, hes, hc⟩ := hx
  have hok : round x.1 x.2 = .ok (.inr y.1) y.2 := h
  rcases hround es rs x.1 x.2 hes hc with ⟨-, hdone⟩ | ⟨hmore, ⟨res, fs, t, hgo, ht, hfs⟩ | ⟨fs, t, herror, -, -, -⟩⟩
  · rw [hdone] at hok
    cases hok
  · rw [hgo] at hok
    injection hok with hout hsession
    have hy : y.1 = counted x.1 res := (Sum.inr.inj hout).symm
    rw [hy]
    refine ⟨⟨es ++ fs, rs ++ [res], ?_, hfs, ?_⟩, size_counted hmore res⟩
    · rw [← hsession, ht, hhistory, List.append_assoc]
    · rw [hy]
      exact counts_counted hc hmore res
  · rw [herror] at hok
    cases hok

theorem tested_of_reached (hround : CountsReplies lost round P) (hP : P [] []) {x : Counters × Session}
    (h : Relation.ReflTransGen (fun x y => Follows round y x) (reset, s) x) : Tested P s x := by
  induction h with
  | refl => exact tested_reset hP s
  | tail _ hfollows ih => exact (tested_follows hround _ _ ih hfollows).1

theorem loop_counts (hround : CountsReplies lost round P) (hP : P [] []) {rounds : Nat}
    (hrounds : maxRounds + 1 < rounds) (s : Session) : ∃ es rs c, P es rs ∧ Counts rs c ∧
      ((∃ t, loop .unfinished round rounds reset s = .ok c t ∧ t.history = s.history ++ es ∧ ¬More c) ∨
        ∃ t, loop .unfinished round rounds reset s = .error .noBus t ∧ t.history = s.history ++ es ∧ More c ∧
          lost t.history.length) := by
  have hsize : size reset < rounds := hrounds
  obtain ⟨⟨c, t⟩, ⟨es, rs, hhistory, hes, hc⟩, hends⟩ :=
    @loop_ends Stop Session Counters Counters .unfinished round (Tested P s) (fun x => size x.1)
      (tested_follows hround) rounds (reset, s) (tested_reset hP s) hsize
  rcases hround es rs c t hes hc with
    ⟨hmore, hdone⟩ | ⟨hmore, ⟨res, fs, u, hgo, -, -⟩ | ⟨fs, u, herror, hu, hfs, hlost⟩⟩
  · rcases hends with ⟨b, v, hround', hloop⟩ | ⟨e, v, hround', -⟩
    · cases hdone.symm.trans hround'
      exact ⟨es, rs, c, hes, hc, .inl ⟨t, hloop, hhistory, hmore⟩⟩
    · cases hdone.symm.trans hround'
  · rcases hends with ⟨b, v, hround', -⟩ | ⟨e, v, hround', -⟩
    · cases hgo.symm.trans hround'
    · cases hgo.symm.trans hround'
  · rcases hends with ⟨b, v, hround', -⟩ | ⟨e, v, hround', hloop⟩
    · cases herror.symm.trans hround'
    · cases herror.symm.trans hround'
      refine ⟨es ++ fs, rs, c, hfs, hc, .inr ⟨u, hloop, ?_, hmore, hlost⟩⟩
      rw [hu, ← List.append_assoc]
      exact congrArg (· ++ fs) hhistory

end Loop

section Calls

variable (dev : Device) (target : Target)

theorem call_cases {α : Type} (answer : Nat → Reply α) (exchange : Option α → Exchange) (s : Session) :
    (∃ reply, call answer exchange s = .ok reply { s with history := s.history ++ [exchange reply] }) ∨
      (call answer exchange s = .error .noBus s ∧ answer s.history.length = .noBus) := by
  cases hanswer : answer s.history.length with
  | answered a => exact .inl ⟨some a, call_answered hanswer⟩
  | failed => exact .inl ⟨none, call_failed hanswer⟩
  | noBus => exact .inr ⟨call_noBus hanswer, rfl⟩

theorem command_cases {α : Type} (answer : Nat → Reply α) (exchange : Option α → Exchange)
    (status : Option α → OperationStatus) (s : Session) :
    (∃ reply, (call answer exchange >>= fun reply => pure (status reply)) s =
      .ok (status reply) { s with history := s.history ++ [exchange reply] }) ∨
    ((call answer exchange >>= fun reply => pure (status reply)) s = .error .noBus s ∧
      answer s.history.length = .noBus) := by
  rcases call_cases answer exchange s with ⟨reply, h⟩ | ⟨h, hlost⟩
  · exact .inl ⟨reply, bind_of_ok h _⟩
  · exact .inr ⟨bind_of_error h _, hlost⟩

def requestStatus (reply : Option Unit) : OperationStatus := if reply.isSome then .Success else .Error

theorem sendRequestRecordCommand_cases (record : UInt64) (s : Session) :
    (∃ reply, sendRequestRecordCommand dev target record s =
      .ok (requestStatus reply) { s with history := s.history ++ [.requestRecord target record reply] }) ∨
    (sendRequestRecordCommand dev target record s = .error .noBus s ∧ dev.requestRecord s.history.length = .noBus) :=
  command_cases dev.requestRecord (.requestRecord target record) requestStatus s

theorem getStatus_cases (s : Session) :
    (∃ reply, getRequestRecordCommandStatus dev target s =
      .ok ((reply.map (commandStatus target.dataType)).getD .Error)
        { s with history := s.history ++ [.status target reply] }) ∨
    (getRequestRecordCommandStatus dev target s = .error .noBus s ∧ dev.status s.history.length = .noBus) :=
  command_cases dev.status (.status target) (fun reply => (reply.map (commandStatus target.dataType)).getD .Error) s

theorem sendSwitchEraseCommand_cases (s : Session) :
    (∃ reply, sendSwitchEraseCommand dev target s =
      .ok (requestStatus reply) { s with history := s.history ++ [.eraseDebugInfo target reply] }) ∨
    (sendSwitchEraseCommand dev target s = .error .noBus s ∧ dev.eraseDebugInfo s.history.length = .noBus) :=
  command_cases dev.eraseDebugInfo (.eraseDebugInfo target) requestStatus s

theorem getSwitchEraseStatus_cases (s : Session) :
    (∃ reply, getSwitchEraseStatus dev target s = .ok ((reply.map eraseStatus).getD .Error)
        { s with history := s.history ++ [.eraseDebugInfoStatus target reply] }) ∨
    (getSwitchEraseStatus dev target s = .error .noBus s ∧ dev.eraseDebugInfoStatus s.history.length = .noBus) :=
  command_cases dev.eraseDebugInfoStatus (.eraseDebugInfoStatus target)
    (fun reply => (reply.map eraseStatus).getD .Error) s

end Calls

section Instances

variable (dev : Device) (target : Target)

def RequestReplies (record : UInt64) (es : List Exchange) (rs : List OperationStatus) : Prop :=
  ∃ asked : List (Option Unit), es = asked.map (.requestRecord target record) ∧ rs = asked.map requestStatus

def StatusReplies (es : List Exchange) (rs : List OperationStatus) : Prop :=
  ∃ polled : List (Option String), es = polled.map (.status target) ∧ rs = statuses es

/-- A request that is refused counts as an error of its round. -/
structure EraseReplies (es : List Exchange) (rs : List OperationStatus) : Prop where
  calls : ForErasing target es
  error : rs.count .Error = (eraseRequests es).count none + (eraseStatuses es).count .Error
  busy : rs.count .InProgress = (eraseStatuses es).count .InProgress
  length : rs.length = (eraseRequests es).count none + (eraseStatuses es).length
  success : es.getLast?.bind eraseStatusReply = some .Success ↔ rs.getLast? = some .Success

theorem requests_asked (record : UInt64) (asked : List (Option Unit)) :
    requests (asked.map (.requestRecord target record)) = asked := by
  rw [requests, List.filterMap_map]
  exact List.filterMap_some

theorem statuses_asked (record : UInt64) (asked : List (Option Unit)) :
    statuses (asked.map (.requestRecord target record)) = [] := by
  rw [statuses, List.filterMap_map]
  exact List.filterMap_eq_nil_iff.mpr fun _ _ => rfl

theorem requests_polled (polled : List (Option String)) : requests (polled.map (.status target)) = [] := by
  rw [requests, List.filterMap_map]
  exact List.filterMap_eq_nil_iff.mpr fun _ _ => rfl

theorem requestStatus_ne (reply : Option Unit) : requestStatus reply ≠ .InProgress := by
  cases reply <;> simp [requestStatus]

theorem count_requestStatus (replies : List (Option Unit)) : (replies.map requestStatus).count .InProgress = 0 := by
  rw [List.count_eq_zero]
  intro h
  obtain ⟨reply, -, hreply⟩ := List.mem_map.mp h
  exact requestStatus_ne reply hreply

/-- The replies to a request leave the counter of busy replies alone, so that the loop need not
test it. -/
theorem requestRound_counts (record : UInt64) :
    CountsReplies (dev.requestRecord · = .noBus) (requestRound dev target record) (RequestReplies target record) := by
  rintro es rs c s ⟨asked, hes, hrs⟩ hc
  have hbusy : c.busyCounter.toNat < MAX_IN_PROGRESS_COUNT := by
    rw [hc.busy, hrs, count_requestStatus]
    decide
  by_cases hmore : c.errorCounter.toNat < MAX_ERROR_COUNT ∧ c.res ≠ .Success
  · refine .inr ⟨⟨hmore.1, hbusy, hmore.2⟩, ?_⟩
    rw [requestRound, if_pos hmore]
    rcases sendRequestRecordCommand_cases dev target record s with ⟨reply, h⟩ | ⟨h, hlost⟩
    · let t : Session := { s with history := s.history ++ [.requestRecord target record reply] }
      refine .inl ⟨requestStatus reply, [.requestRecord target record reply], t, ?_, rfl, asked ++ [reply], ?_, ?_⟩
      · rw [bind_of_ok h]
        cases reply <;> simp [requestStatus, counted] <;> rfl
      · rw [List.map_append, hes]
        rfl
      · rw [List.map_append, hrs]
        rfl
    · refine .inr ⟨[], s, bind_of_error h _, (List.append_nil _).symm, ?_, hlost⟩
      rw [List.append_nil]
      exact ⟨asked, hes, hrs⟩
  · refine .inl ⟨fun h => hmore ⟨h.1, h.2.2⟩, ?_⟩
    rw [requestRound, if_neg hmore]
    rfl

theorem statusRound_more {c : Counters} (h : More c) : statusRound dev target c = (do
    let res ← getRequestRecordCommandStatus dev target
    pure (.inr (counted c res))) := if_pos h

theorem statusRound_done {c : Counters} (h : ¬More c) : statusRound dev target c = pure (.inl c) := if_neg h

theorem eraseRound_done {c : Counters} (h : ¬More c) : eraseRound dev target c = pure (.inl c) := if_neg h

theorem statusRound_counts :
    CountsReplies (dev.status · = .noBus) (statusRound dev target) (StatusReplies target) := by
  rintro es rs c s ⟨polled, hes, hrs⟩ hc
  by_cases hmore : More c
  · refine .inr ⟨hmore, ?_⟩
    rw [statusRound_more dev target hmore]
    rcases getStatus_cases dev target s with ⟨reply, h⟩ | ⟨h, hlost⟩
    · refine .inl ⟨_, [.status target reply], _, bind_of_ok h _, rfl, polled ++ [reply], ?_, ?_⟩
      · rw [List.map_append, hes]
        rfl
      · rw [statuses_append, hrs]
        rfl
    · refine .inr ⟨[], s, bind_of_error h _, (List.append_nil _).symm, ?_, hlost⟩
      rw [List.append_nil]
      exact ⟨polled, hes, hrs⟩
  · exact .inl ⟨hmore, congrFun (statusRound_done dev target hmore) s⟩

theorem forErasing_append {es fs : List Exchange} (hes : ForErasing target es) (hfs : ForErasing target fs) :
    ForErasing target (es ++ fs) := fun e he => (List.mem_append.mp he).elim (hes e) (hfs e)

theorem eraseReplies_nil : EraseReplies target [] [] := ⟨nofun, rfl, rfl, rfl, by simp⟩

theorem eraseReplies_refused {es : List Exchange} {rs : List OperationStatus} (h : EraseReplies target es rs) :
    EraseReplies target (es ++ [.eraseDebugInfo target none]) (rs ++ [.Error]) := by
  have hrequests : eraseRequests (es ++ [.eraseDebugInfo target none]) = eraseRequests es ++ [none] :=
    eraseRequests_append es _
  have hstatuses : eraseStatuses (es ++ [.eraseDebugInfo target none]) = eraseStatuses es :=
    (eraseStatuses_append es _).trans (List.append_nil _)
  have hcalls : ForErasing target [.eraseDebugInfo target none] := fun e he => .inl ⟨none, List.mem_singleton.mp he⟩
  refine ⟨forErasing_append target h.calls hcalls, ?_, ?_, ?_, ?_⟩
  · rw [hrequests, hstatuses, List.count_append, List.count_append, h.error]
    simp
    omega
  · rw [hstatuses, List.count_append, h.busy]
    simp
  · rw [hrequests, hstatuses, List.count_append, List.length_append, h.length]
    simp
    omega
  · simp [eraseStatusReply]

theorem eraseReplies_accepted {es : List Exchange} {rs : List OperationStatus} (h : EraseReplies target es rs)
    (hlast : rs.getLast? ≠ some .Success) : EraseReplies target (es ++ [.eraseDebugInfo target (some ())]) rs := by
  have hrequests : eraseRequests (es ++ [.eraseDebugInfo target (some ())]) = eraseRequests es ++ [some ()] :=
    eraseRequests_append es _
  have hstatuses : eraseStatuses (es ++ [.eraseDebugInfo target (some ())]) = eraseStatuses es :=
    (eraseStatuses_append es _).trans (List.append_nil _)
  have hcount : (eraseRequests es ++ [some ()]).count none = (eraseRequests es).count none := by simp
  have hcalls : ForErasing target [.eraseDebugInfo target (some ())] :=
    fun e he => .inl ⟨some (), List.mem_singleton.mp he⟩
  refine ⟨forErasing_append target h.calls hcalls, ?_, ?_, ?_, ?_⟩
  · rw [hrequests, hstatuses, hcount, h.error]
  · rw [hstatuses, h.busy]
  · rw [hrequests, hstatuses, hcount, h.length]
  · simp [eraseStatusReply, hlast]

theorem eraseReplies_polled {es : List Exchange} {rs : List OperationStatus} (h : EraseReplies target es rs)
    (reply : Option (String × String)) :
    EraseReplies target (es ++ [.eraseDebugInfoStatus target reply])
      (rs ++ [(reply.map eraseStatus).getD .Error]) := by
  have hrequests : eraseRequests (es ++ [.eraseDebugInfoStatus target reply]) = eraseRequests es :=
    (eraseRequests_append es _).trans (List.append_nil _)
  have hstatuses : eraseStatuses (es ++ [.eraseDebugInfoStatus target reply]) =
      eraseStatuses es ++ [(reply.map eraseStatus).getD .Error] := eraseStatuses_append es _
  have hcalls : ForErasing target [.eraseDebugInfoStatus target reply] :=
    fun e he => .inr ⟨reply, List.mem_singleton.mp he⟩
  refine ⟨forErasing_append target h.calls hcalls, ?_, ?_, ?_, ?_⟩
  · rw [hrequests, hstatuses, List.count_append, List.count_append, h.error]
    omega
  · rw [hstatuses, List.count_append, List.count_append, h.busy]
  · rw [hrequests, hstatuses, List.length_append, List.length_append, h.length]
    exact Nat.add_assoc _ _ _
  · simp [eraseStatusReply]

def EraseLost (calls : Nat) : Prop := dev.eraseDebugInfo calls = .noBus ∨ dev.eraseDebugInfoStatus calls = .noBus

theorem eraseRound_counts : CountsReplies (EraseLost dev) (eraseRound dev target) (EraseReplies target) := by
  rintro es rs c s hes hc
  by_cases hmore : More c
  · have hguard : c.errorCounter.toNat < MAX_ERROR_COUNT ∧ c.busyCounter.toNat < MAX_IN_PROGRESS_COUNT ∧
        c.res ≠ .Success := hmore
    refine .inr ⟨hmore, ?_⟩
    rcases sendSwitchEraseCommand_cases dev target s with ⟨reply, h⟩ | ⟨h, hlost⟩
    · cases reply with
      | none =>
          let t : Session := { s with history := s.history ++ [.eraseDebugInfo target none] }
          refine .inl ⟨.Error, [.eraseDebugInfo target none], t, ?_, rfl, eraseReplies_refused target hes⟩
          rw [eraseRound, if_pos hguard, bind_of_ok h]
          simp [requestStatus, counted]
          rfl
      | some reply =>
          let t : Session := { s with history := s.history ++ [.eraseDebugInfo target (some ())] }
          have hround : eraseRound dev target c s = (do
              let res ← getSwitchEraseStatus dev target
              pure (.inr (counted c res)) : ToolM (Counters ⊕ Counters)) t := by
            rw [eraseRound, if_pos hguard, bind_of_ok h]
            simp only [requestStatus, Option.isSome_some, if_true, reduceCtorEq, if_false, UInt8.add_zero]
            rfl
          have haccepted := eraseReplies_accepted target hes (hc.success.not.mp hmore.2.2)
          rw [hround]
          rcases getSwitchEraseStatus_cases dev target t with ⟨reply', h'⟩ | ⟨h', hlost⟩
          · refine .inl ⟨_, [.eraseDebugInfo target (some ()), .eraseDebugInfoStatus target reply'], _,
              bind_of_ok h' _, ?_, ?_⟩
            · exact List.append_assoc _ _ _
            · rw [List.append_cons]
              exact eraseReplies_polled target haccepted reply'
          · exact .inr ⟨[.eraseDebugInfo target (some ())], t, bind_of_error h' _, rfl, haccepted, .inr hlost⟩
    · refine .inr ⟨[], s, ?_, (List.append_nil _).symm, by rwa [List.append_nil], .inl hlost⟩
      rw [eraseRound, if_pos hguard]
      exact bind_of_error h _
  · exact .inl ⟨hmore, congrFun (eraseRound_done dev target hmore) s⟩

end Instances

section Decisions

variable {dev : Device} {target : Target} {rounds : Nat} {record : UInt64} {log : List String} {s : Session}

theorem requestReplies_accepted {asked : List (Option Unit)} :
    (asked.map requestStatus).getLast? = some .Success ↔ asked.getLast? = some (some ()) := by
  rw [List.getLast?_map]
  rcases asked.getLast? with _ | _ | _ <;> simp [requestStatus]

theorem requestReplies_refused (asked : List (Option Unit)) :
    (asked.map requestStatus).count .Error = asked.count none := by
  induction asked with
  | nil => rfl
  | cons reply replies ih => cases reply <;> simp [requestStatus, ih]

theorem decision_success {rs : List OperationStatus} {c : Counters} (hc : Counts rs c) (h : ¬More c)
    (hres : c.res = .Success) : decision target log c = .saves log := by
  obtain ⟨herror, hbusy⟩ := (success_iff_left hc h).mp hres
  rw [decision, if_neg herror, if_neg hbusy]

variable (target log) in
theorem decision_failure {rs : List OperationStatus} {c : Counters} (hc : Counts rs c) (h : ¬More c)
    (hres : c.res ≠ .Success) :
    (rs.count .Error = MAX_ERROR_COUNT ∧
      decision target log c = .breaks .InProgress (log ++ [reportedErrors target])) ∨
    (rs.count .InProgress = MAX_IN_PROGRESS_COUNT ∧
      decision target log c = .breaks .InProgress (log ++ [timeout target])) := by
  rw [← hc.error, ← hc.busy, decision]
  by_cases herror : MAX_ERROR_COUNT = c.errorCounter.toNat
  · exact .inl ⟨herror.symm, if_pos herror⟩
  · have hbusy : MAX_IN_PROGRESS_COUNT = c.busyCounter.toNat := by
      by_contra hbusy
      exact hres ((success_iff_left hc h).mpr ⟨herror, hbusy⟩)
    rw [if_neg herror, if_pos hbusy]
    exact .inr ⟨hbusy.symm, rfl⟩

/-- What the loop around the status comes to, with the replies to its polls. -/
inductive Awaits (dev : Device) (target : Target) (log : List String) (rs : List OperationStatus) (t : Session) :
    EStateM.Result Stop Session Waited → Prop
  | ready (h : rs.getLast? = some .Success) : Awaits dev target log rs t (.ok (.saves log) t)
  | failed (h : rs.getLast? ≠ some .Success) (herror : rs.count .Error = MAX_ERROR_COUNT) :
      Awaits dev target log rs t (.ok (.breaks .InProgress (log ++ [reportedErrors target])) t)
  | timedOut (h : rs.getLast? ≠ some .Success) (hbusy : rs.count .InProgress = MAX_IN_PROGRESS_COUNT) :
      Awaits dev target log rs t (.ok (.breaks .InProgress (log ++ [timeout target])) t)
  | noBus (h : rs.getLast? ≠ some .Success) (hlost : dev.status t.history.length = .noBus) :
      Awaits dev target log rs t (.error .noBus t)

variable (dev target log s) in
theorem waitForStatus_awaits (hrounds : maxRounds + 1 < rounds) :
    ∃ (polled : List (Option String)) (t : Session), t.history = s.history ++ polled.map (.status target) ∧
      (statuses (polled.map (.status target))).length ≤ maxRounds ∧
      Awaits dev target log (statuses (polled.map (.status target))) t (waitForStatus dev target rounds log s) := by
  obtain ⟨es, rs, c, ⟨polled, rfl, rfl⟩, hc, ⟨t, hloop, ht, hmore⟩ | ⟨t, hloop, ht, hmore, hlost⟩⟩ :=
    loop_counts (statusRound_counts dev target) ⟨[], rfl, rfl⟩ hrounds s
  · refine ⟨polled, t, ht, length_le hc, ?_⟩
    rw [waitForStatus, bind_of_ok hloop]
    by_cases hres : c.res = .Success
    · rw [decision_success hc hmore hres]
      exact .ready (hc.success.mp hres)
    · rcases decision_failure target log hc hmore hres with ⟨hcount, h⟩ | ⟨hcount, h⟩
      · rw [h]
        exact .failed (hc.success.not.mp hres) hcount
      · rw [h]
        exact .timedOut (hc.success.not.mp hres) hcount
  · refine ⟨polled, t, ht, length_le hc, ?_⟩
    rw [waitForStatus, bind_of_error hloop]
    exact .noBus (hc.success.not.mp hmore.2.2) hlost

theorem ready_iff {asked : List (Option Unit)} {polled : List (Option String)} :
    Ready (asked.map (.requestRecord target record) ++ polled.map (.status target)) ↔
      asked.getLast? = some (some ()) ∧ (statuses (polled.map (.status target))).getLast? = some .Success := by
  rw [Ready, requests_append, statuses_append, requests_asked, requests_polled, statuses_asked, List.append_nil,
    List.nil_append]

variable (dev target record rounds log) in
/-- What the phase of a record has to do with its exchanges, up to the call of saveRecord or to
the end of the phase. -/
def Decides (s : Session) : Prop :=
  ∃ es t, t.history = s.history ++ es ∧ ForRecord target record es ∧ (requests es).count none ≤ MAX_ERROR_COUNT ∧
    (statuses es).length ≤ MAX_ERROR_COUNT + MAX_IN_PROGRESS_COUNT ∧
    (Ready es →
      fetchRecord dev target rounds record log s = (saveRecord dev target >>= afterSave dev target log) t) ∧
    (¬Ready es → GivesUp dev target log es t (fetchRecord dev target rounds record log s))

theorem fetchRecord_breaks {res : OperationStatus} {log' : List String} {t : Session}
    (h : waitForRecord dev target rounds record log s = .ok (.breaks res log') t) :
    fetchRecord dev target rounds record log s = .ok ⟨res, log', none⟩ t := bind_of_ok h _

theorem fetchRecord_saves {log' : List String} {t : Session}
    (h : waitForRecord dev target rounds record log s = .ok (.saves log') t) :
    fetchRecord dev target rounds record log s = (saveRecord dev target >>= afterSave dev target log') t :=
  bind_of_ok h _

theorem fetchRecord_error {e : Stop} {t : Session}
    (h : waitForRecord dev target rounds record log s = .error e t) :
    fetchRecord dev target rounds record log s = .error e t := bind_of_error h _

theorem decides_of_awaits {asked : List (Option Unit)} {polled : List (Option String)} {t u : Session}
    (hwait : waitForRecord dev target rounds record log s = waitForStatus dev target rounds log t)
    (ht : t.history = s.history ++ asked.map (.requestRecord target record))
    (hu : u.history = t.history ++ polled.map (.status target)) (hrefused : asked.count none ≤ MAX_ERROR_COUNT)
    (haccepted : asked.getLast? = some (some ())) (hpolls : (statuses (polled.map (.status target))).length ≤ maxRounds)
    (h : Awaits dev target log (statuses (polled.map (.status target))) u (waitForStatus dev target rounds log t)) :
    Decides dev target rounds record log s := by
  have hrequests : requests (asked.map (.requestRecord target record) ++ polled.map (.status target)) = asked := by
    rw [requests_append, requests_asked, requests_polled, List.append_nil]
  have hstatuses : statuses (asked.map (.requestRecord target record) ++ polled.map (.status target)) =
      statuses (polled.map (.status target)) := by
    rw [statuses_append, statuses_asked, List.nil_append]
  refine ⟨asked.map (.requestRecord target record) ++ polled.map (.status target), u, ?_, ⟨asked, polled, rfl⟩,
    hrequests.symm ▸ hrefused, hstatuses.symm ▸ hpolls, fun hready => ?_, fun hunready => ?_⟩
  · rw [hu, ht, List.append_assoc]
  · have hlast := (ready_iff.mp hready).2
    generalize hw : waitForStatus dev target rounds log t = r at h
    cases h with
    | ready _ => exact fetchRecord_saves (hwait.trans hw)
    | failed h _ | timedOut h _ | noBus h _ => exact absurd hlast h
  · have hlast : (statuses (polled.map (.status target))).getLast? ≠ some .Success := fun hlast =>
      hunready (ready_iff.mpr ⟨haccepted, hlast⟩)
    generalize hw : waitForStatus dev target rounds log t = r at h
    cases h with
    | ready h => exact absurd h hlast
    | failed _ herror =>
        rw [fetchRecord_breaks (hwait.trans hw)]
        exact .errors (hstatuses.symm ▸ herror)
    | timedOut _ hbusy =>
        rw [fetchRecord_breaks (hwait.trans hw)]
        exact .timedOut (hstatuses.symm ▸ hbusy)
    | noBus _ hlost =>
        rw [fetchRecord_error (hwait.trans hw)]
        exact .unpolled (hrequests.symm ▸ haccepted) hlost

theorem decides_of_refused {asked : List (Option Unit)} {t : Session}
    (ht : t.history = s.history ++ asked.map (.requestRecord target record))
    (hrefused : asked.count none ≤ MAX_ERROR_COUNT) (haccepted : asked.getLast? ≠ some (some ()))
    (h : GivesUp dev target log (asked.map (.requestRecord target record)) t
      (fetchRecord dev target rounds record log s)) : Decides dev target rounds record log s := by
  have hrequests := requests_asked target record asked
  refine ⟨asked.map (.requestRecord target record), t, ht, ⟨asked, [], (List.append_nil _).symm⟩,
    hrequests.symm ▸ hrefused, ?_, fun hready => ?_, fun _ => h⟩
  · rw [statuses_asked]
    exact Nat.zero_le _
  · exact absurd (hrequests ▸ hready.1) haccepted

/-- What is known of the two inner loops, one after the other, decides the round. -/
theorem fetchRecord_decides (hrounds : maxRounds + 1 < rounds) : Decides dev target rounds record log s := by
  obtain ⟨es, rs, c, ⟨asked, rfl, rfl⟩, hc, hends⟩ :=
    loop_counts (requestRound_counts dev target record) ⟨[], rfl, rfl⟩ hrounds s
  have hrefused := hc.errorLe
  rw [requestReplies_refused] at hrefused
  have haccepted := hc.success.trans requestReplies_accepted
  rcases hends with ⟨t, hloop, ht, hmore⟩ | ⟨t, hloop, ht, hmore, hlost⟩
  · by_cases hres : c.res = .Success
    · have hwait : waitForRecord dev target rounds record log s = waitForStatus dev target rounds log t := by
        rw [waitForRecord, bind_of_ok hloop, if_neg (not_not.mpr hres)]
      obtain ⟨polled, u, hu, hpolls, hawaits⟩ := waitForStatus_awaits dev target log t hrounds
      exact decides_of_awaits hwait ht hu hrefused (haccepted.mp hres) hpolls hawaits
    · have hwait : waitForRecord dev target rounds record log s = .ok (.breaks c.res log) t := by
        rw [waitForRecord, bind_of_ok hloop, if_pos hres]
        rfl
      have hall : asked.count none = MAX_ERROR_COUNT := by
        have herror := hc.error
        have hbusy : c.busyCounter.toNat = 0 := by rw [hc.busy, count_requestStatus]
        rw [requestReplies_refused] at herror
        by_contra hless
        exact hmore ⟨by omega, by rw [hbusy]; decide, hres⟩
      refine decides_of_refused ht hrefused (haccepted.not.mp hres) ?_
      rw [fetchRecord_breaks hwait]
      exact .refused hres ((requests_asked target record asked).symm ▸ hall)
  · have hwait : waitForRecord dev target rounds record log s = .error .noBus t := by
      rw [waitForRecord, bind_of_error hloop]
    have hunaccepted := haccepted.not.mp hmore.2.2
    refine decides_of_refused ht hrefused hunaccepted ?_
    rw [fetchRecord_error hwait]
    exact .unasked ((requests_asked target record asked).symm ▸ hunaccepted) hlost

end Decisions

section Phases

variable (dev : Device) (target : Target) (s : Session)

theorem eraseContents_ends {rounds : Nat} (hrounds : maxRounds + 1 < rounds) :
    ∃ es, (final (eraseContents dev target rounds s)).history = s.history ++ es ∧ ForErasing target es ∧
      (eraseRequests es).count none ≤ MAX_ERROR_COUNT ∧
      (eraseStatuses es).length ≤ MAX_ERROR_COUNT + MAX_IN_PROGRESS_COUNT ∧
      Erases dev es (eraseContents dev target rounds s) := by
  obtain ⟨es, rs, c, hes, hc, hends⟩ :=
    loop_counts (eraseRound_counts dev target) (eraseReplies_nil target) hrounds s
  have herror := hes.error
  have hlength := hes.length
  have herrorLe := hc.errorLe
  have hlengthLe := length_le hc
  have hrefused : (eraseRequests es).count none ≤ MAX_ERROR_COUNT := by omega
  have hpolls : (eraseStatuses es).length ≤ maxRounds := by omega
  rcases hends with ⟨t, hloop, ht, hmore⟩ | ⟨t, hloop, ht, hmore, hlost⟩
  · rw [eraseContents, hloop]
    refine ⟨es, ht, hes.calls, hrefused, hpolls, ?_⟩
    by_cases hres : c.res = .Success
    · exact .done hres (hes.success.mpr (hc.success.mp hres))
    · refine .failed hres ?_
      rw [← herror, ← hes.busy, ← hc.error, ← hc.busy]
      by_contra hless
      push Not at hless
      exact hres ((success_iff_left hc hmore).mpr ⟨hless.1.symm, hless.2.symm⟩)
  · rw [eraseContents, hloop]
    refine ⟨es, ht, hes.calls, hrefused, hpolls, .noBus ?_ hlost⟩
    exact fun h => hc.success.not.mp hmore.2.2 (hes.success.mp h)

theorem exact_of_counts {lost : Nat → Prop} {round : Counters → ToolM (Counters ⊕ Counters)}
    {P : List Exchange → List OperationStatus → Prop} {errors busy : List Exchange → Nat}
    (hround : CountsReplies lost round P) (hP : P [] [])
    (hcount : ∀ es rs, P es rs → rs.count .Error = errors es ∧ rs.count .InProgress = busy es) :
    Exact round errors busy s := by
  intro c t h
  obtain ⟨es, rs, hhistory, hes, hc⟩ := tested_of_reached hround hP h
  obtain ⟨herror, hbusy⟩ := hcount es rs hes
  exact ⟨es, hhistory, hc.error.trans herror, hc.busy.trans hbusy⟩

theorem requestRound_exact (record : UInt64) :
    Exact (requestRound dev target record) (fun es => (requests es).count none) (fun _ => 0) s := by
  refine exact_of_counts s (requestRound_counts dev target record) ⟨[], rfl, rfl⟩ ?_
  rintro es rs ⟨asked, rfl, rfl⟩
  rw [requests_asked]
  exact ⟨requestReplies_refused asked, count_requestStatus asked⟩

theorem statusRound_exact : Exact (statusRound dev target) (fun es => (statuses es).count .Error)
    (fun es => (statuses es).count .InProgress) s := by
  refine exact_of_counts s (statusRound_counts dev target) ⟨[], rfl, rfl⟩ ?_
  rintro es rs ⟨polled, -, rfl⟩
  exact ⟨rfl, rfl⟩

theorem eraseRound_exact : Exact (eraseRound dev target)
    (fun es => (eraseRequests es).count none + (eraseStatuses es).count .Error)
    (fun es => (eraseStatuses es).count .InProgress) s :=
  exact_of_counts s (eraseRound_counts dev target) (eraseReplies_nil target) fun _ _ h => ⟨h.error, h.busy⟩

end Phases

section Refinement

variable {dev : Device} {target : Target} {record : UInt64} {rounds : Nat} {c : Counters}

def polls (c : Counters) : Nat × Nat := (c.errorCounter.toNat, c.busyCounter.toNat)

def roundsLeft (c : Counters) : Nat :=
  (MAX_ERROR_COUNT - c.errorCounter.toNat) + (MAX_IN_PROGRESS_COUNT - c.busyCounter.toNat)

/-- A loop of counted replies is the recursion that its rounds unfold. -/
theorem map_loop_of_counts {lost : Nat → Prop} {γ : Type} {f : Counters → γ} {spec : Counters → ToolM γ}
    {round : Counters → ToolM (Counters ⊕ Counters)} {P : List Exchange → List OperationStatus → Prop}
    (hround : CountsReplies lost round P) (hP : P [] []) (hrounds : maxRounds + 1 < rounds)
    (hspec : ∀ es rs c, P es rs → Counts rs c → spec c = round c >>= Sum.elim (fun c => pure (f c)) spec) :
    f <$> loop .unfinished round rounds reset = spec reset := by
  funext s
  refine map_loop_eq (I := Tested P s) (x := (reset, s)) (tested_follows hround) ?_ (tested_reset hP s) hrounds
  rintro c t ⟨es, rs, -, hes, hc⟩
  exact congrFun (hspec es rs c hes hc) t

def requestLeft (dev : Device) (target : Target) (record : UInt64) (c : Counters) : ToolM OperationStatus :=
  if c.res = .Success then pure c.res
  else requestRecord dev target record (MAX_ERROR_COUNT - c.errorCounter.toNat) c.res

theorem requestLeft_eq {rs : List OperationStatus} (hc : Counts rs c) : requestLeft dev target record c =
    requestRound dev target record c >>= Sum.elim (fun c => pure c.res) (requestLeft dev target record) := by
  have hle : c.errorCounter.toNat ≤ MAX_ERROR_COUNT := hc.error ▸ hc.errorLe
  by_cases hres : c.res = .Success
  · rw [requestLeft, if_pos hres, requestRound, if_neg (fun h => h.2 hres), pure_bind]
    rfl
  · rw [requestLeft, if_neg hres, requestRound]
    rcases Nat.eq_or_lt_of_le hle with hused | hless
    · rw [if_neg (by omega), pure_bind, hused, Nat.sub_self]
      rfl
    · have hlt : c.errorCounter.toNat < 3 := hless
      have hcount : (c.errorCounter + 1).toNat = c.errorCounter.toNat + 1 := by
        rw [UInt8.toNat_add, UInt8.toNat_one]
        omega
      have hleft : MAX_ERROR_COUNT - c.errorCounter.toNat = MAX_ERROR_COUNT - (c.errorCounter.toNat + 1) + 1 := by
        omega
      rw [if_pos ⟨hless, hres⟩, hleft, requestRecord, bind_assoc]
      congr 1
      funext res
      cases res <;> simp [requestLeft, hcount]

theorem requestRecord_eq (hrounds : maxRounds + 1 < rounds) :
    Counters.res <$> loop .unfinished (requestRound dev target record) rounds reset =
      requestRecord dev target record MAX_ERROR_COUNT .InProgress :=
  map_loop_of_counts (requestRound_counts dev target record) ⟨[], rfl, rfl⟩ hrounds fun _ _ _ _ hc => requestLeft_eq hc

def awaitLeft (dev : Device) (target : Target) (c : Counters) : ToolM (Nat × Nat) :=
  if c.res = .Success then pure (polls c)
  else awaitRecord dev target (roundsLeft c) c.errorCounter.toNat c.busyCounter.toNat

theorem roundsLeft_of_more (h : More c) : roundsLeft c = roundsLeft c - 1 + 1 := by
  obtain ⟨hmoreError, hmoreBusy, -⟩ := h
  rw [roundsLeft]
  omega

theorem roundsLeft_counted (h : More c) {res : OperationStatus} (hres : res ≠ .Success) :
    roundsLeft c = roundsLeft (counted c res) + 1 := by
  have herror := counted_error h res
  have hbusy := counted_busy h res
  obtain ⟨hmoreError, hmoreBusy, -⟩ := h
  rw [roundsLeft, roundsLeft, herror, hbusy]
  cases res <;> simp at hres ⊢ <;> omega

theorem awaitLeft_counted (h : More c) (res : OperationStatus) : awaitLeft dev target (counted c res) =
    match res with
    | .Success => pure (polls c)
    | .InProgress => awaitRecord dev target (roundsLeft c - 1) c.errorCounter.toNat (c.busyCounter.toNat + 1)
    | .Error => awaitRecord dev target (roundsLeft c - 1) (c.errorCounter.toNat + 1) c.busyCounter.toNat := by
  have herror := counted_error h res
  have hbusy := counted_busy h res
  have hres : (counted c res).res = res := rfl
  rw [awaitLeft, hres, polls, herror, hbusy]
  cases res with
  | Success => rfl
  | InProgress => rw [roundsLeft_counted (c := c) h (by decide : OperationStatus.InProgress ≠ .Success)]; rfl
  | Error => rw [roundsLeft_counted (c := c) h (by decide : OperationStatus.Error ≠ .Success)]; rfl

theorem awaitLeft_eq : awaitLeft dev target c =
    statusRound dev target c >>= Sum.elim (fun c => pure (polls c)) (awaitLeft dev target) := by
  by_cases hmore : More c
  · have hround := statusRound_more dev target hmore
    have hleft := roundsLeft_of_more hmore
    rw [awaitLeft, if_neg hmore.2.2, hround, bind_assoc, hleft, awaitRecord, if_pos ⟨hmore.1, hmore.2.1⟩]
    congr 1
    funext res
    rw [pure_bind, Sum.elim_inr, awaitLeft_counted hmore]
    cases res <;> rfl
  · rw [awaitLeft, statusRound_done dev target hmore, pure_bind, Sum.elim_inl]
    by_cases hres : c.res = .Success
    · rw [if_pos hres]
    · rw [if_neg hres, awaitRecord_stop (fun h => hmore ⟨h.1, h.2, hres⟩), polls]

theorem awaitRecord_eq (hrounds : maxRounds + 1 < rounds) :
    polls <$> loop .unfinished (statusRound dev target) rounds reset = awaitRecord dev target maxRounds 0 0 :=
  map_loop_of_counts (statusRound_counts dev target) ⟨[], rfl, rfl⟩ hrounds fun _ _ _ _ _ => awaitLeft_eq

def eraseLeft (dev : Device) (target : Target) (c : Counters) : ToolM OperationStatus :=
  erase dev target (roundsLeft c) c.res c.errorCounter.toNat c.busyCounter.toNat

theorem erase_stop {rounds errorCounter busyCounter : Nat} {res : OperationStatus}
    (h : ¬(errorCounter < MAX_ERROR_COUNT ∧ busyCounter < MAX_IN_PROGRESS_COUNT ∧ res ≠ .Success)) :
    erase dev target rounds res errorCounter busyCounter = pure res := by
  cases rounds with
  | zero => rfl
  | succ rounds => rw [erase, if_neg h]

theorem eraseLeft_counted (h : More c) (res : OperationStatus) : eraseLeft dev target (counted c res) =
    erase dev target (roundsLeft c - 1) res (c.errorCounter.toNat + if res = .Error then 1 else 0)
      (c.busyCounter.toNat + if res = .InProgress then 1 else 0) := by
  have hres : (counted c res).res = res := rfl
  rw [eraseLeft, hres, counted_error h, counted_busy h]
  by_cases hsuccess : res = .Success
  · rw [erase_stop (fun h => h.2.2 hsuccess), erase_stop (fun h => h.2.2 hsuccess)]
  · rw [roundsLeft_counted h hsuccess, Nat.add_sub_cancel]

theorem eraseLeft_eq : eraseLeft dev target c =
    eraseRound dev target c >>= Sum.elim (fun c => pure c.res) (eraseLeft dev target) := by
  by_cases hmore : More c
  · have hleft := roundsLeft_of_more hmore
    have hguard : c.errorCounter.toNat < MAX_ERROR_COUNT ∧ c.busyCounter.toNat < MAX_IN_PROGRESS_COUNT ∧
        c.res ≠ .Success := hmore
    rw [eraseLeft, hleft, erase, if_pos hguard, eraseRound, if_pos hguard, sendSwitchEraseCommand]
    simp only [bind_assoc]
    congr 1
    funext reply
    cases reply with
    | none =>
        have hcounted : counted c .Error = { c with res := .Error, errorCounter := c.errorCounter + 1 } := by
          simp [counted]
        simp only [pure_bind, Option.isSome_none, Bool.false_eq_true, if_false, ne_eq, reduceCtorEq, not_false_eq_true,
          if_true, Sum.elim_inr]
        rw [← hcounted]
        exact (eraseLeft_counted hmore .Error).symm
    | some reply =>
        simp only [pure_bind, bind_assoc, Option.isSome_some, if_true, ne_eq, not_true_eq_false, if_false,
          reduceCtorEq, UInt8.add_zero]
        congr 1
        funext res
        exact (eraseLeft_counted hmore res).symm
  · rw [eraseRound_done dev target hmore, pure_bind, Sum.elim_inl, eraseLeft, erase_stop hmore]

theorem erase_eq (hrounds : maxRounds + 1 < rounds) :
    Counters.res <$> eraseContents dev target rounds = erase dev target maxRounds .InProgress 0 0 :=
  map_loop_of_counts (eraseRound_counts dev target) (eraseReplies_nil target) hrounds fun _ _ _ _ _ => eraseLeft_eq

def outcome (f : Fetched) : OperationStatus ⊕ UInt64 :=
  match f.next with
  | none => .inl f.res
  | some next => if next ≠ 0 then .inr next else .inl .Success

/-- The rounds with their counters and messages are the rounds of the model without them. -/
theorem fetchRecord_eq (hrounds : maxRounds + 1 < rounds) (log : List String) :
    outcome <$> fetchRecord dev target rounds record log = nextRecord dev target record := by
  rw [nextRecord, saveRequested, ← requestRecord_eq hrounds, ← awaitRecord_eq hrounds, fetchRecord, waitForRecord]
  simp only [waitForStatus, bind_assoc, map_bind, bind_map_left]
  congr 1
  funext c
  by_cases hres : c.res = .Success
  · simp only [hres, ne_eq, not_true_eq_false, if_false, bind_assoc, pure_bind]
    congr 1
    funext d
    by_cases herror : MAX_ERROR_COUNT = d.errorCounter.toNat
    · simp only [decision, polls, herror, if_true, map_pure, pure_bind, outcome]
      simp
    · by_cases hbusy : MAX_IN_PROGRESS_COUNT = d.busyCounter.toNat
      · simp only [decision, polls, herror, Ne.symm herror, hbusy, if_true, if_false, map_pure, pure_bind, outcome]
        simp
      · simp only [decision, polls, herror, Ne.symm herror, hbusy, Ne.symm hbusy, if_false, bind_assoc, map_bind]
        congr 1
        funext saved
        cases saved with
        | Success =>
            simp only [afterSave, ne_eq, not_true_eq_false, if_false, if_true, pure_bind, map_bind, map_pure, outcome]
            congr 1
            funext next
            by_cases hnext : next = 0 <;> simp [hnext]
        | InProgress => rfl
        | Error => rfl
  · simp only [ne_eq, hres, not_false_eq_true, if_true, pure_bind, map_pure]
    rfl

end Refinement

end DumpCollector.Nsm.Polling
