import DumpCollector.Nsm.NetDump

namespace DumpCollector.Nsm.Retrieval

open Lib.Effects NetDump

def accepted : Exchange → Option UInt64
  | .requestRecord _ nextRecord (some _) => some nextRecord
  | _ => none

def descriptor : Exchange → Option (Option Reads)
  | .fd _ reply => some reply
  | _ => none

def nextHandle : Exchange → Option (Option UInt64)
  | .nextRecordHandle _ reply => some reply
  | _ => none

def erasure : Exchange → Option (Option Unit)
  | .eraseDebugInfo _ reply => some reply
  | _ => none

def requested (s : Session) : List UInt64 := s.history.filterMap accepted

def descriptors (s : Session) : List (Option Reads) := s.history.filterMap descriptor

def handles (s : Session) : List (Option UInt64) := s.history.filterMap nextHandle

def erasures (s : Session) : List (Option Unit) := s.history.filterMap erasure

structure Record where
  handle : UInt64
  reads : Reads

/-- The bytes appended in a session are those of a chain of records: it begins at handle
zero and follows the replies, each descriptor has been read to its end, and the last
reply is the value zero. -/
structure Retrieves (s : Session) (first : Record) (rest : List Record) : Prop where
  start : first.handle = 0
  requested : requested s = (first :: rest).map Record.handle
  descriptors : descriptors s = (first :: rest).map fun r => some r.reads
  handles : handles s = rest.map (fun r => some r.handle) ++ [some 0]
  toEndOfFile : ∀ r ∈ first :: rest, r.reads.toEndOfFile = true
  output : s.output = (first :: rest).flatMap fun r => r.reads.content

def Complete (s : Session) : Prop := ∃ first rest, Retrieves s first rest

structure Clean (s : Session) : Prop where
  descriptors : ∀ reads, some reads ∈ descriptors s → reads.toEndOfFile = true
  handles : none ∉ handles s

section Stretches

structure Adds (s t : Session) (records : List UInt64) (fds : List (Option Reads)) (next : List (Option UInt64))
    (bytes : List UInt8) : Prop where
  requested : requested t = requested s ++ records
  descriptors : descriptors t = descriptors s ++ fds
  handles : handles t = handles s ++ next
  output : t.output = s.output ++ bytes

variable {s t u : Session}

theorem adds_nothing (s : Session) : Adds s s [] [] [] [] := by
  constructor <;> simp

theorem Adds.trans {r r' : List UInt64} {f f' : List (Option Reads)} {n n' : List (Option UInt64)}
    {b b' : List UInt8} (h : Adds s t r f n b) (k : Adds t u r' f' n' b') :
    Adds s u (r ++ r') (f ++ f') (n ++ n') (b ++ b') where
  requested := by rw [k.requested, h.requested, List.append_assoc]
  descriptors := by rw [k.descriptors, h.descriptors, List.append_assoc]
  handles := by rw [k.handles, h.handles, List.append_assoc]
  output := by rw [k.output, h.output, List.append_assoc]

theorem adds_exchange (s : Session) (e : Exchange) : Adds s { s with history := s.history ++ [e] }
    (accepted e).toList (descriptor e).toList (nextHandle e).toList [] := by
  constructor
  all_goals simp [requested, descriptors, handles, List.filterMap_append, List.filterMap_cons]
  all_goals cases e <;> rename_i reply <;> cases reply <;> rfl

theorem call_ok {α : Type} {answer : Nat → Reply α} {exchange : Option α → Exchange} {reply : Option α}
    (h : call answer exchange s = .ok reply t) : t = { s with history := s.history ++ [exchange reply] } := by
  rw [call] at h
  rw [get_bind] at h
  cases hanswer : answer s.history.length with
  | answered a =>
      rw [hanswer] at h
      cases h
      rfl
  | failed =>
      rw [hanswer] at h
      cases h
      rfl
  | noBus =>
      rw [hanswer] at h
      cases h

end Stretches

section Rounds

variable {dev : Device} {target : Target} {record next : UInt64} {s t : Session}

theorem saveRequested_iff : saveRequested dev target s = .ok .Success t ↔
    ∃ counters u, awaitRecord dev target maxRounds 0 0 s = .ok counters u ∧ counters.1 ≠ MAX_ERROR_COUNT ∧
      counters.2 ≠ MAX_IN_PROGRESS_COUNT ∧ saveRecord dev target u = .ok .Success t := by
  constructor
  · intro h
    obtain ⟨counters, u, hawait, hrest⟩ := bind_eq_ok.mp h
    by_cases herror : counters.1 = MAX_ERROR_COUNT
    · rw [if_pos herror] at hrest
      cases hrest
    · rw [if_neg herror] at hrest
      by_cases hbusy : counters.2 = MAX_IN_PROGRESS_COUNT
      · rw [if_pos hbusy] at hrest
        cases hrest
      · rw [if_neg hbusy] at hrest
        obtain ⟨res, v, hsave, hret⟩ := bind_eq_ok.mp hrest
        cases res with
        | Success =>
            cases hret
            exact ⟨counters, u, hawait, herror, hbusy, hsave⟩
        | InProgress => cases hret
        | Error => cases hret
  · rintro ⟨counters, u, hawait, herror, hbusy, hsave⟩
    refine (bind_of_ok hawait _).trans ?_
    rw [if_neg herror, if_neg hbusy, bind_of_ok hsave]
    rfl

def nextRecord (dev : Device) (target : Target) (record : UInt64) : ToolM (OperationStatus ⊕ UInt64) := do
  let res ← requestRecord dev target record MAX_ERROR_COUNT .InProgress
  if res ≠ .Success then pure (.inl res)
  else do
    let res ← saveRequested dev target
    if res ≠ .Success then pure (.inl res)
    else do
      let next ← getNextRecord dev target
      if next ≠ 0 then pure (.inr next) else pure (.inl .Success)

theorem retrieve_succ (records : Nat) (record : UInt64) : retrieve dev target (records + 1) record = (do
    match ← nextRecord dev target record with
    | .inl res => pure res
    | .inr next => retrieve dev target records next) := by
  rw [retrieve, nextRecord]
  simp only [bind_assoc]
  congr 1
  funext res
  by_cases hres : res ≠ .Success
  · rw [if_pos hres, if_pos hres, pure_bind]
  · rw [if_neg hres, if_neg hres]
    simp only [bind_assoc]
    congr 1
    funext res
    by_cases hres : res ≠ .Success
    · rw [if_pos hres, if_pos hres, pure_bind]
    · rw [if_neg hres, if_neg hres]
      simp only [bind_assoc]
      congr 1
      funext next
      by_cases hnext : next ≠ 0
      · rw [if_pos hnext, if_pos hnext, pure_bind]
      · rw [if_neg hnext, if_neg hnext, pure_bind]

def Fetches (dev : Device) (target : Target) (record : UInt64) (s : Session) (next : UInt64) (t : Session) : Prop :=
  ∃ u v, requestRecord dev target record MAX_ERROR_COUNT .InProgress s = .ok .Success u ∧
    saveRequested dev target u = .ok .Success v ∧ getNextRecord dev target v = .ok next t

theorem nextRecord_iff {out : OperationStatus ⊕ UInt64} (hout : ∀ res, out = .inl res → res = .Success) :
    nextRecord dev target record s = .ok out t ↔
      ∃ next, Fetches dev target record s next t ∧ out = if next ≠ 0 then .inr next else .inl .Success := by
  constructor
  · intro h
    obtain ⟨res, u, hrequest, hbody⟩ := bind_eq_ok.mp h
    by_cases hres : res ≠ .Success
    · rw [if_pos hres] at hbody
      cases hbody
      exact absurd (hout res rfl) hres
    · obtain rfl := Decidable.not_not.mp hres
      rw [if_neg hres] at hbody
      obtain ⟨res, v, hsaved, hrest⟩ := bind_eq_ok.mp hbody
      by_cases hres : res ≠ .Success
      · rw [if_pos hres] at hrest
        cases hrest
        exact absurd (hout res rfl) hres
      · obtain rfl := Decidable.not_not.mp hres
        rw [if_neg hres] at hrest
        obtain ⟨next, w, hnext, hret⟩ := bind_eq_ok.mp hrest
        by_cases hzero : next ≠ 0
        · rw [if_pos hzero] at hret
          cases hret
          exact ⟨next, ⟨u, v, hrequest, hsaved, hnext⟩, (if_pos hzero).symm⟩
        · rw [if_neg hzero] at hret
          cases hret
          exact ⟨next, ⟨u, v, hrequest, hsaved, hnext⟩, (if_neg hzero).symm⟩
  · rintro ⟨next, ⟨u, v, hrequest, hsaved, hnext⟩, rfl⟩
    refine (bind_of_ok hrequest _).trans ((bind_of_ok hsaved _).trans ((bind_of_ok hnext _).trans ?_))
    split <;> rfl

theorem nextRecord_inr_iff : nextRecord dev target record s = .ok (.inr next) t ↔
    next ≠ 0 ∧ Fetches dev target record s next t := by
  refine (nextRecord_iff fun res h => by cases h).trans ?_
  constructor
  · rintro ⟨next', h, hout⟩
    split at hout
    · rename_i hzero
      cases hout
      exact ⟨hzero, h⟩
    · cases hout
  · rintro ⟨hzero, h⟩
    exact ⟨next, h, (if_pos hzero).symm⟩

theorem nextRecord_inl_iff : nextRecord dev target record s = .ok (.inl .Success) t ↔
    Fetches dev target record s 0 t := by
  rw [nextRecord_iff fun res h => (Sum.inl.inj h).symm]
  constructor
  · rintro ⟨next, h, hout⟩
    split at hout
    · cases hout
    · rename_i hzero
      exact Decidable.not_not.mp hzero ▸ h
  · intro h
    exact ⟨0, h, rfl⟩

theorem retrieve_success {records : Nat} (h : retrieve dev target (records + 1) record s = .ok .Success t) :
    Fetches dev target record s 0 t ∨ ∃ next u, next ≠ 0 ∧ Fetches dev target record s next u ∧
      retrieve dev target records next u = .ok .Success t := by
  rw [retrieve_succ] at h
  obtain ⟨out, u, hround, hrest⟩ := bind_eq_ok.mp h
  cases out with
  | inl res =>
      cases hrest
      exact .inl (nextRecord_inl_iff.mp hround)
  | inr next =>
      obtain ⟨hzero, hfetches⟩ := nextRecord_inr_iff.mp hround
      exact .inr ⟨next, u, hzero, hfetches, hrest⟩

end Rounds

section Phases

variable {dev : Device} {target : Target} {s t : Session}

theorem sendRequestRecordCommand_ok {record : UInt64} {res : OperationStatus}
    (h : sendRequestRecordCommand dev target record s = .ok res t) :
    Adds s t (if res = .Success then [record] else []) [] [] [] := by
  obtain ⟨reply, u, hcall, hret⟩ := bind_eq_ok.mp h
  obtain rfl := call_ok hcall
  cases hret
  cases reply <;> exact adds_exchange _ _

theorem requestRecord_ok {record : UInt64} {errors : Nat} {res res' : OperationStatus} (hres : res ≠ .Success)
    (h : requestRecord dev target record errors res s = .ok res' t) :
    Adds s t (if res' = .Success then [record] else []) [] [] [] := by
  induction errors generalizing s res with
  | zero =>
      cases h
      rw [if_neg hres]
      exact adds_nothing _
  | succ errors ih =>
      obtain ⟨res₁, u, hsend, hrest⟩ := bind_eq_ok.mp h
      have hadds := sendRequestRecordCommand_ok hsend
      by_cases hsuccess : res₁ = .Success
      · rw [if_pos hsuccess] at hrest
        cases hrest
        exact hadds
      · rw [if_neg hsuccess] at hrest hadds
        exact hadds.trans (ih hsuccess hrest)

theorem getRequestRecordCommandStatus_ok {res : OperationStatus}
    (h : getRequestRecordCommandStatus dev target s = .ok res t) : Adds s t [] [] [] [] := by
  obtain ⟨reply, u, hcall, hret⟩ := bind_eq_ok.mp h
  obtain rfl := call_ok hcall
  cases hret
  exact adds_exchange _ _

theorem awaitRecord_ok {rounds errorCounter busyCounter : Nat} {counters : Nat × Nat}
    (h : awaitRecord dev target rounds errorCounter busyCounter s = .ok counters t) : Adds s t [] [] [] [] := by
  induction rounds generalizing s errorCounter busyCounter with
  | zero =>
      cases h
      exact adds_nothing _
  | succ rounds ih =>
      simp only [awaitRecord] at h
      by_cases hmore : errorCounter < MAX_ERROR_COUNT ∧ busyCounter < MAX_IN_PROGRESS_COUNT
      · rw [if_pos hmore] at h
        obtain ⟨res, u, hstatus, hrest⟩ := bind_eq_ok.mp h
        have hadds := getRequestRecordCommandStatus_ok hstatus
        cases res with
        | Success =>
            cases hrest
            exact hadds
        | InProgress => exact hadds.trans (ih hrest)
        | Error => exact hadds.trans (ih hrest)
      · rw [if_neg hmore] at h
        cases h
        exact adds_nothing _

theorem saveRecord_ok (h : saveRecord dev target s = .ok .Success t) :
    ∃ reads, Adds s t [] [some reads] [] reads.content := by
  obtain ⟨reply, u, hcall, hret⟩ := bind_eq_ok.mp h
  obtain rfl := call_ok hcall
  cases reply with
  | none => cases hret
  | some reads =>
      cases hret
      have hadds := adds_exchange s (.fd target (some reads))
      exact ⟨reads, hadds.requested, hadds.descriptors, hadds.handles, rfl⟩

theorem saveRequested_ok (h : saveRequested dev target s = .ok .Success t) :
    ∃ reads, Adds s t [] [some reads] [] reads.content := by
  obtain ⟨counters, u, hawait, -, -, hsave⟩ := saveRequested_iff.mp h
  obtain ⟨reads, hreads⟩ := saveRecord_ok hsave
  exact ⟨reads, (awaitRecord_ok hawait).trans hreads⟩

theorem getNextRecord_ok {record : UInt64} (h : getNextRecord dev target s = .ok record t) :
    ∃ reply, record = reply.getD 0 ∧ Adds s t [] [] [reply] [] := by
  obtain ⟨reply, u, hcall, hret⟩ := bind_eq_ok.mp h
  obtain rfl := call_ok hcall
  cases hret
  exact ⟨reply, rfl, adds_exchange _ _⟩

theorem fetches_adds {record next : UInt64} (h : Fetches dev target record s next t) :
    ∃ reads reply, next = reply.getD 0 ∧ Adds s t [record] [some reads] [reply] reads.content := by
  obtain ⟨u, v, hrequest, hsaved, hnext⟩ := h
  obtain ⟨reads, hreads⟩ := saveRequested_ok hsaved
  obtain ⟨reply, hreply, hasked⟩ := getNextRecord_ok hnext
  have hadds := ((requestRecord_ok (by decide) hrequest).trans hreads).trans hasked
  exact ⟨reads, reply, hreply, by simpa using hadds⟩

/-- The loop lemma, by induction on the number of records: a retrieval that succeeds has
followed a chain, up to a reply that is zero or a query that failed. -/
theorem retrieve_ok {records : Nat} {record : UInt64} (h : retrieve dev target records record s = .ok .Success t) :
    ∃ (reads : Reads) (rest : List Record) (last : Option UInt64), last.getD 0 = 0 ∧
      Adds s t (record :: rest.map Record.handle)
      (some reads :: rest.map fun r => some r.reads) (rest.map (fun r => some r.handle) ++ [last])
      (reads.content ++ rest.flatMap fun r => r.reads.content) := by
  induction records generalizing s record with
  | zero => cases h
  | succ records ih =>
      rcases retrieve_success h with hlast | ⟨next, u, hzero, hfetches, hrest⟩
      · obtain ⟨reads, reply, hreply, hadds⟩ := fetches_adds hlast
        exact ⟨reads, [], reply, hreply.symm, by simpa using hadds⟩
      · obtain ⟨reads, reply, rfl, hadds⟩ := fetches_adds hfetches
        obtain ⟨reads', rest, last, hlast, htail⟩ := ih hrest
        have hreply : reply = some (reply.getD 0) := by
          cases reply with
          | none => exact absurd rfl hzero
          | some record => rfl
        refine ⟨reads, ⟨reply.getD 0, reads'⟩ :: rest, last, hlast, ?_⟩
        have hall := hadds.trans htail
        rw [hreply] at hall
        simpa using hall

end Phases

section Completeness

variable {s t : Session}

theorem clean_of_complete (h : Complete t) : Clean t := by
  obtain ⟨first, rest, hr⟩ := h
  constructor
  · intro reads hmem
    rw [hr.descriptors] at hmem
    obtain ⟨r, hr', heq⟩ := List.mem_map.mp hmem
    cases heq
    exact hr.toEndOfFile r hr'
  · rw [hr.handles]
    simp

theorem complete_iff_clean {records : Nat} {dev : Device} {target : Target}
    (h : retrieve dev target records 0 start = .ok .Success t) : Complete t ↔ Clean t := by
  refine ⟨clean_of_complete, fun hclean => ?_⟩
  obtain ⟨reads, rest, last, hlast, hadds⟩ := retrieve_ok h
  have hfds : descriptors t = some reads :: rest.map fun r => some r.reads := hadds.descriptors
  have hnext : handles t = rest.map (fun r => some r.handle) ++ [last] := hadds.handles
  refine ⟨⟨0, reads⟩, rest, rfl, hadds.requested, hfds, ?_, ?_, hadds.output⟩
  · cases last with
    | none =>
        refine absurd ?_ hclean.handles
        simp [hnext]
    | some record =>
        have hzero : record = 0 := hlast
        rw [hnext, hzero]
  · intro r hr
    apply hclean.descriptors r.reads
    rw [hfds]
    rcases List.mem_cons.mp hr with rfl | hr
    · exact List.mem_cons_self
    · exact List.mem_cons_of_mem _ (List.mem_map.mpr ⟨r, hr, rfl⟩)

end Completeness

section Frames

structure SameRecords (s t : Session) : Prop where
  requested : requested t = requested s
  descriptors : descriptors t = descriptors s
  handles : handles t = handles s
  output : t.output = s.output

instance reflSameRecords : Std.Refl SameRecords := ⟨fun _ => ⟨rfl, rfl, rfl, rfl⟩⟩

instance transSameRecords : IsTrans Session SameRecords :=
  ⟨fun _ _ _ h k => ⟨k.requested.trans h.requested, k.descriptors.trans h.descriptors, k.handles.trans h.handles,
    k.output.trans h.output⟩⟩

def SameErasures (s t : Session) : Prop := erasures t = erasures s

instance reflSameErasures : Std.Refl SameErasures := ⟨fun _ => rfl⟩

instance transSameErasures : IsTrans Session SameErasures := ⟨fun _ _ _ h k => k.trans h⟩

theorem complete_of_same {s t : Session} (h : SameRecords s t) : (Complete t ↔ Complete s) ∧ (Clean t ↔ Clean s) := by
  constructor
  · constructor
    · rintro ⟨first, rest, hr⟩
      exact ⟨first, rest, hr.start, h.requested ▸ hr.requested, h.descriptors ▸ hr.descriptors,
        h.handles ▸ hr.handles, hr.toEndOfFile, h.output ▸ hr.output⟩
    · rintro ⟨first, rest, hr⟩
      exact ⟨first, rest, hr.start, h.requested ▸ hr.requested, h.descriptors ▸ hr.descriptors,
        h.handles ▸ hr.handles, hr.toEndOfFile, h.output ▸ hr.output⟩
  · constructor
    · exact fun hc => ⟨h.descriptors ▸ hc.descriptors, h.handles ▸ hc.handles⟩
    · exact fun hc => ⟨h.descriptors ▸ hc.descriptors, h.handles ▸ hc.handles⟩

section Relations

variable {R : Session → Session → Prop} [Std.Refl R]

theorem keeps_call {α : Type} {answer : Nat → Reply α} {exchange : Option α → Exchange}
    (h : ∀ s reply, R s { s with history := s.history ++ [exchange reply] }) : Keeps R (call answer exchange) := by
  refine keeps_get_bind fun s => ?_
  cases hanswer : answer s.history.length with
  | answered a => exact h s (some a)
  | failed => exact h s none
  | noBus => exact refl s

variable [IsTrans Session R] {dev : Device} {target : Target}

/-- What every exchange of a retrieval with a device, and every write, keeps. -/
structure KeptByRecords (R : Session → Session → Prop) (target : Target) : Prop where
  exchange : ∀ s e, e.target = target → erasure e = none → R s { s with history := s.history ++ [e] }
  output : ∀ (s : Session) bytes, R s { s with output := s.output ++ bytes }

section Records

variable (hR : KeptByRecords R target)
include hR

theorem keeps_requestRecord (record : UInt64) (errors : Nat) (res : OperationStatus) :
    Keeps R (requestRecord dev target record errors res) := by
  induction errors generalizing res with
  | zero => exact keeps_pure res
  | succ errors ih =>
      have hsend : Keeps R (sendRequestRecordCommand dev target record) :=
        keeps_bind (keeps_call fun s reply => hR.exchange s _ rfl rfl) fun _ => keeps_pure _
      exact keeps_bind hsend fun res => keeps_ite (keeps_pure res) (ih res)

theorem keeps_awaitRecord (rounds errorCounter busyCounter : Nat) :
    Keeps R (awaitRecord dev target rounds errorCounter busyCounter) := by
  induction rounds generalizing errorCounter busyCounter with
  | zero => exact keeps_pure _
  | succ rounds ih =>
      have hstatus : Keeps R (getRequestRecordCommandStatus dev target) :=
        keeps_bind (keeps_call fun s reply => hR.exchange s _ rfl rfl) fun _ => keeps_pure _
      refine keeps_ite (keeps_bind hstatus fun res => ?_) (keeps_pure _)
      cases res with
      | Success => exact keeps_pure _
      | InProgress => exact ih _ _
      | Error => exact ih _ _

theorem keeps_saveRequested : Keeps R (saveRequested dev target) := by
  refine keeps_bind (keeps_awaitRecord hR _ _ _) fun counters => ?_
  refine keeps_ite (keeps_pure _) (keeps_ite (keeps_pure _) ?_)
  refine keeps_bind (keeps_bind ?_ fun reply => ?_) fun _ => keeps_pure _
  · exact keeps_call fun s reply => hR.exchange s _ rfl rfl
  · cases reply with
    | none => exact keeps_pure _
    | some reads => exact keeps_bind (keeps_modify fun s => hR.output s _) fun _ => keeps_pure _

theorem keeps_retrieve (records : Nat) (record : UInt64) : Keeps R (retrieve dev target records record) := by
  induction records generalizing record with
  | zero => exact keeps_throw _
  | succ records ih =>
      refine keeps_bind (keeps_requestRecord hR _ _ _) fun res => keeps_ite (keeps_pure _) ?_
      refine keeps_bind (keeps_saveRequested hR) fun res => keeps_ite (keeps_pure _) ?_
      refine keeps_bind (keeps_bind (keeps_call fun s reply => ?_) fun _ => keeps_pure _) fun next => ?_
      · exact hR.exchange s _ rfl rfl
      · exact keeps_ite (ih next) (keeps_pure _)

end Records

theorem keeps_erase
    (hR : ∀ s e, e.target = target → accepted e = none → descriptor e = none → nextHandle e = none →
      R s { s with history := s.history ++ [e] })
    (rounds : Nat) (res : OperationStatus) (errorCounter busyCounter : Nat) :
    Keeps R (erase dev target rounds res errorCounter busyCounter) := by
  induction rounds generalizing res errorCounter busyCounter with
  | zero => exact keeps_pure _
  | succ rounds ih =>
      refine keeps_ite (keeps_bind (keeps_bind (keeps_call fun s reply => ?_) fun _ => keeps_pure _) fun res => ?_)
        (keeps_pure _)
      · exact hR s _ rfl rfl rfl rfl
      · refine keeps_ite (ih _ _ _) (keeps_bind (keeps_bind (keeps_call fun s reply => ?_) fun _ => keeps_pure _) ?_)
        · exact hR s _ rfl rfl rfl rfl
        · exact fun res => ih _ _ _

end Relations

theorem sameErasures_exchange (s : Session) {e : Exchange} (he : erasure e = none) :
    SameErasures s { s with history := s.history ++ [e] } := by
  simp [SameErasures, erasures, he]

theorem sameRecords_exchange (s : Session) {e : Exchange} (hr : accepted e = none) (hd : descriptor e = none)
    (hn : nextHandle e = none) : SameRecords s { s with history := s.history ++ [e] } := by
  constructor <;> simp [requested, descriptors, handles, hr, hd, hn]

theorem sameErasures_kept (target : Target) : KeptByRecords SameErasures target where
  exchange s _ _ he := sameErasures_exchange s he
  output _ _ := rfl

end Frames

/-- What the erase command, and the result Success, promise: exactly if no read and no
query that looked like an end was an error. -/
theorem retrieval_complete_iff (dev : Device) (records : Nat) :
    (∀ switchIndex, erasures (final (getSwitchDump dev records switchIndex start)) ≠ [] →
      (Complete (final (getSwitchDump dev records switchIndex start)) ↔
        Clean (final (getSwitchDump dev records switchIndex start)))) ∧
    (∀ t, getLinkMgmtNICDump dev records start = .ok .Success t → (Complete t ↔ Clean t)) ∧
    (∀ t, getLinkMgmtNICLog dev records start = .ok .Success t → (Complete t ↔ Clean t)) ∧
    (∀ GPUIndex t, getGPUDump dev records GPUIndex start = .ok .Success t → (Complete t ↔ Clean t)) := by
  refine ⟨fun switchIndex herased => ?_, fun t h => complete_iff_clean h, fun t h => complete_iff_clean h,
    fun GPUIndex t h => complete_iff_clean h⟩
  have hkeeps : SameErasures start (final (retrieve dev ⟨.NVSwitch, switchIndex⟩ records 0 start)) :=
    keeps_retrieve (sameErasures_kept _) records 0 start
  unfold getSwitchDump at herased ⊢
  cases hr : retrieve dev ⟨.NVSwitch, switchIndex⟩ records 0 start with
  | error e t =>
      rw [bind_of_error hr] at herased
      rw [hr] at hkeeps
      exact absurd hkeeps herased
  | ok res t =>
      rw [bind_of_ok hr] at herased ⊢
      rw [hr] at hkeeps
      cases res with
      | Success =>
          obtain ⟨hcomplete, hclean⟩ := complete_of_same
            (keeps_erase (fun s _ _ hr hd hn => sameRecords_exchange s hr hd hn) maxRounds .InProgress 0 0 t)
          exact hcomplete.trans ((complete_iff_clean hr).trans hclean.symm)
      | InProgress => exact absurd hkeeps herased
      | Error => exact absurd hkeeps herased

section Devices

def twoRecords (next : Reply UInt64) : Device where
  requestRecord _ := .answered ()
  status _ := .answered "com.nvidia.Dump.DebugInfo.OperationStatus.Success"
  fd _ := .answered (.bytes 1 [2] .endOfFile)
  nextRecordHandle calls := if calls = 3 then next else .answered 0
  eraseDebugInfo _ := .answered ()
  eraseDebugInfoStatus _ :=
    .answered ("com.nvidia.Dump.Erase.OperationStatus.Success", "com.nvidia.Dump.Erase.EraseStatus.DataErased")

theorem erased_after_failed_query :
    erasures (final (getSwitchDump (twoRecords .failed) 9 0 start)) ≠ [] ∧
    ¬ Complete (final (getSwitchDump (twoRecords .failed) 9 0 start)) :=
  ⟨by decide, fun h => (clean_of_complete h).handles (by decide)⟩

theorem twoRecords_complete : Complete (final (getSwitchDump (twoRecords (.answered 7)) 9 0 start)) := by
  refine ((retrieval_complete_iff (twoRecords (.answered 7)) 9).1 0 (by decide)).mpr ⟨fun reads h => ?_, by decide⟩
  have hfds : descriptors (final (getSwitchDump (twoRecords (.answered 7)) 9 0 start)) =
      [some (.bytes 1 [2] .endOfFile), some (.bytes 1 [2] .endOfFile)] := by decide
  rw [hfds] at h
  obtain rfl : reads = .bytes 1 [2] .endOfFile := by simpa using h
  rfl

end Devices

end DumpCollector.Nsm.Retrieval
