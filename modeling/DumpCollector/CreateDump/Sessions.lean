import DumpCollector.CreateDump.Waiting
import DumpCollector.Lib.Traces

namespace DumpCollector.CreateDump.Sessions

open Std Lib.Effects Lib.Loops Lib.Maps Lib.Traces Call Server Processing Waiting

variable {cfg : Config} {env : Environment} {rounds : Nat}

section Frames

/-- The parts of the world that only messages, calls and copies change. -/
structure Quiet (s t : World) : Prop where
  tmp : t.tmp = s.tmp
  sent : t.sent = s.sent
  calls : t.calls = s.calls

instance reflQuiet : Std.Refl Quiet := ⟨fun _ => ⟨rfl, rfl, rfl⟩⟩

instance transQuiet : IsTrans World Quiet :=
  ⟨fun _ _ _ h k => ⟨k.tmp.trans h.tmp, k.sent.trans h.sent, k.calls.trans h.calls⟩⟩

structure Silent (s t : World) : Prop where
  sent : t.sent = s.sent
  calls : t.calls = s.calls

instance reflSilent : Std.Refl Silent := ⟨fun _ => ⟨rfl, rfl⟩⟩

instance transSilent : IsTrans World Silent := ⟨fun _ _ _ h k => ⟨k.sent.trans h.sent, k.calls.trans h.calls⟩⟩

theorem Quiet.silent {s t : World} (h : Quiet s t) : Silent s t := ⟨h.sent, h.calls⟩

theorem quiet_sleep (ms : Nat) : Keeps Quiet (sleep ms) := keeps_modify fun _ => ⟨rfl, rfl, rfl⟩

theorem quiet_waitRound (c : Nat × Nat) : Keeps Quiet (waitRound env c) := by
  refine keeps_bind (quiet_sleep 50) fun _ => keeps_ite (keeps_throw _) (keeps_bind ?_ fun reply => ?_)
  · exact keeps_get_bind fun w => keeps_bind (keeps_modify fun _ => ⟨rfl, rfl, rfl⟩) (fun _ => keeps_pure _) w
  · cases reply with
    | completed | inProgress => exact keeps_pure _
    | another | mistyped => exact keeps_throw _
    | refused => exact keeps_ite (keeps_throw _) (keeps_pure _)

theorem quiet_waited : Keeps Quiet (waited env rounds) := by
  intro w
  have hquiet : Quiet w (final (loop Exn.unfinished (waitRound env) rounds (0, 0) w)) :=
    keeps_loop quiet_waitRound rounds (0, 0) w
  rw [waited, waitForDumpCreation]
  cases h : loop Exn.unfinished (waitRound env) rounds (0, 0) w with
  | ok a t =>
      rw [h] at hquiet
      exact hquiet
  | error e t =>
      rw [h] at hquiet
      cases e <;> exact hquiet

theorem copyTo_silent (w : World) (dest : Message) (file : File) : Silent w (copyTo env w dest file) := by
  rw [copyTo]
  split
  · exact ⟨rfl, rfl⟩
  · exact ⟨rfl, rfl⟩
  · split <;> exact ⟨rfl, rfl⟩

theorem silent_copyFile (fPath : Message) (file : Message × File) : Keeps Silent (copyFile env fPath file) := by
  refine keeps_bind (fun w => (quiet_sleep 1000 w).silent) fun _ => keeps_get_bind fun w => ?_
  cases env.copied file.1 w.looks with
  | some what => exact refl w
  | none => exact keeps_bind (keeps_modify fun w => copyTo_silent w _ _) (fun _ => keeps_pure _) w

theorem silent_waitForFile (time_p : Nat) : Keeps Silent (waitForFile time_p) := keeps_ite (keeps_pure _) (keeps_pure _)

theorem silent_copyRound (fPath : Message) (time_p : Nat) : Keeps Silent (copyRound env fPath time_p) := by
  refine keeps_bind (fun w => (quiet_sleep 50 w).silent) fun _ => keeps_get_bind fun w => ?_
  refine keeps_bind (keeps_modify fun _ => ⟨rfl, rfl⟩) (fun _ => ?_) w
  cases env.look fPath w.looks with
  | failed => exact keeps_throw _
  | absent => exact silent_waitForFile time_p
  | listed entries =>
      dsimp only
      cases entries.findSome? regular with
      | some file => exact keeps_bind (silent_copyFile fPath file) fun _ => keeps_pure _
      | none => exact silent_waitForFile time_p

theorem silent_copyDumpToTmpDir (dPath : Message) : Keeps Silent (copyDumpToTmpDir cfg env rounds dPath) := by
  rw [copyDumpToTmpDir]
  cases sourcePath cfg dPath with
  | none => exact keeps_pure _
  | some sourcePath =>
      refine keeps_bind (fun w => (quiet_waited w).silent) fun result => ?_
      cases result with
      | some errorMsg => exact keeps_pure _
      | none => exact keeps_loop (silent_copyRound _) rounds 0

end Frames

section Messages

def deleting : Message := text "Deleting existing dump files..."

def Report (type : Message) (ms : List Message) : Prop :=
  (∃ what, ms = [failure type what]) ∨
    ∃ path result, ms = [successful type path, text "Waiting for dump creation to finish...", result]

def Complaint (message : Message) : Prop :=
  ∃ name, isCopy name = true ∧ message = text "Failed to delete dump file: " ++ name

theorem sends_sendMsg (msg : Message) : Emits World.sent (fun _ ms => ms = [msg]) (sendMsg env msg) := by
  refine emits_get_bind fun w => emits_ite ?_ (emits_throw _)
  intro s a t h
  cases h
  exact ⟨[msg], rfl, rfl⟩

theorem createDump_ok {type : Message} {s t : World} {result : Int × Message}
    (h : createDump env type s = .ok result t) : t = { s with calls := s.calls ++ [type] } ∧
      (result.1 = 0 ∨ result.1 ≠ 0 ∧ ∃ what, result.2 = failure type what) := by
  rw [createDump, get_bind, modify_bind] at h
  cases hreply : env.created s.calls.length with
  | entry path =>
      rw [hreply] at h
      cases h
      exact ⟨rfl, .inl rfl⟩
  | refused what =>
      rw [hreply] at h
      cases h
      exact ⟨rfl, .inr ⟨nofun, what, rfl⟩⟩
  | noBus =>
      rw [hreply] at h
      cases h

theorem sends_processSingleDump (type : Message) :
    Emits World.sent (fun _ => Report type) (processSingleDump cfg env rounds type) := by
  have hcreate : Emits World.sent (fun result ms => ms = [] ∧
      (result.1 = 0 ∨ result.1 ≠ 0 ∧ ∃ what, result.2 = failure type what)) (createDump env type) := by
    intro s result t h
    obtain ⟨rfl, hresult⟩ := createDump_ok h
    exact ⟨[], ⟨rfl, hresult⟩, (List.append_nil _).symm⟩
  refine emits_bind hcreate fun result => ?_
  by_cases hzero : result.1 = 0
  · simp only [hzero, if_true]
    refine emits_bind (sends_sendMsg _) fun _ => emits_bind (sends_sendMsg _) fun _ => ?_
    refine emits_after (fun w => (silent_copyDumpToTmpDir _ w).sent) fun response => ?_
    refine emits_mono (fun _ ms hms => ?_) (sends_sendMsg _)
    rintro xs rfl ys rfl zs ⟨rfl, -⟩
    subst hms
    exact .inr ⟨result.2, response.2, rfl⟩
  · simp only [hzero, if_false]
    refine emits_mono (fun _ ms hms => ?_) (sends_sendMsg _)
    rintro zs ⟨rfl, hreturned⟩
    obtain ⟨what, hwhat⟩ := hreturned.resolve_left not_false |>.2
    rw [hms, hwhat]
    exact .inl ⟨what, rfl⟩

theorem sends_deleteCopy (name : Message) :
    Emits World.sent (fun _ ms => ∀ m ∈ ms, Complaint m) (deleteCopy env name) := by
  refine emits_get_bind fun w => ?_
  split
  · split
    · rename_i hcopy
      refine emits_ite ?_ (emits_mono (fun _ ms hms m hm => ?_) (sends_sendMsg _))
      · intro s a t h
        cases h
        exact ⟨[], fun m hm => absurd hm List.not_mem_nil, (List.append_nil _).symm⟩
      · rw [hms] at hm
        exact ⟨name, hcopy, List.mem_singleton.mp hm⟩
    · exact emits_pure fun m hm => absurd hm List.not_mem_nil
  · exact emits_pure fun m hm => absurd hm List.not_mem_nil

theorem sends_deleteCopies : Emits World.sent (fun _ ms => ∀ m ∈ ms, Complaint m) (deleteCopies env) :=
  emits_get_bind fun _ => emits_forM_all sends_deleteCopy

/-- What is sent for a request: one report for each type, in their order. -/
def Session (type : Message) (ms : List Message) : Prop :=
  ∃ complaints reports, (∀ m ∈ complaints, Complaint m) ∧ List.Forall₂ Report (requestedTypes type) reports ∧
    ms = deleting :: complaints ++ reports.flatten

theorem sends_processDumpRequest (type : Message) :
    Emits World.sent (fun _ => Session type) (processDumpRequest cfg env rounds type) := by
  refine emits_bind (sends_sendMsg _) fun _ => emits_bind sends_deleteCopies fun _ => ?_
  refine emits_mono (fun _ ms hms => ?_) (emits_forM fun x _ => sends_processSingleDump x)
  obtain ⟨reports, hreports, rfl⟩ := hms
  rintro complaints hcomplaints xs rfl
  exact ⟨complaints, reports, hcomplaints, hreports, by simp [deleting]⟩

end Messages

section Calls

def SameCalls (s t : World) : Prop := t.calls = s.calls

instance reflSameCalls : Std.Refl SameCalls := ⟨fun _ => rfl⟩

instance transSameCalls : IsTrans World SameCalls := ⟨fun _ _ _ h k => k.trans h⟩

theorem sendMsg_calls (msg : Message) : Keeps SameCalls (sendMsg env msg) := by
  refine keeps_get_bind fun w => ?_
  cases env.written w.sent.length with
  | true => rfl
  | false => exact refl w

theorem deleteCopy_calls (name : Message) : Keeps SameCalls (deleteCopy env name) := by
  refine keeps_get_bind fun w => ?_
  rcases w.tmp[name]? with _ | _ | file
  · exact refl w
  · exact refl w
  · dsimp only
    cases isCopy name with
    | false => exact refl w
    | true =>
        cases env.removed name with
        | true => rfl
        | false => exact sendMsg_calls _ w

theorem deleteCopies_calls : Keeps SameCalls (deleteCopies env) :=
  keeps_get_bind fun w => keeps_forM deleteCopy_calls w

theorem calls_processSingleDump (type : Message) :
    Emits World.calls (fun _ ms => ms = [type]) (processSingleDump cfg env rounds type) := by
  have hcreate : Emits World.calls (fun _ ms => ms = [type]) (createDump env type) := by
    intro s result t h
    obtain ⟨rfl, -⟩ := createDump_ok h
    exact ⟨[type], rfl, rfl⟩
  have hsend : ∀ msg, Emits World.calls (fun _ ys => ∀ xs, xs = [type] → xs ++ ys = [type]) (sendMsg env msg) := by
    intro msg s a t h
    refine ⟨[], fun xs hxs => by rw [hxs, List.append_nil], ?_⟩
    rw [List.append_nil]
    exact (sendMsg_calls msg).ok h
  refine emits_bind hcreate fun result => emits_ite ?_ (hsend _)
  refine emits_after (sendMsg_calls _) fun _ => emits_after (sendMsg_calls _) fun _ => ?_
  exact emits_after (fun w => (silent_copyDumpToTmpDir _ w).calls) fun response => hsend _

theorem flatten_singletons {xs : List Message} {blocks : List (List Message)}
    (h : List.Forall₂ (fun x ms => ms = [x]) xs blocks) : blocks.flatten = xs := by
  induction h with
  | nil => rfl
  | cons hx _ ih =>
      subst hx
      rw [List.flatten_cons, ih]
      rfl

theorem calls_processDumpRequest (type : Message) :
    Emits World.calls (fun _ ms => ms = requestedTypes type) (processDumpRequest cfg env rounds type) := by
  refine emits_after (sendMsg_calls _) fun _ => emits_after deleteCopies_calls fun _ => ?_
  refine emits_mono (fun _ ms hms => ?_) (emits_forM fun x _ => calls_processSingleDump x)
  obtain ⟨blocks, hblocks, rfl⟩ := hms
  exact flatten_singletons hblocks

end Calls

section Service

theorem handler_command {type : Message} (h : type ∈ SUPPORTED_DUMP_TYPES) :
    handler (command type) = [.processDumpRequest type, .sendMsg END_CMD] := by
  simp only [SUPPORTED_DUMP_TYPES, List.mem_cons, List.not_mem_nil, or_false] at h
  rcases h with rfl | rfl | rfl | rfl | rfl
  all_goals decide +kernel

def clientType (type : Message) : Message := if type = [] then text "BMC" else type

theorem clientMessage_eq_some {type message : Message} (h : clientMessage type = some message) :
    clientType type ∈ SUPPORTED_DUMP_TYPES ∧ message = command (clientType type) := by
  rw [clientMessage] at h
  by_cases hempty : type = []
  · rw [if_pos hempty] at h
    cases h
    rw [clientType, if_pos hempty]
    exact ⟨by decide, rfl⟩
  · rw [if_neg hempty] at h
    rw [clientType, if_neg hempty]
    split at h
    · rename_i hmem
      cases h
      exact ⟨hmem, rfl⟩
    · cases h

theorem serve_command {type : Message} (h : type ∈ SUPPORTED_DUMP_TYPES) :
    serve cfg env rounds (command type) =
      (processDumpRequest cfg env rounds type >>= fun _ => sendMsg env END_CMD) := by
  rw [serve, handler_command h, List.forM_cons, forM_singleton]
  rfl

theorem loop_ends_of_stops {messages : List Message} (h : ∃ m ∈ messages, Stops m) :
    ∃ n c, Call.loop n ⟨messages, []⟩ = some c ∧ c.shown <+: messages.map shownAs := by
  have hsplit : ∃ pre m rest, messages = pre ++ m :: rest ∧ (∀ m' ∈ pre, ¬ Stops m') ∧ Stops m := by
    obtain ⟨m, hm, hstops⟩ := h
    induction messages with
    | nil => cases hm
    | cons x xs ih =>
        by_cases hx : Stops x
        · exact ⟨[], x, xs, rfl, fun m' hm' => absurd hm' List.not_mem_nil, hx⟩
        · have hrest : m ∈ xs := (List.mem_cons.mp hm).resolve_left fun heq => hx (heq ▸ hstops)
          obtain ⟨pre, m', rest, rfl, hpre, hm'⟩ := ih hrest
          refine ⟨x :: pre, m', rest, rfl, fun y hy => ?_, hm'⟩
          rcases List.mem_cons.mp hy with rfl | hy
          · exact hx
          · exact hpre y hy
  obtain ⟨pre, m, rest, rfl, hpre, hstops⟩ := hsplit
  refine ⟨pre.length + 1, _, loop_of_stops hstops rest hpre [], ?_⟩
  rw [List.nil_append, List.map_append]
  exact List.prefix_append _ _

/-- A client that is served: the managers are called once for each type that it has asked for, in
their order, whatever becomes of the dumps. It is sent a report of each of them and then the end,
and it ends, having shown what it was sent from the beginning, each message as its buffer holds
it; all of it, unless a message before the end has the letters of the end in it. -/
theorem session_served {type message : Message} (hclient : clientMessage type = some message) {s t : World} {u : Unit}
    (hrun : serve cfg env rounds message s = .ok u t) :
    ∃ ms, t.sent = s.sent ++ ms ++ [END_CMD] ∧ Session (clientType type) ms ∧
      t.calls = s.calls ++ requestedTypes (clientType type) ∧
      ∃ n c, Call.loop n ⟨ms ++ [END_CMD], []⟩ = some c ∧ c.shown <+: (ms ++ [END_CMD]).map shownAs ∧
        ((∀ m ∈ ms, ¬ Stops m) → c.shown = ms.map shownAs) := by
  obtain ⟨hsupported, rfl⟩ := clientMessage_eq_some hclient
  rw [serve_command hsupported] at hrun
  obtain ⟨_, v, hprocessed, hend⟩ := bind_eq_ok.mp hrun
  obtain ⟨ms, hsession, hsent⟩ := sends_processDumpRequest _ s _ v hprocessed
  obtain ⟨types, rfl, hcalls⟩ := calls_processDumpRequest _ s _ v hprocessed
  obtain ⟨_, rfl, hlast⟩ := sends_sendMsg END_CMD v _ t hend
  have hstops : Stops END_CMD := by
    rw [stops_iff]
    decide
  refine ⟨ms, by rw [hlast, hsent], hsession, ?_, ?_⟩
  · rw [← hcalls]
    exact (sendMsg_calls END_CMD).ok hend
  · by_cases hbefore : ∀ m ∈ ms, ¬ Stops m
    · refine ⟨ms.length + 1, _, loop_of_stops hstops [] hbefore [], ?_, fun _ => rfl⟩
      rw [List.nil_append, List.map_append]
      exact List.prefix_append _ _
    · have hlast : ∃ m ∈ ms ++ [END_CMD], Stops m :=
        ⟨END_CMD, List.mem_append_right _ List.mem_cons_self, hstops⟩
      obtain ⟨n, c, hloop, hshown⟩ := loop_ends_of_stops hlast
      exact ⟨n, c, hloop, hshown, fun h => absurd h hbefore⟩

end Service

end DumpCollector.CreateDump.Sessions
