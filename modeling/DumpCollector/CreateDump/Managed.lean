import DumpCollector.CreateDump.Copies
import DumpCollector.DumpNames
import DumpCollector.Lives

namespace DumpCollector.CreateDump.Managed

open Std Lib.Directory Lib.Effects Lib.Loops Lib.Maps Lib.Refinement Lib.Runs Entries FileNames DumpNames Requests
open State Dispatch DumpCollector.Steps Slots Children FileHandle Lifecycle Lives
open Call Server Processing Waiting Sessions Copies

variable {E X C R I : Type} [DumpEntry E]

section Objects

def objectPath (baseEntryPath : Message) (n : Nat) : Message := baseEntryPath ++ slash :: text (toString n)

def progressOf : OperationStatus → Progress
  | .InProgress => .inProgress
  | .Completed => .completed
  | .Failed | .Aborted => .another

/-- What the bus answers to a request for the status of the object with the path. A slot
without an entry has no object. -/
def statusAt (baseEntryPath : Message) (s : Daemon E X C) (path : Message) : Progress :=
  let slot := s.entries.toList.find? fun slot => decide (objectPath baseEntryPath slot.1 = path)
  ((slot.bind Prod.snd).map fun e => progressOf (DumpEntry.base e).status).getD .refused

theorem digitByte_inj {c d : Char} (hc : c.isDigit = true) (hd : d.isDigit = true)
    (h : UInt8.ofNat c.toNat = UInt8.ofNat d.toNat) : c = d := by
  have hlt : ∀ c : Char, c.isDigit = true → c.toNat < 256 := by
    intro c hc
    rw [Char.isDigit, Bool.and_eq_true, decide_eq_true_eq, decide_eq_true_eq] at hc
    have hle : c.toNat ≤ 57 := hc.2
    omega
  have hnat := congrArg UInt8.toNat h
  rw [UInt8.toNat_ofNat', UInt8.toNat_ofNat', Nat.mod_eq_of_lt (hlt c hc), Nat.mod_eq_of_lt (hlt d hd)] at hnat
  exact Char.toNat_inj.mp hnat

theorem digits_inj {xs ys : List Char} (hxs : ∀ c ∈ xs, c.isDigit = true) (hys : ∀ c ∈ ys, c.isDigit = true)
    (h : xs.map (fun c => UInt8.ofNat c.toNat) = ys.map fun c => UInt8.ofNat c.toNat) : xs = ys := by
  induction xs generalizing ys with
  | nil => exact (List.map_eq_nil_iff.mp h.symm).symm
  | cons x xs ih =>
      cases ys with
      | nil => cases h
      | cons y ys =>
          rw [List.map_cons, List.map_cons, List.cons.injEq] at h
          obtain rfl := digitByte_inj (hxs _ List.mem_cons_self) (hys _ List.mem_cons_self) h.1
          rw [ih (fun c hc => hxs c (List.mem_cons_of_mem _ hc)) (fun c hc => hys c (List.mem_cons_of_mem _ hc)) h.2]

theorem objectPath_inj {baseEntryPath : Message} {n k : Nat}
    (h : objectPath baseEntryPath n = objectPath baseEntryPath k) : n = k := by
  have htext := (List.cons.inj (List.append_cancel_left h)).2
  have hdigits := digits_inj (digits_padded 0 n).2 (digits_padded 0 k).2 (by
    rw [padded_toList, padded_toList]
    exact htext)
  rw [← value_padded 0 n, hdigits, value_padded]

theorem statusAt_objectPath (baseEntryPath : Message) (s : Daemon E X C) (n : Nat) :
    statusAt baseEntryPath s (objectPath baseEntryPath n) =
      ((s.entries[n]?.getD none).map fun e => progressOf (DumpEntry.base e).status).getD .refused := by
  let isThere (slot : Nat × Option E) : Bool := objectPath baseEntryPath slot.1 = objectPath baseEntryPath n
  have hpath : ∀ k v, isThere (k, v) = true ↔ k = n := by
    intro k v
    exact decide_eq_true_iff.trans ⟨objectPath_inj, fun h => by rw [h]⟩
  rw [statusAt]
  change (((s.entries.toList.find? isThere).bind Prod.snd).map _).getD _ = _
  cases hfind : s.entries.toList.find? isThere with
  | none =>
      cases hn : s.entries[n]? with
      | none => rfl
      | some v => exact absurd ((find_none hfind hn).symm.trans ((hpath n v).mpr rfl)) nofun
  | some slot =>
      obtain ⟨k, v⟩ := slot
      obtain ⟨hk, hfound⟩ := find_get hfind
      obtain rfl := (hpath k v).mp hfound
      rw [hk]
      rfl

end Objects

section Server

variable {cfg : Config} {env : Environment} {rounds : Nat}

structure Aside (s t : World) : Prop where
  tmp : t.tmp = s.tmp
  polls : t.polls = s.polls

instance reflAside : Std.Refl Aside := ⟨fun _ => ⟨rfl, rfl⟩⟩

instance transAside : IsTrans World Aside := ⟨fun _ _ _ h k => ⟨k.tmp.trans h.tmp, k.polls.trans h.polls⟩⟩

theorem aside_sendMsg (env : Environment) (msg : Message) : Keeps Aside (sendMsg env msg) :=
  keeps_get_bind fun w => keeps_ite (keeps_modify fun _ => ⟨rfl, rfl⟩) (keeps_throw _) w

def Returned (env : Environment) (rounds polls : Nat) : Prop :=
  ∃ w w', w.polls = polls ∧ waitForDumpCreation env rounds w = .ok () w'

def Raised (env : Environment) (rounds polls : Nat) (errorMsg : Message) : Prop :=
  ∃ w w', w.polls = polls ∧ waitForDumpCreation env rounds w = .error (.createDumpDbus errorMsg) w'

theorem copyDumpToTmpDir_cases (cfg : Config) (env : Environment) (rounds : Nat) (dPath : Message) (w : World) :
    Returned env rounds w.polls ∨
      (final (copyDumpToTmpDir cfg env rounds dPath w)).tmp = w.tmp ∧
        ∀ result t, copyDumpToTmpDir cfg env rounds dPath w = .ok result t →
          result.2 = text "Unknown dump file path" ∨ Raised env rounds w.polls result.2 := by
  rw [copyDumpToTmpDir]
  cases sourcePath cfg dPath with
  | none =>
      refine .inr ⟨rfl, fun result t h => ?_⟩
      cases h
      exact .inl rfl
  | some sourcePath =>
      have hquiet : Quiet w (final (waited env rounds w)) := quiet_waited w
      cases hwait : waitForDumpCreation env rounds w with
      | ok a w' => exact .inl ⟨w, w', rfl, hwait⟩
      | error e w' =>
          right
          cases e with
          | createDumpDbus errorMsg =>
              have hwaited : waited env rounds w = .ok (some errorMsg) w' := by rw [waited, hwait]
              rw [hwaited] at hquiet
              dsimp only
              rw [bind_of_ok hwaited]
              refine ⟨hquiet.tmp, fun result t h => ?_⟩
              cases h
              exact .inr ⟨w, w', rfl, hwait⟩
          | stdException | badVariantAccess | filesystemError | sdBusError | unfinished =>
              have hwaited : ∃ e, waited env rounds w = .error e w' := ⟨_, by rw [waited, hwait]⟩
              obtain ⟨e, hwaited⟩ := hwaited
              rw [hwaited] at hquiet
              dsimp only
              rw [bind_of_error hwaited]
              refine ⟨hquiet.tmp, fun result t h => ?_⟩
              cases h

def Complains (env : Environment) (message : Message) : Prop := ∃ name k, env.copied name k = some message

theorem copyRound_result {fPath : Message} {time_p : Nat} {w t : World} {result : Int × Message}
    (h : copyRound env fPath time_p w = .ok (.inl result) t) :
    result.2 = text "Copying dump to tmp dir failed: timeout." ∨ Complains env result.2 ∨
      ∃ name, result.2 = copying fPath name := by
  rcases copyRound_cases env fPath time_p w with herror | ⟨-, hwait⟩ | ⟨file, -, hcopy⟩
  · cases herror.symm.trans h
  · have hresult := hwait.symm.trans h
    rw [waitForFile] at hresult
    split at hresult
    · cases hresult
      exact .inl rfl
    · cases hresult
  · obtain ⟨result', u, hfile, hpure⟩ := bind_eq_ok.mp (hcopy.symm.trans h)
    cases hpure
    simp only [copyFile, sleep, modify_bind, get_bind] at hfile
    cases hcopied : env.copied file.1 (looked w).looks with
    | some what =>
        rw [hcopied] at hfile
        cases hfile
        exact .inr (.inl ⟨_, _, hcopied⟩)
    | none =>
        rw [hcopied] at hfile
        cases hfile
        exact .inr (.inr ⟨file.1, rfl⟩)

theorem copyDumpToTmpDir_message {dPath : Message} {w t : World} {result : Int × Message}
    (h : copyDumpToTmpDir cfg env rounds dPath w = .ok result t) :
    result.2 = text "Unknown dump file path" ∨ Raised env rounds w.polls result.2 ∨
      result.2 = text "Copying dump to tmp dir failed: timeout." ∨ Complains env result.2 ∨
      ∃ fPath name, result.2 = copying fPath name := by
  rw [copyDumpToTmpDir] at h
  cases hsource : sourcePath cfg dPath with
  | none =>
      rw [hsource] at h
      cases h
      exact .inl rfl
  | some sourcePath =>
      rw [hsource] at h
      obtain ⟨errorMsg, u, hwaited, hrest⟩ := bind_eq_ok.mp h
      cases errorMsg with
      | some errorMsg =>
          cases hrest
          refine .inr (.inl ?_)
          rw [waited] at hwaited
          split at hwaited
          · cases hwaited
          · rename_i hraised
            cases hwaited
            exact ⟨w, _, rfl, hraised⟩
          · cases hwaited
      | none =>
          obtain ⟨time_p, v, hround⟩ := last_round hrest
          rcases copyRound_result hround with htimeout | hcomplains | ⟨name, hcopying⟩
          · exact .inr (.inr (.inl htimeout))
          · exact .inr (.inr (.inr (.inl hcomplains)))
          · exact .inr (.inr (.inr (.inr ⟨_, name, hcopying⟩)))

theorem createDump_entry {type path : Message} {w : World} (h : env.created w.calls.length = .entry path) :
    createDump env type w = .ok (0, path) { w with calls := w.calls ++ [type] } := by
  rw [createDump, get_bind, modify_bind, h]
  rfl

theorem processSingleDump_entry (cfg : Config) (rounds : Nat) (type : Message) {path : Message} {w : World}
    (h : env.created w.calls.length = .entry path) :
    ∃ u, Aside w u ∧ ((∃ e, processSingleDump cfg env rounds type w = .error e u) ∨
      processSingleDump cfg env rounds type w =
        (copyDumpToTmpDir cfg env rounds path >>= fun result => sendMsg env result.2) u) := by
  have hcalled : Aside w { w with calls := w.calls ++ [type] } := ⟨rfl, rfl⟩
  rw [processSingleDump, bind_of_ok (createDump_entry h)]
  dsimp only
  rw [if_pos rfl]
  have hfirst := aside_sendMsg env (successful type path) { w with calls := w.calls ++ [type] }
  cases hsend : sendMsg env (successful type path) { w with calls := w.calls ++ [type] } with
  | error e u =>
      rw [hsend] at hfirst
      exact ⟨u, trans_of Aside hcalled hfirst, .inl ⟨e, bind_of_error hsend _⟩⟩
  | ok a u =>
      rw [hsend] at hfirst
      rw [bind_of_ok hsend]
      have hsecond := aside_sendMsg env (text "Waiting for dump creation to finish...") u
      cases hsend' : sendMsg env (text "Waiting for dump creation to finish...") u with
      | error e v =>
          rw [hsend'] at hsecond
          exact ⟨v, trans_of Aside (trans_of Aside hcalled hfirst) hsecond, .inl ⟨e, bind_of_error hsend' _⟩⟩
      | ok a v =>
          rw [hsend'] at hsecond
          exact ⟨v, trans_of Aside (trans_of Aside hcalled hfirst) hsecond, .inr (bind_of_ok hsend' _)⟩

theorem tmp_changed {type path : Message} {w : World} (h : env.created w.calls.length = .entry path)
    (hchanged : (final (processSingleDump cfg env rounds type w)).tmp ≠ w.tmp) : Returned env rounds w.polls := by
  obtain ⟨u, haside, ⟨e, herror⟩ | hrun⟩ := processSingleDump_entry cfg rounds type h
  · rw [herror] at hchanged
    exact absurd haside.tmp hchanged
  · rw [hrun] at hchanged
    rw [← haside.polls]
    rcases copyDumpToTmpDir_cases cfg env rounds path u with hreturned | ⟨htmp, -⟩
    · exact hreturned
    · refine absurd ?_ hchanged
      cases hcopy : copyDumpToTmpDir cfg env rounds path u with
      | error e v =>
          rw [hcopy] at htmp
          rw [bind_of_error hcopy]
          exact htmp.trans haside.tmp
      | ok result v =>
          rw [hcopy] at htmp
          rw [bind_of_ok hcopy]
          exact ((aside_sendMsg env result.2 v).tmp.trans htmp).trans haside.tmp

def failed : Message := text "Dump creation failed."

theorem failed_sent {type path : Message} {w t : World} {a : Unit} (h : env.created w.calls.length = .entry path)
    (hrun : processSingleDump cfg env rounds type w = .ok a t) (hlast : t.sent.getLast? = some failed) :
    Raised env rounds w.polls failed ∨ Complains env failed := by
  obtain ⟨u, haside, ⟨e, herror⟩ | hrest⟩ := processSingleDump_entry cfg rounds type h
  · cases herror.symm.trans hrun
  · obtain ⟨result, v, hcopy, hsend⟩ := bind_eq_ok.mp (hrest.symm.trans hrun)
    obtain ⟨ms, rfl, hsent⟩ := sends_sendMsg result.2 v a t hsend
    rw [hsent, List.getLast?_concat, Option.some.injEq] at hlast
    rw [← haside.polls]
    rcases copyDumpToTmpDir_message hcopy with hunknown | hraised | htimeout | hcomplains | ⟨fPath, name, hcopying⟩
    · exact absurd (hunknown.symm.trans hlast) (by decide)
    · exact .inl (hlast ▸ hraised)
    · exact absurd (htimeout.symm.trans hlast) (by decide)
    · exact .inr (hlast ▸ hcomplains)
    · rw [hcopying, copying] at hlast
      have hhead := congrArg List.head? hlast
      simp [text, failed] at hhead

end Server

section History

variable {ops : Ops E X C R I}

/-- How a manager goes on from a state: what it does up to each of the polls, and the state that
the poll finds. -/
structure History (ops : Ops E X C R I) (t : Daemon E X C) where
  events : Nat → List (Event R I)
  states : Nat → Daemon E X C
  first : states 0 = t
  goesOn : ∀ k, run (step ops) (states k) (events k) = some (states (k + 1))

variable {t : Daemon E X C}

def History.until (h : History ops t) : Nat → List (Event R I)
  | 0 => []
  | k + 1 => h.until k ++ h.events k

theorem History.run_until (h : History ops t) (k : Nat) : run (step ops) t (h.until k) = some (h.states k) := by
  induction k with
  | zero => rw [h.first, History.until, run_nil]
  | succ k ih => exact run_append.mpr ⟨h.states k, ih, h.goesOn k⟩

/-- A server that has asked a manager for a dump and waits for it: the id is one that was not in
use, and each poll either fails or finds the state of its object. -/
structure Awaited (ops : Ops E X C R I) (started : Daemon E X C → Prop) (env : Environment) (w : World) where
  baseEntryPath : Message
  id : Nat
  start : Daemon E X C
  before : Daemon E X C
  after : Daemon E X C
  events : List (Event R I)
  request : R
  history : History ops after
  isStarted : started start
  ran : run (step ops) start events = some before
  asked : step ops before (.createDump request) = some after
  returned : ops.createDump request before = .ok (some id) after
  unused : id ∉ before.entries
  created : env.created w.calls.length = .entry (objectPath baseEntryPath id)
  answered : ∀ k, env.progress (w.polls + k) = .refused ∨
    env.progress (w.polls + k) = statusAt baseEntryPath (history.states (k + 1)) (objectPath baseEntryPath id)

variable {started : Daemon E X C → Prop} {env : Environment} {w : World}

/-- A file has been taken up for the dump since the request, and a poll finds it completed with
this file. -/
def Awaited.Collected (a : Awaited ops started env w) (named : Path → Option Nat) : Prop :=
  ∃ k < maxPolls, ∃ file e, (a.history.states (k + 1)).entries[a.id]? = some (some e) ∧
    (DumpEntry.base e).status = .Completed ∧ DumpEntry.file e = some file ∧
    SomeStep (step ops) (fun u ev => (∃ io, ev = .handle io) ∧ takenUp named u a.id = some file) a.after
      (a.history.until (k + 1))

/-- A collector of the dump has ended badly since the request, or one of an earlier dump with the
same id had done so. -/
def Awaited.Failed (a : Awaited ops started env w) : Prop :=
  Broken a.id a.before ∨ ∃ k < maxPolls, SomeStep (step ops) (Breaks a.id) a.after (a.history.until (k + 1))

variable {named : Path → Option Nat}

variable (a : Awaited ops started env w)

theorem Awaited.collecting (hops : Sound ops named) :
    ∃ e, a.after.entries[a.id]? = some (some e) ∧ Holds a.id a.after (.dump (origin e) .collecting) := by
  obtain ⟨e, he, hst, hfile⟩ := requested_entry hops a.returned a.unused
  exact ⟨e, he, holds_collecting he hst hfile⟩

/-- A poll finds what the entry says. -/
theorem Awaited.reply (k : Nat) : env.progress (w.polls + k) = .refused ∨
    ∃ e, (a.history.states (k + 1)).entries[a.id]? = some (some e) ∧
      env.progress (w.polls + k) = progressOf (DumpEntry.base e).status := by
  rcases a.answered k with hrefused | hreply
  · exact .inl hrefused
  · rw [statusAt_objectPath] at hreply
    rcases hentry : (a.history.states (k + 1)).entries[a.id]? with _ | _ | e
    · rw [hentry] at hreply
      exact .inl hreply
    · rw [hentry] at hreply
      exact .inl hreply
    · rw [hentry] at hreply
      exact .inr ⟨e, rfl, hreply⟩

theorem Awaited.holds (hops : Sound ops named) (horigin : KeepsOrigin ops) (k : Nat) :
    ∃ slot, Holds a.id (a.history.states k) slot := by
  obtain ⟨e, -, hslot⟩ := a.collecting hops
  obtain ⟨ls, slot, -, -, hafter⟩ := (step_refines hops horigin a.id).run (a.history.run_until k) hslot
  exact ⟨slot, hafter⟩

theorem Awaited.collected_of_returned (hops : Sound ops named) (horigin : KeepsOrigin ops) {rounds : Nat}
    (hrounds : maxPolls < rounds) (h : Returned env rounds w.polls) : a.Collected named := by
  obtain ⟨v, v', hpolls, hreturned⟩ := h
  obtain ⟨polls, result, houtcome⟩ := exists_outcome (replies env v)
  obtain ⟨-, u, -, -, -, -, -, -, hrun⟩ := waitForDumpCreation_eq hrounds houtcome
  cases result with
  | error e => cases hrun.symm.trans hreturned
  | ok _ =>
      obtain ⟨k, hk, -, hcompleted, -⟩ := outcome_ok.mp houtcome
      rw [replies, hpolls] at hcompleted
      rcases a.reply k with hrefused | ⟨e, he, hreply⟩
      · cases hrefused.symm.trans hcompleted
      · have hst : (DumpEntry.base e).status = .Completed := by
          rw [hreply] at hcompleted
          cases hst : (DumpEntry.base e).status with
          | Completed => rfl
          | InProgress | Failed | Aborted =>
              rw [hst] at hcompleted
              cases hcompleted
        obtain ⟨slot, hslot⟩ := a.holds hops horigin (k + 1)
        rw [Holds, he] at hslot
        obtain ⟨phase, rfl, hphase, hfile⟩ := represents_entry hslot
        rw [hst] at hphase
        cases phase with
        | collecting | failed => cases hphase
        | collected file =>
            obtain ⟨e₀, -, hbefore⟩ := a.collecting hops
            refine ⟨k, hk, file, e, he, hst, hfile, ?_⟩
            have hrun := a.history.run_until (k + 1)
            rcases run_file hops horigin hbefore hrun he hfile with ⟨o, phase, heq, hphase⟩ | hsome
            · cases heq
              cases hphase
            · exact hsome

omit [DumpEntry E] in
theorem another_of_failed {fails : Nat} {reply : Progress}
    (h : verdict fails reply = some (.error (.createDumpDbus failed))) : reply = .another := by
  cases reply with
  | another => rfl
  | completed | inProgress | mistyped => cases h
  | refused =>
      simp only [verdict] at h
      split at h
      · simp only [Option.some.injEq, Except.error.injEq, Exn.createDumpDbus.injEq] at h
        exact absurd h (by decide)
      · cases h

theorem Awaited.failed_of_raised (hops : Sound ops named) (horigin : KeepsOrigin ops)
    (hidle : ∀ s, started s → Idle s) {rounds : Nat} (hrounds : maxPolls < rounds)
    (h : Raised env rounds w.polls failed) : a.Failed := by
  obtain ⟨v, v', hpolls, hraised⟩ := h
  obtain ⟨polls, result, houtcome⟩ := exists_outcome (replies env v)
  obtain ⟨-, u, -, -, -, -, -, -, hrun⟩ := waitForDumpCreation_eq hrounds houtcome
  cases result with
  | ok _ => cases hrun.symm.trans hraised
  | error e =>
      obtain rfl : e = .createDumpDbus failed := (EStateM.Result.error.inj (hrun.symm.trans hraised)).1
      generalize hresult : (Except.error (.createDumpDbus failed) : Except Processing.Exn Unit) = result at houtcome
      cases houtcome with
      | timedOut =>
          simp only [Except.error.injEq, Exn.createDumpDbus.injEq] at hresult
          exact absurd hresult (by decide)
      | decided k _ hk _ hverdict =>
          subst hresult
          have hanother := another_of_failed hverdict
          rw [replies, hpolls] at hanother
          rcases a.reply k with hrefused | ⟨e, he, hreply⟩
          · cases hrefused.symm.trans hanother
          · obtain ⟨slot, hslot⟩ := a.holds hops horigin (k + 1)
            rw [Holds, he] at hslot
            obtain ⟨phase, rfl, hphase, -⟩ := represents_entry hslot
            rw [hphase] at hreply
            have hst : (DumpEntry.base e).status = .Failed := by
              rw [hphase]
              cases phase with
              | failed => rfl
              | collecting | collected => cases hreply.symm.trans hanother
            have hregistered : Registered a.after :=
              step_registered hops _ _ _ (invariant_run (step_registered hops) a.ran
                (registered_of_idle (hidle _ a.isStarted))) a.asked
            rcases run_failed hops hregistered (a.history.run_until (k + 1)) ⟨e, he, hst⟩ with
              (⟨e₀, he₀, hst₀⟩ | hbroken) | hsome
            · obtain ⟨e₁, he₁, hst₁, -⟩ := requested_entry hops a.returned a.unused
              rw [he₁] at he₀
              cases he₀
              cases hst₁.symm.trans hst₀
            · rcases step_broken hops a.asked hbroken with hbefore | ⟨pid, p, -, -, hends⟩
              · exact .inl hbefore
              · cases hends
            · exact .inr ⟨k, hk, hsome⟩

/-- What a client is told of a dump is what has become of it: a copy is made of none but a collected
one, and only of one that has failed it is said that it has. -/
def Tells (ops : Ops E X C R I) (named : Path → Option Nat) (started : Daemon E X C → Prop) : Prop :=
  ∀ (cfg : Config) (env : Environment) (rounds : Nat) (type : Message) (w : World) (a : Awaited ops started env w),
    maxPolls < rounds →
      ((final (processSingleDump cfg env rounds type w)).tmp ≠ w.tmp → a.Collected named) ∧
      ∀ u t, processSingleDump cfg env rounds type w = .ok u t → t.sent.getLast? = some failed →
        a.Failed ∨ Complains env failed

omit a in
theorem tells (hops : Sound ops named) (horigin : KeepsOrigin ops) (hidle : ∀ s, started s → Idle s) :
    Tells ops named started := by
  intro cfg env rounds type w a hrounds
  refine ⟨fun hchanged => ?_, fun u t hrun hlast => ?_⟩
  · exact a.collected_of_returned hops horigin hrounds (tmp_changed a.created hchanged)
  · exact (failed_sent a.created hrun hlast).imp_left (a.failed_of_raised hops horigin hidle hrounds)

/-- The server beside the two managers that it calls, whatever else these do while it waits. -/
theorem server_tells_of_managers (bmc : Bmc.Manager.Config) (system : System.Manager.Config) :
    Tells (Bmc.Manager.bmcOps bmc) (fun file => namedId bmc.plat (filename file)) (Bmc.Manager.Started bmc) ∧
    Tells (System.Manager.systemOps system) (fun file => namedId system.plat (filename file))
      (System.Manager.Started system) :=
  ⟨tells (Bmc.Steps.sound bmc) (keepsOrigin_bmc bmc) fun _ hs => (begun_bmc hs).idle,
    tells (System.Steps.sound system) (keepsOrigin_system system) fun _ hs => (begun_system hs).idle⟩

end History

section Session

open Bmc.Manager (BmcDaemon bmcOps plainRequest plainEvent started_root)

abbrev bmcConfig : Bmc.Manager.Config := Bmc.Manager.defaultConfig

def secondTime : Environment :=
  { thirdTime with
    created _ := .entry (objectPath (text "/xyz/openbmc_project/dump/bmc/entry") 1)
    progress k := if k = 0 then .refused else .completed }

def requestedDump : BmcDaemon :=
  final ((bmcOps bmcConfig).createDump (plainRequest 7) (bare ⟨false⟩ .root))

theorem requestedDump_returned :
    (bmcOps bmcConfig).createDump (plainRequest 7) (bare ⟨false⟩ .root) = .ok (some 1) requestedDump :=
  eq_ok_of_run' (by decide +kernel)

theorem requestedDump_step :
    step (bmcOps bmcConfig) (bare ⟨false⟩ .root) (.createDump (plainRequest 7)) = some requestedDump := by
  rw [step, if_pos (by decide +kernel), requestedDump_returned]
  rfl

theorem copied_after_collection : ∃ file, SomeStep (step (bmcOps bmcConfig))
    (fun u ev => (∃ io, ev = .handle io) ∧
      takenUp (fun file => namedId bmcConfig.plat (filename file)) u 1 = some file) requestedDump
    (dumpArrives plainEvent) := by
  have h : ((run (step (bmcOps bmcConfig)) requestedDump (dumpArrives plainEvent)).bind fun u =>
      (u.entries[1]?.getD none).map fun e => e.base.status) = some .Completed := by decide +kernel
  obtain ⟨u, hcollected, h⟩ := Option.bind_eq_some_iff.mp h
  obtain ⟨e, he, hst⟩ := Option.map_eq_some_iff.mp h
  let a : Awaited (bmcOps bmcConfig) (Bmc.Manager.Started bmcConfig) secondTime emptyWorld :=
    { baseEntryPath := text "/xyz/openbmc_project/dump/bmc/entry"
      id := 1
      start := bare ⟨false⟩ .root
      before := bare ⟨false⟩ .root
      after := requestedDump
      events := []
      request := plainRequest 7
      history := {
        events := fun k => if k = 0 then dumpArrives plainEvent else []
        states := fun k => if k = 0 then requestedDump else u
        first := rfl
        goesOn := fun k => by
          cases k with
          | zero => exact hcollected
          | succ k => rfl }
      isStarted := started_root _
      ran := rfl
      asked := requestedDump_step
      returned := requestedDump_returned
      unused := by decide
      created := rfl
      answered := fun k => by
        cases k with
        | zero => exact .inl rfl
        | succ k =>
            right
            rw [statusAt_objectPath]
            change Progress.completed = ((u.entries[1]?.getD none).map fun e => progressOf e.base.status).getD .refused
            rw [he, Option.map_some, hst]
            rfl }
  have hchanged :
      (final (processSingleDump defaultConfig secondTime 36002 (text "BMC") emptyWorld)).tmp ≠ emptyWorld.tmp := by
    intro heq
    have hcopy := congrArg (fun tmp : ExtTreeMap Message Node => tmp.isEmpty) heq
    exact absurd hcopy (by decide +kernel)
  have huntil : ∀ k, a.history.until (k + 1) = dumpArrives plainEvent := by
    intro k
    induction k with
    | zero => rfl
    | succ k ih => exact (List.append_nil _).trans ih
  obtain ⟨hcopied, -⟩ := (server_tells_of_managers bmcConfig System.Manager.defaultConfig).1 defaultConfig
    secondTime 36002 (text "BMC") emptyWorld a (by decide)
  obtain ⟨k, -, file, -, -, -, -, hsome⟩ := hcopied hchanged
  rw [huntil] at hsome
  exact ⟨file, hsome⟩

end Session

end DumpCollector.CreateDump.Managed
