import DumpCollector.CreateDump.Sessions

namespace DumpCollector.CreateDump.Copies

open Std Lib.Effects Lib.Loops Lib.Maps Lib.Traces Call Server Processing Waiting Sessions

variable {cfg : Config} {env : Environment} {rounds : Nat}

/-- The content is that of a regular file that a look since has found beside a dump. -/
def Collected (env : Environment) (since : Nat) (name : Message) (content : Nat) : Prop :=
  ∃ path k entries file, since ≤ k ∧ env.look path k = .listed entries ∧ (name, some file) ∈ entries ∧
    file.content = content

theorem Collected.mono {since before : Nat} (hle : before ≤ since) {name : Message} {content : Nat}
    (h : Collected env since name content) : Collected env before name content := by
  obtain ⟨path, k, entries, file, hk, hfound⟩ := h
  exact ⟨path, k, entries, file, hle.trans hk, hfound⟩

/-- At most one file is put into the directory, under the name of a copy. -/
def Puts (env : Environment) (since : Nat) (s t : World) : Prop :=
  s.looks ≤ t.looks ∧ (t.tmp = s.tmp ∨ ∃ name file, Collected env since name file.content ∧
    t.tmp = s.tmp.insert (DUMP_COPY_PREFIX ++ name) (some file))

section Rounds

variable {fPath : Message} {w : World}

def looked (w : World) : World := { w with slept := w.slept + 50, looks := w.looks + 1 }

def found (env : Environment) (fPath : Message) (w : World) : Option (Message × File) :=
  match env.look fPath w.looks with
  | .listed entries => entries.findSome? regular
  | .absent | .failed => none

theorem copyRound_cases (env : Environment) (fPath : Message) (time_p : Nat) (w : World) :
    copyRound env fPath time_p w = .error .filesystemError (looked w) ∨
    (found env fPath w = none ∧ copyRound env fPath time_p w = waitForFile time_p (looked w)) ∨
    ∃ file, found env fPath w = some file ∧
      copyRound env fPath time_p w = (copyFile env fPath file >>= fun result => pure (.inl result)) (looked w) := by
  simp only [copyRound, found, sleep, modify_bind, get_bind, looked]
  cases env.look fPath w.looks with
  | failed => exact .inl rfl
  | absent => exact .inr (.inl ⟨rfl, rfl⟩)
  | listed entries =>
      dsimp only
      cases entries.findSome? regular with
      | none => exact .inr (.inl ⟨rfl, rfl⟩)
      | some file => exact .inr (.inr ⟨file, rfl, rfl⟩)

theorem collected_of_found {file : Message × File} (h : found env fPath w = some file) :
    Collected env w.looks file.1 file.2.content := by
  rw [found] at h
  split at h
  · rename_i entries hlook
    obtain ⟨⟨name, node⟩, hmem, hregular⟩ := List.exists_of_findSome?_eq_some h
    cases node with
    | none => cases hregular
    | some f =>
        cases hregular
        exact ⟨fPath, w.looks, entries, f, le_rfl, hlook, hmem, rfl⟩
  · cases h
  · cases h

theorem puts_copyTo {since : Nat} {file : Message × File} (h : Collected env since file.1 file.2.content) (w : World) :
    Puts env since w (copyTo env w (DUMP_COPY_PREFIX ++ file.1) file.2) := by
  have hcopied : Puts env since w { w with
      tmp := w.tmp.insert (DUMP_COPY_PREFIX ++ file.1) (some { file.2 with time := env.clock w.looks }) } :=
    ⟨le_rfl, .inr ⟨file.1, { file.2 with time := env.clock w.looks }, h, rfl⟩⟩
  rw [copyTo]
  split
  · exact hcopied
  · exact ⟨le_rfl, .inl rfl⟩
  · split
    · exact hcopied
    · exact ⟨le_rfl, .inl rfl⟩

theorem copyTo_slept (w : World) (dest : Message) (file : File) : (copyTo env w dest file).slept = w.slept := by
  rw [copyTo]
  split
  · rfl
  · rfl
  · split <;> rfl

theorem copyFile_spec (fPath : Message) {since : Nat} {file : Message × File}
    (h : Collected env since file.1 file.2.content) (w : World) :
    ∃ result t, copyFile env fPath file w = .ok result t ∧ Puts env since w t ∧ t.slept = w.slept + 1000 := by
  simp only [copyFile, sleep, modify_bind, get_bind]
  cases env.copied file.1 w.looks with
  | some what => exact ⟨_, _, rfl, ⟨le_rfl, .inl rfl⟩, rfl⟩
  | none => exact ⟨_, _, rfl, puts_copyTo h { w with slept := w.slept + 1000 }, copyTo_slept _ _ _⟩

theorem waitForFile_cases (time_p : Nat) (w : World) :
    (∃ result, waitForFile time_p w = .ok (.inl result) w) ∨
      time_p + 50 ≤ TIMEOUT ∧ waitForFile time_p w = .ok (.inr (time_p + 50)) w := by
  rw [waitForFile]
  split
  · exact .inl ⟨_, rfl⟩
  · rename_i h
    exact .inr ⟨by omega, rfl⟩

theorem copyRound_spec (env : Environment) (fPath : Message) (time_p : Nat) (w : World) :
    copyRound env fPath time_p w = .error .filesystemError (looked w) ∨
    (time_p + 50 ≤ TIMEOUT ∧ copyRound env fPath time_p w = .ok (.inr (time_p + 50)) (looked w)) ∨
    ∃ result t, copyRound env fPath time_p w = .ok (.inl result) t ∧ Puts env w.looks w t ∧
      t.slept ≤ w.slept + 1050 := by
  rcases copyRound_cases env fPath time_p w with h | ⟨-, h⟩ | ⟨file, hfound, h⟩
  · exact .inl h
  · rcases waitForFile_cases time_p (looked w) with ⟨result, hlast⟩ | ⟨hle, hnext⟩
    · exact .inr (.inr ⟨result, _, h.trans hlast, ⟨Nat.le_succ _, .inl rfl⟩, by simp [looked]⟩)
    · exact .inr (.inl ⟨hle, h.trans hnext⟩)
  · obtain ⟨result, t, hcopy, hputs, hslept⟩ := copyFile_spec fPath (collected_of_found hfound) (looked w)
    refine .inr (.inr ⟨result, t, h.trans (bind_of_ok hcopy _), ⟨(Nat.le_succ _).trans hputs.1, hputs.2⟩, ?_⟩)
    rw [hslept, looked]

theorem copyLoop_spec (env : Environment) (fPath : Message) (hrounds : maxPolls < rounds) (w : World) :
    (∃ result t, loop .unfinished (copyRound env fPath) rounds 0 w = .ok result t ∧ Puts env w.looks w t ∧
      t.slept ≤ w.slept + (TIMEOUT + 1050)) ∨
    ∃ t, loop .unfinished (copyRound env fPath) rounds 0 w = .error .filesystemError t ∧ t.tmp = w.tmp ∧
      w.looks ≤ t.looks ∧ t.slept ≤ w.slept + (TIMEOUT + 1050) := by
  let I (x : Nat × World) : Prop :=
    x.1 ≤ TIMEOUT ∧ x.2.tmp = w.tmp ∧ w.looks ≤ x.2.looks ∧ x.2.slept ≤ w.slept + x.1
  have hround : ∀ x y, I x → Follows (copyRound env fPath) y x →
      I y ∧ (TIMEOUT - y.1) / 50 < (TIMEOUT - x.1) / 50 := by
    rintro ⟨time_p, v⟩ ⟨time_p', v'⟩ ⟨hle, htmp, hlooks, hslept⟩ hfollows
    rcases copyRound_spec env fPath time_p v with h | ⟨hless, h⟩ | ⟨result, t, h, -⟩
    · cases h.symm.trans hfollows
    · obtain ⟨hnext, hstate⟩ := EStateM.Result.ok.inj (h.symm.trans hfollows)
      obtain rfl : looked v = v' := hstate
      obtain rfl : time_p + 50 = time_p' := Sum.inr.inj hnext
      have hadvanced : (looked v).slept ≤ w.slept + (time_p + 50) := by
        simp only [looked]
        dsimp only at hslept
        omega
      exact ⟨⟨hless, htmp, Nat.le_succ_of_le hlooks, hadvanced⟩, by dsimp only; omega⟩
    · cases h.symm.trans hfollows
  have hstart : (TIMEOUT - (0, w).1) / 50 < rounds := by
    unfold maxPolls at hrounds
    unfold TIMEOUT
    omega
  obtain ⟨⟨time_p, v⟩, ⟨hle, htmp, hlooks, hslept⟩, hends⟩ :=
    @loop_ends _ _ _ _ Exn.unfinished _ I _ hround rounds (0, w) ⟨Nat.zero_le _, rfl, le_rfl, Nat.le_add_right _ _⟩
      hstart
  dsimp only at hle htmp hlooks hslept
  rcases copyRound_spec env fPath time_p v with h | ⟨-, h⟩ | ⟨result, t, h, hputs, ht⟩
  · rcases hends with ⟨b, t, hround, -⟩ | ⟨e, t, hround, hloop⟩
    · cases h.symm.trans hround
    · obtain ⟨he, hstate⟩ := EStateM.Result.error.inj (h.symm.trans hround)
      have hslept' : t.slept = v.slept + 50 := by rw [← hstate, looked]
      refine .inr ⟨t, he ▸ hloop, ?_, ?_, by omega⟩
      · rw [← hstate]
        exact htmp
      · rw [← hstate]
        exact Nat.le_succ_of_le hlooks
  · rcases hends with ⟨b, t, hround, -⟩ | ⟨e, t, hround, -⟩ <;> cases h.symm.trans hround
  · rcases hends with ⟨b, t', hround, hloop⟩ | ⟨e, t', hround, -⟩
    · obtain ⟨hresult, hstate⟩ := EStateM.Result.ok.inj (h.symm.trans hround)
      obtain rfl := Sum.inl.inj hresult
      obtain rfl : t = t' := hstate
      have hslow : t.slept ≤ w.slept + (TIMEOUT + 1050) := by
        calc t.slept ≤ v.slept + 1050 := ht
          _ ≤ w.slept + time_p + 1050 := Nat.add_le_add_right hslept _
          _ ≤ w.slept + TIMEOUT + 1050 := Nat.add_le_add_right (Nat.add_le_add_left hle _) _
          _ = w.slept + (TIMEOUT + 1050) := Nat.add_assoc _ _ _
      refine .inl ⟨result, t, hloop, ⟨hlooks.trans hputs.1, ?_⟩, hslow⟩
      rcases hputs.2 with hsame | ⟨name, file, hcollected, hinsert⟩
      · exact .inl (hsame.trans htmp)
      · exact .inr ⟨name, file, hcollected.mono hlooks, by rw [hinsert, htmp]⟩
    · cases h.symm.trans hround

end Rounds

section Dumps

def dumpTime : Nat := 50 * (maxPolls + 1) + (TIMEOUT + 1050)

structure Brief {α : Type} (env : Environment) (time : Nat) (w : World) (r : EStateM.Result Exn World α) : Prop where
  puts : Puts env w.looks w (final r)
  slept : (final r).slept ≤ w.slept + time
  finished : ∀ t, r ≠ .error .unfinished t

theorem outcome_finished {p : Nat → Progress} {polls : Nat} {result : Except Exn Unit} (h : Outcome p polls result) :
    result ≠ .error .unfinished := by
  cases h with
  | decided k _ _ _ hverdict =>
      rintro rfl
      generalize p k = reply at hverdict
      cases reply with
      | refused =>
          rw [verdict] at hverdict
          split at hverdict <;> cases hverdict
      | completed | another | mistyped | inProgress => cases hverdict
  | timedOut =>
      intro h
      cases h

theorem waited_spec (env : Environment) (hrounds : maxPolls < rounds) (w : World) :
    (final (waited env rounds w)).tmp = w.tmp ∧ (final (waited env rounds w)).looks = w.looks ∧
      (final (waited env rounds w)).slept ≤ w.slept + 50 * (maxPolls + 1) ∧
      ∀ t, waited env rounds w ≠ .error .unfinished t := by
  obtain ⟨polls, result, houtcome⟩ := exists_outcome (replies env w)
  obtain ⟨-, t, -, hslept, htmp, -, -, hlooks, hrun⟩ := waitForDumpCreation_eq hrounds houtcome
  have hfinished := outcome_finished houtcome
  rw [waited, hrun]
  cases result with
  | ok a => exact ⟨htmp, hlooks, hslept, fun _ h => by cases h⟩
  | error e =>
      cases e with
      | unfinished => exact absurd rfl hfinished
      | createDumpDbus | stdException | badVariantAccess | filesystemError | sdBusError =>
          exact ⟨htmp, hlooks, hslept, fun _ h => by cases h⟩

theorem copyDumpToTmpDir_brief (cfg : Config) (env : Environment) (hrounds : maxPolls < rounds) (dPath : Message)
    (w : World) :
    Brief env dumpTime w (copyDumpToTmpDir cfg env rounds dPath w) := by
  rw [copyDumpToTmpDir]
  cases sourcePath cfg dPath with
  | none => exact ⟨⟨le_rfl, .inl rfl⟩, Nat.le_add_right _ _, fun _ h => by cases h⟩
  | some sourcePath =>
      obtain ⟨htmp, hlooks, hslept, hfinished⟩ := waited_spec env hrounds w
      cases hwaited : waited env rounds w with
      | error e t =>
          rw [hwaited] at htmp hlooks hslept hfinished
          dsimp only
          rw [bind_of_error hwaited]
          refine ⟨⟨hlooks.ge, .inl htmp⟩, hslept.trans (Nat.add_le_add_left (Nat.le_add_right _ _) _), fun t' h => ?_⟩
          cases h
          exact hfinished t rfl
      | ok result t =>
          rw [hwaited, final_ok] at htmp hlooks hslept
          dsimp only
          rw [bind_of_ok hwaited]
          cases result with
          | some errorMsg =>
              refine ⟨⟨hlooks.ge, .inl htmp⟩, hslept.trans ?_, fun t' h => ?_⟩
              · exact Nat.add_le_add_left (Nat.le_add_right _ _) _
              cases h
          | none =>
              dsimp only
              have hsum : t.slept + (TIMEOUT + 1050) ≤ w.slept + dumpTime :=
                (Nat.add_le_add_right hslept _).trans (Nat.le_of_eq (Nat.add_assoc _ _ _))
              rcases copyLoop_spec env (sourcePath ++ slash :: filename dPath) hrounds t with
                ⟨result, u, hloop, hputs, hu⟩ | ⟨u, hloop, hsame, hlater, hu⟩
              · rw [hloop]
                refine ⟨?_, hu.trans hsum, fun t' h => ?_⟩
                · rwa [Puts, htmp, hlooks] at hputs
                · cases h
              · rw [hloop]
                refine ⟨⟨hlooks ▸ hlater, .inl (hsame.trans htmp)⟩, hu.trans hsum, fun t' h => ?_⟩
                cases h

end Dumps

section Time

theorem sendMsg_cases (env : Environment) (msg : Message) (w : World) :
    sendMsg env msg w = .ok () { w with sent := w.sent ++ [msg] } ∨ sendMsg env msg w = .error .stdException w := by
  simp only [sendMsg, get_bind]
  cases env.written w.sent.length with
  | true => exact .inl rfl
  | false => exact .inr rfl

theorem createDump_cases (env : Environment) (type : Message) (w : World) :
    (∃ result, createDump env type w = .ok result { w with calls := w.calls ++ [type] }) ∨
      createDump env type w = .error .sdBusError { w with calls := w.calls ++ [type] } := by
  simp only [createDump, get_bind, modify_bind]
  cases env.created w.calls.length with
  | entry path => exact .inl ⟨_, rfl⟩
  | refused what => exact .inl ⟨_, rfl⟩
  | noBus => exact .inr rfl

theorem deleteCopy_cases (env : Environment) (name : Message) (w : World) :
    deleteCopy env name w = .ok () w ∨
    isCopy name = true ∧ (env.removed name = true ∧ deleteCopy env name w = .ok () { w with tmp := w.tmp.erase name } ∨
      env.removed name = false ∧ ∃ msg, deleteCopy env name w = sendMsg env msg w) := by
  simp only [deleteCopy, get_bind]
  rcases w.tmp[name]? with _ | _ | file
  · exact .inl rfl
  · exact .inl rfl
  · cases hcopy : isCopy name with
    | false => exact .inl rfl
    | true =>
        refine .inr ⟨rfl, ?_⟩
        cases env.removed name with
        | true => exact .inl ⟨rfl, rfl⟩
        | false => exact .inr ⟨rfl, _, rfl⟩

theorem sendMsg_costs (msg : Message) : Costs World.slept 0 (sendMsg env msg) := by
  intro w
  rcases sendMsg_cases env msg w with h | h <;> rw [h] <;> exact le_rfl

theorem deleteCopies_costs : Costs World.slept 0 (deleteCopies env) := by
  refine costs_get_bind fun w => costs_mono (costs_forM fun name _ w => ?_) (Nat.le_of_eq (Nat.mul_zero _))
  rcases deleteCopy_cases env name w with h | ⟨-, ⟨-, h⟩ | ⟨-, msg, h⟩⟩
  · rw [h]
    exact le_rfl
  · rw [h]
    exact le_rfl
  · rw [h]
    exact sendMsg_costs msg w

theorem processSingleDump_costs (hrounds : maxPolls < rounds) (type : Message) :
    Costs World.slept dumpTime (processSingleDump cfg env rounds type) := by
  have hcreate : Costs World.slept 0 (createDump env type) := by
    intro w
    rcases createDump_cases env type w with ⟨result, h⟩ | h <;> rw [h] <;> exact le_rfl
  have hcopy : ∀ dPath, Costs World.slept dumpTime (copyDumpToTmpDir cfg env rounds dPath) :=
    fun dPath w => (copyDumpToTmpDir_brief cfg env hrounds dPath w).slept
  refine costs_mono (costs_bind hcreate fun result => costs_ite ?_ ?_) (Nat.le_of_eq (Nat.zero_add dumpTime))
  · refine costs_mono (costs_bind (sendMsg_costs _) fun _ => costs_bind (sendMsg_costs _) fun _ =>
      costs_bind (hcopy _) fun _ => sendMsg_costs _) (Nat.le_of_eq ?_)
    rw [Nat.zero_add, Nat.zero_add, Nat.add_zero]
  · exact costs_mono (sendMsg_costs _) (Nat.zero_le _)

theorem requestedTypes_length (type : Message) : (requestedTypes type).length ≤ 4 := by
  rw [requestedTypes]
  split
  · decide
  · exact Nat.le_add_left 1 3

theorem processDumpRequest_costs (hrounds : maxPolls < rounds) (type : Message) :
    Costs World.slept (4 * dumpTime) (processDumpRequest cfg env rounds type) := by
  refine costs_mono (costs_bind (sendMsg_costs _) fun _ => costs_bind deleteCopies_costs fun _ =>
    costs_forM fun x _ => processSingleDump_costs hrounds x) ?_
  rw [Nat.zero_add, Nat.zero_add]
  exact Nat.mul_le_mul_right _ (requestedTypes_length type)

theorem within_sendMsg (msg : Message) : Within .unfinished (sendMsg env msg) := by
  intro w t h
  rcases sendMsg_cases env msg w with hs | hs <;> cases hs.symm.trans h

theorem within_processSingleDump (hrounds : maxPolls < rounds) (type : Message) :
    Within .unfinished (processSingleDump cfg env rounds type) := by
  have hcreate : Within .unfinished (createDump env type) := by
    intro w t h
    rcases createDump_cases env type w with ⟨result, hs⟩ | hs <;> cases hs.symm.trans h
  refine within_bind hcreate fun result => within_ite ?_ (within_sendMsg _)
  refine within_bind (within_sendMsg _) fun _ => within_bind (within_sendMsg _) fun _ => ?_
  exact within_bind (fun w t => (copyDumpToTmpDir_brief cfg env hrounds _ w).finished t) fun _ => within_sendMsg _

theorem within_processDumpRequest (hrounds : maxPolls < rounds) (type : Message) :
    Within .unfinished (processDumpRequest cfg env rounds type) := by
  have hdelete : Within .unfinished (deleteCopies env) := by
    intro w t h
    refine within_forM (fun name v u hv => ?_) w t h
    rcases deleteCopy_cases env name v with hs | ⟨-, ⟨-, hs⟩ | ⟨-, msg, hs⟩⟩
    · cases hs.symm.trans hv
    · cases hs.symm.trans hv
    · exact within_sendMsg msg v u (hs.symm.trans hv)
  refine within_bind (within_sendMsg _) fun _ => within_bind hdelete fun _ => ?_
  exact within_forM fun x => within_processSingleDump hrounds x

theorem handler_cases (message : Message) :
    handler message = [.sendMsg END_CMD] ∨ ∃ a, handler message = [a, .sendMsg END_CMD] := by
  have hanswer : ∀ words, answer words = [] ∨ ∃ a, answer words = [a] := by
    intro words
    rcases words with _ | ⟨command, _ | ⟨type, rest⟩⟩
    · exact .inl rfl
    · rw [answer]
      split
      · exact .inr ⟨_, rfl⟩
      · exact .inl rfl
    · rw [answer]
      split
      · split <;> exact .inr ⟨_, rfl⟩
      · exact .inl rfl
  rw [handler]
  rcases hanswer (Lib.Words.tokens isspace (shownAs message)) with h | ⟨a, h⟩
  · exact .inl (by rw [h]; rfl)
  · exact .inr ⟨a, by rw [h]; rfl⟩

/-- What the handler does with any message comes to an end, and no client keeps it from the
others for longer than this. -/
theorem serve_ends_in_time (cfg : Config) (env : Environment) (rounds : Nat) (hrounds : maxPolls < rounds)
    (message : Message) (w : World) :
    (∀ t, serve cfg env rounds message w ≠ .error .unfinished t) ∧
      (final (serve cfg env rounds message w)).slept ≤ w.slept + 4 * dumpTime := by
  have hact : ∀ a, Within .unfinished (act cfg env rounds a) ∧
      Costs World.slept (4 * dumpTime) (act cfg env rounds a) := by
    intro a
    cases a with
    | processDumpRequest type =>
        exact ⟨within_processDumpRequest hrounds type, processDumpRequest_costs hrounds type⟩
    | sendMsg msg => exact ⟨within_sendMsg msg, costs_mono (sendMsg_costs msg) (Nat.zero_le _)⟩
  refine ⟨fun t => within_forM (fun a => (hact a).1) w t, ?_⟩
  rcases handler_cases message with h | ⟨a, h⟩
  · rw [serve, h, forM_singleton]
    exact (hact _).2 w
  · rw [serve, h, List.forM_cons, forM_singleton]
    exact costs_bind (hact a).2 (fun _ => sendMsg_costs END_CMD) w

end Time

section Directory

/-- Only files with the prefix of a copy are removed, made or changed. -/
def Reserved (s t : World) : Prop := ∀ name : Message, ¬ DUMP_COPY_PREFIX <+: name → t.tmp[name]? = s.tmp[name]?

instance reflReserved : Std.Refl Reserved := ⟨fun _ _ _ => rfl⟩

instance transReserved : IsTrans World Reserved := ⟨fun _ _ _ h k name hname => (k name hname).trans (h name hname)⟩

theorem reserved_of_tmp {s t : World} (h : t.tmp = s.tmp) : Reserved s t := fun name _ => by rw [h]

theorem Puts.reserved {since : Nat} {s t : World} (h : Puts env since s t) : Reserved s t := by
  rcases h.2 with hsame | ⟨copied, file, -, hinsert⟩
  · exact reserved_of_tmp hsame
  · intro name hname
    rw [hinsert, insert_get, if_neg]
    rintro rfl
    exact hname (List.prefix_append _ _)

theorem reserved_sendMsg (msg : Message) : Keeps Reserved (sendMsg env msg) := by
  intro w
  rcases sendMsg_cases env msg w with h | h <;> rw [h] <;> exact reserved_of_tmp rfl

theorem reserved_deleteCopy (name : Message) : Keeps Reserved (deleteCopy env name) := by
  intro w
  rcases deleteCopy_cases env name w with h | ⟨hcopy, ⟨-, h⟩ | ⟨-, msg, h⟩⟩
  · rw [h]
    exact refl w
  · rw [h]
    intro other hother
    refine (erase_get ..).trans (if_neg ?_)
    rintro rfl
    exact hother (of_decide_eq_true hcopy).1
  · rw [h]
    exact reserved_sendMsg msg w

theorem reserved_processSingleDump (hrounds : maxPolls < rounds) (type : Message) :
    Keeps Reserved (processSingleDump cfg env rounds type) := by
  have hcreate : Keeps Reserved (createDump env type) := by
    intro w
    rcases createDump_cases env type w with ⟨result, h⟩ | h <;> rw [h] <;> exact reserved_of_tmp rfl
  refine keeps_bind hcreate fun result => keeps_ite ?_ (reserved_sendMsg _)
  refine keeps_bind (reserved_sendMsg _) fun _ => keeps_bind (reserved_sendMsg _) fun _ => ?_
  exact keeps_bind (fun w => (copyDumpToTmpDir_brief cfg env hrounds _ w).puts.reserved) fun _ => reserved_sendMsg _

theorem reserved_serve (hrounds : maxPolls < rounds) (message : Message) :
    Keeps Reserved (serve cfg env rounds message) := by
  refine keeps_forM fun a => ?_
  cases a with
  | sendMsg msg => exact reserved_sendMsg msg
  | processDumpRequest type =>
      refine keeps_bind (reserved_sendMsg _) fun _ => keeps_bind ?_ fun _ => ?_
      · exact keeps_get_bind fun w => keeps_forM reserved_deleteCopy w
      · exact keeps_forM fun x => reserved_processSingleDump hrounds x

/-- The copies that a later request would remove are no more than so many, and each of them is
that of a file found beside a dump by a look since. -/
def CopiesOf (env : Environment) (since n : Nat) (w : World) : Prop :=
  since ≤ w.looks ∧ ∃ names : List Message, names.length ≤ n ∧
    ∀ (name : Message) (file : File), w.tmp[name]? = some (some file) → isCopy name = true →
      name ∈ names ∧ ∃ source, name = DUMP_COPY_PREFIX ++ source ∧ Collected env since source file.content

variable {since n : Nat} {s t : World}

theorem copiesOf_of_same (h : t.tmp = s.tmp ∧ t.looks = s.looks) (hs : CopiesOf env since n s) :
    CopiesOf env since n t := by
  obtain ⟨hsince, names, hlength, hnames⟩ := hs
  exact ⟨h.2 ▸ hsince, names, hlength, fun name file hfile => hnames name file (h.1 ▸ hfile)⟩

theorem CopiesOf.mono {m : Nat} (hle : m ≤ n) (h : CopiesOf env since m s) : CopiesOf env since n s := by
  obtain ⟨hsince, names, hlength, hnames⟩ := h
  exact ⟨hsince, names, hlength.trans hle, hnames⟩

theorem Puts.copiesOf (h : Puts env s.looks s t) (hs : CopiesOf env since n s) : CopiesOf env since (n + 1) t := by
  obtain ⟨hsince, names, hlength, hnames⟩ := hs
  rcases h with ⟨hlooks, hsame | ⟨source, copied, hcollected, hinsert⟩⟩
  · exact ⟨hsince.trans hlooks, names, Nat.le_succ_of_le hlength, fun name file hfile =>
      hnames name file (hsame ▸ hfile)⟩
  · refine ⟨hsince.trans hlooks, (DUMP_COPY_PREFIX ++ source) :: names, Nat.succ_le_succ hlength,
      fun name file hfile hcopy => ?_⟩
    rw [hinsert, insert_get] at hfile
    split at hfile
    · rename_i hname
      cases hfile
      exact ⟨hname ▸ List.mem_cons_self, source, hname.symm, hcollected.mono hsince⟩
    · obtain ⟨hmem, hsource⟩ := hnames name file hfile hcopy
      exact ⟨List.mem_cons_of_mem _ hmem, hsource⟩

theorem sendMsg_ok {msg : Message} {u : Unit} (h : sendMsg env msg s = .ok u t) :
    t.tmp = s.tmp ∧ t.looks = s.looks := by
  rcases sendMsg_cases env msg s with hs | hs <;> cases hs.symm.trans h
  exact ⟨rfl, rfl⟩

theorem preserves_looks (name : Message) : Preserves (fun w => since ≤ w.looks) (deleteCopy env name) := by
  intro s u t hs h
  rcases deleteCopy_cases env name s with hk | ⟨-, ⟨-, hk⟩ | ⟨-, msg, hk⟩⟩
  · cases hk.symm.trans h
    exact hs
  · cases hk.symm.trans h
    exact hs
  · rw [(sendMsg_ok (hk.symm.trans h)).2]
    exact hs

section Deletion

variable (hremoved : ∀ name, env.removed name = true)
include hremoved

theorem deleteCopy_ok {name : Message} {s t : World} {u : Unit} (h : deleteCopy env name s = .ok u t) :
    (t = s ∧ (isCopy name = true → ∀ file, s.tmp[name]? ≠ some (some file))) ∨
      t = { s with tmp := s.tmp.erase name } := by
  simp only [deleteCopy, get_bind] at h
  rcases hs : s.tmp[name]? with _ | _ | file
  · rw [hs] at h
    cases h
    exact .inl ⟨rfl, fun _ file => nofun⟩
  · rw [hs] at h
    cases h
    exact .inl ⟨rfl, fun _ file => nofun⟩
  · rw [hs] at h
    cases hcopy : isCopy name with
    | false =>
        simp only [hcopy, Bool.false_eq_true, if_false] at h
        cases h
        exact .inl ⟨rfl, nofun⟩
    | true =>
        simp only [hcopy, hremoved name, if_true] at h
        cases h
        exact .inr rfl

/-- What holds of the file under a name, if there is one, still holds when files are removed. -/
theorem preserves_deleteCopy (name : Message) (p : File → Prop) (other : Message) :
    Preserves (fun w => ∀ file, w.tmp[name]? = some (some file) → p file) (deleteCopy env other) := by
  intro s u t hs h file hfile
  rcases deleteCopy_ok hremoved h with ⟨rfl, -⟩ | rfl
  · exact hs file hfile
  · change (s.tmp.erase other)[name]? = some (some file) at hfile
    rw [erase_get] at hfile
    split at hfile
    · cases hfile
    · exact hs file hfile

theorem deleteCopies_ok (horder : ∀ names, (env.order names).Perm names) {s t : World} {u : Unit}
    (h : deleteCopies env s = .ok u t) : CopiesOf env s.looks 0 t := by
  refine ⟨preserves_forM preserves_looks s u t le_rfl h, [], le_rfl, fun name file hfile hcopy => ?_⟩
  exfalso
  by_cases hmem : name ∈ s.tmp
  · have hlisted : name ∈ env.order s.tmp.keys := (horder _).mem_iff.mpr (ExtTreeMap.mem_keys.mpr hmem)
    have hleads : Leads (fun _ => True) (fun w => ∀ file, w.tmp[name]? = some (some file) → False)
        (deleteCopy env name) := by
      intro v a w _ hv file hw
      rcases deleteCopy_ok hremoved hv with ⟨rfl, hno⟩ | rfl
      · exact hno hcopy file hw
      · change (v.tmp.erase name)[name]? = some (some file) at hw
        rw [erase_get, if_pos rfl] at hw
        cases hw
    refine leads_forM hlisted (fun _ _ _ _ _ _ _ => trivial) (fun other _ => ?_) hleads s u t trivial h file hfile
    exact preserves_deleteCopy hremoved name (fun _ => False) other
  · have hnone : ∀ file, s.tmp[name]? = some (some file) → False := fun file hs => hmem ((mem_iff _ _).mpr ⟨_, hs⟩)
    exact preserves_forM (preserves_deleteCopy hremoved name fun _ => False) s u t hnone h file hfile

end Deletion

theorem processSingleDump_ok (hrounds : maxPolls < rounds) {type : Message} {u : Unit}
    (hs : CopiesOf env since n s) (h : processSingleDump cfg env rounds type s = .ok u t) :
    CopiesOf env since (n + 1) t := by
  obtain ⟨result, v, hcreate, hrest⟩ := bind_eq_ok.mp h
  obtain ⟨rfl, -⟩ := createDump_ok hcreate
  have hv : CopiesOf env since n { s with calls := s.calls ++ [type] } := copiesOf_of_same ⟨rfl, rfl⟩ hs
  by_cases hzero : result.1 = 0
  · simp only [hzero, if_true] at hrest
    obtain ⟨_, v₁, hfirst, hrest⟩ := bind_eq_ok.mp hrest
    obtain ⟨_, v₂, hsecond, hrest⟩ := bind_eq_ok.mp hrest
    obtain ⟨response, v₃, hcopy, hlast⟩ := bind_eq_ok.mp hrest
    have hputs := (copyDumpToTmpDir_brief cfg env hrounds result.2 v₂).puts
    rw [hcopy] at hputs
    have hbefore : CopiesOf env since n v₂ :=
      copiesOf_of_same (sendMsg_ok hsecond) (copiesOf_of_same (sendMsg_ok hfirst) hv)
    exact copiesOf_of_same (sendMsg_ok hlast) (hputs.copiesOf hbefore)
  · simp only [hzero, if_false] at hrest
    exact (copiesOf_of_same (sendMsg_ok hrest) hv).mono (Nat.le_succ n)

theorem processEach_ok (hrounds : maxPolls < rounds) {types : List Message} {u : Unit}
    (hs : CopiesOf env since n s) (h : forM types (processSingleDump cfg env rounds) s = .ok u t) :
    CopiesOf env since (n + types.length) t := by
  induction types generalizing n s with
  | nil =>
      cases h
      exact hs
  | cons type types ih =>
      rw [List.forM_cons] at h
      obtain ⟨_, v, hfirst, hrest⟩ := bind_eq_ok.mp h
      have hcopies := ih (processSingleDump_ok hrounds hs hfirst) hrest
      rw [List.length_cons]
      exact hcopies.mono (by omega)

end Directory

section Served

def defaultConfig : Config := ⟨text "/var/lib/bmc", text "/var/lib/system"⟩

def beforeSession : World :=
  let left : ExtTreeMap Message Node := ∅
  { emptyWorld with
    tmp := (left.insert (text "copy_obmcdump_9_9.tar.xz") (some ⟨1, 0⟩)).insert (text "notes") (some ⟨2, 0⟩) }

theorem served_bmc : (serve defaultConfig thirdTime 36002 (command (text "BMC"))).run' beforeSession = some () := by
  decide +kernel

theorem session_bmc : ∃ (t : World) (ms : List Message), t.sent = ms ++ [END_CMD] ∧ Session (text "BMC") ms ∧
    t.calls = [text "BMC"] := by
  have hclient : clientMessage (text "BMC") = some (command (text "BMC")) := by decide
  obtain ⟨ms, hsent, hsession, hcalls, -⟩ := session_served hclient (eq_ok_of_run' served_bmc)
  exact ⟨_, ms, hsent, hsession, hcalls⟩

theorem session_in_time :
    (final (serve defaultConfig thirdTime 36002 (command (text "BMC")) beforeSession)).slept ≤
      beforeSession.slept + 4 * dumpTime :=
  (serve_ends_in_time defaultConfig thirdTime 36002 (by decide) _ beforeSession).2

end Served

end DumpCollector.CreateDump.Copies
