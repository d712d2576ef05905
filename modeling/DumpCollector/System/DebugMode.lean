import DumpCollector.Unhandled
import DumpCollector.System.Exclusion

namespace DumpCollector.System.DebugMode

open Std Lib.Directory Lib.Effects Lib.Maps Lib.Runs Entries FileNames Inotify Requests State Dispatch Frames
open DumpCollector.Steps Slots Children WatchPaths Unhandled System.Manager System.Steps Collectors Exclusion

variable (cfg : Config)

section Conditions

/-- The close of the file completes an entry for which the debug mode is switched off. -/
def SwitchesOff (entries : ExtTreeMap Nat (Option SystemEntry)) (file : Path) : Prop :=
  ∃ n ∈ namedId cfg.plat (filename file), ∃ e ∈ entries[n]?.join, e.dumpType = "RetLTSSM"

instance decidableSwitchesOff (entries : ExtTreeMap Nat (Option SystemEntry)) :
    DecidablePred (SwitchesOff cfg entries) :=
  fun file => inferInstanceAs (Decidable (∃ n ∈ namedId cfg.plat (filename file), ∃ e ∈ entries[n]?.join,
    e.dumpType = "RetLTSSM"))

/-- A collector of the retimer's states runs, or a file that switches the debug mode off,
by the entries there are, is still to be handled. -/
def Due (entries : ExtTreeMap Nat (Option SystemEntry)) (s : SystemDaemon) : Prop :=
  "RetLTSSM" ∈ aliveKinds s ∨ Pending (SwitchesOff cfg entries) s

instance decidableDue (entries : ExtTreeMap Nat (Option SystemEntry)) (s : SystemDaemon) :
    Decidable (Due cfg entries s) := inferInstanceAs (Decidable (_ ∨ _))

/-- The condition of a step, where the debug mode is on: a request of the kind gets a
process, a collector of the kind ends only while its file is to be handled, and as long as
no other one runs the entry of that file is not deleted, and its close is not lost. -/
def KeepsDue (s : SystemDaemon) : Event Request FileEvent → Prop
  | .createDump r => s.own.retimerState.enabled = true ∨ reaches cfg r s = some "RetLTSSM" →
      (reaches cfg r s = some "RetLTSSM" ∧ r.fork.pid.isSome = true) ∨
        Due cfg (final (limitDumpEntries cfg.SYSTEM_DUMP_MAX_LIMIT s)).entries s
  | .delete id => s.own.retimerState.enabled = true → Due cfg (s.entries.erase id) s
  | .deleteAll => s.own.retimerState.enabled = true → "RetLTSSM" ∈ aliveKinds s
  | .exits pid _ => s.own.retimerState.enabled = true → ∀ p ∈ s.procs[pid]?, p.collector.kind = "RetLTSSM" →
      Due cfg s.entries { s with procs := s.procs.erase pid }
  | .watchReady p => s.own.retimerState.enabled = true → p = [] → Due cfg s.entries (readWatch s p s.dumpWatch)
  | .handle _ => s.own.retimerState.enabled = true → ∀ x ∈ s.todo.head?,
      (x.2 = IN_CLOSE_WRITE ∧ s.disk.isDirectory x.1 = false ∧ SwitchesOff cfg s.entries x.1) ∨
        Due cfg s.entries (takeItem s x.1 x.2)
  | _ => True

instance decidableKeepsDue (s : SystemDaemon) (ev : Event Request FileEvent) : Decidable (KeepsDue cfg s ev) :=
  match ev with
  | .createDump r => inferInstanceAs (Decidable (
      s.own.retimerState.enabled = true ∨ reaches cfg r s = some "RetLTSSM" →
      (reaches cfg r s = some "RetLTSSM" ∧ r.fork.pid.isSome = true) ∨
        Due cfg (final (limitDumpEntries cfg.SYSTEM_DUMP_MAX_LIMIT s)).entries s))
  | .delete id =>
      inferInstanceAs (Decidable (s.own.retimerState.enabled = true → Due cfg (s.entries.erase id) s))
  | .deleteAll => inferInstanceAs (Decidable (s.own.retimerState.enabled = true → "RetLTSSM" ∈ aliveKinds s))
  | .exits pid _ => inferInstanceAs (Decidable (s.own.retimerState.enabled = true → ∀ p ∈ s.procs[pid]?,
      p.collector.kind = "RetLTSSM" → Due cfg s.entries { s with procs := s.procs.erase pid }))
  | .watchReady p => inferInstanceAs (Decidable (s.own.retimerState.enabled = true → p = [] →
      Due cfg s.entries (readWatch s p s.dumpWatch)))
  | .handle _ => inferInstanceAs (Decidable (s.own.retimerState.enabled = true → ∀ x ∈ s.todo.head?,
      (x.2 = IN_CLOSE_WRITE ∧ s.disk.isDirectory x.1 = false ∧ SwitchesOff cfg s.entries x.1) ∨
        Due cfg s.entries (takeItem s x.1 x.2)))
  | .files _ | .stops _ _ | .continues _ | .childNotification _ => isTrue trivial

def Written : Event Request FileEvent → Prop
  | .createDump r => r.retimerWritten = true
  | .handle io => io.retimerWritten = true
  | _ => True

instance decidableWritten : (ev : Event Request FileEvent) → Decidable (Written ev)
  | .createDump r => inferInstanceAs (Decidable (r.retimerWritten = true))
  | .handle io => inferInstanceAs (Decidable (io.retimerWritten = true))
  | .delete _ | .deleteAll | .files _ | .exits _ _ | .stops _ _ | .continues _ | .watchReady _
  | .childNotification _ => isTrue trivial

/-- The debug mode is off when no collector of the retimer's states runs, be it stopped,
and nothing is left to handle. -/
def DebugModeOff (s : SystemDaemon) : Prop :=
  (∀ (pid : Nat) (p : Process String), s.procs[pid]? = some p → Alive p → p.collector.kind ≠ "RetLTSSM") → Quiet s →
    s.own.retimerState = ⟨false, false⟩

end Conditions

section Requests

variable {cfg}

/-- What a request keeps from the retention on: the entries that are left, and the state of
the retimer once the command has been given. -/
structure Holds (s t : SystemDaemon) : Prop where
  entries : ∀ (k : Nat) (v : Option SystemEntry), s.entries[k]? = some v → t.entries[k]? = some v
  retimer : t.own.retimerState = s.own.retimerState

instance reflHolds : Std.Refl Holds := ⟨fun _ => ⟨fun _ _ h => h, rfl⟩⟩

instance transHolds : IsTrans SystemDaemon Holds :=
  ⟨fun _ _ _ h k => ⟨fun key v hv => k.entries key v (h.entries key v hv), k.retimer.trans h.retimer⟩⟩

theorem holds_fork (f : Fork) (type : String) : Keeps Holds (forkCollector f type (eraseType type) : SystemOp Nat) := by
  intro s
  rcases forkCollector_cases f type (eraseType type) s with ⟨-, hf⟩ | ⟨pid, -, -, hf⟩ | ⟨pid, -, -, hf⟩
  · rw [hf]
    exact refl s
  · rw [hf]
    exact ⟨fun _ _ h => h, rfl⟩
  · rw [hf]
    exact ⟨fun _ _ h => h, rfl⟩

theorem holds_insertEntry (id : Nat) (e : SystemEntry) : Keeps Holds (insertEntry id e : SystemOp Unit) := by
  refine keeps_modify fun s => ⟨fun k v hv => ?_, rfl⟩
  rw [insertIfNew_get, hv]
  split <;> rfl

variable (cfg) in
theorem holds_collect (r : Request) (type : String) : Keeps Holds (modifyOwn (insertType type) >>= fun _ =>
    forkCollector r.fork type (eraseType type) >>= fun id => fromExcept (construct cfg r id) >>= fun e =>
    insertEntry id e >>= fun _ => (pure id : SystemOp Nat)) := by
  refine keeps_bind (keeps_modify fun s => ⟨fun _ _ h => h, rfl⟩) fun _ => ?_
  refine keeps_bind (holds_fork r.fork type) fun id => ?_
  exact keeps_bind (keeps_fromExcept _) fun e => keeps_bind (holds_insertEntry id e) fun _ => keeps_pure _

variable (cfg) in
theorem createDump_retimer (r : Request) (s : SystemDaemon) :
    (∀ (k : Nat) (v : Option SystemEntry),
      (final (limitDumpEntries cfg.SYSTEM_DUMP_MAX_LIMIT s)).entries[k]? = some v →
        (final ((some <$> System.Manager.createDump cfg r) s)).entries[k]? = some v) ∧
      (final ((some <$> System.Manager.createDump cfg r) s)).own.retimerState =
        if reaches cfg r s = some "RetLTSSM" then s.own.retimerState.setDebugMode true r.retimerWritten
        else s.own.retimerState := by
  have hown := limitDumpEntries_keeps (X := Own) (C := String)
    (fun s _ (e : SystemEntry) _ => sameOwn_deleteEntry s e) cfg.SYSTEM_DUMP_MAX_LIMIT s
  have hsplit := createDump_split cfg r s
  rw [final_map]
  generalize final (limitDumpEntries cfg.SYSTEM_DUMP_MAX_LIMIT s) = u at hown hsplit ⊢
  have hownu : u.own = s.own := hown
  rcases hsplit with ⟨hnone, exn, hrun⟩ | ⟨type, hreaches, -, hrun⟩
  · rw [hrun, hnone]
    exact ⟨fun _ _ h => h, congrArg Own.retimerState hownu⟩
  · rw [hrun, hreaches, ← hownu, collect]
    have hrest := holds_collect cfg r type
    by_cases hltssm : type = "RetLTSSM"
    · subst hltssm
      have hon := hrest { u with own := setDebugMode true r.retimerWritten u.own }
      exact ⟨hon.entries, hon.retimer⟩
    · have hcommand : whenever (decide (type = "RetLTSSM"))
          (modifyOwn (setDebugMode true r.retimerWritten)) = (pure () : SystemOp Unit) := by
        rw [decide_eq_false hltssm]
        rfl
      rw [hcommand, if_neg fun h => hltssm (Option.some.inj h)]
      exact ⟨(hrest u).entries, (hrest u).retimer⟩

end Requests

section Steps

variable {cfg} {s t : SystemDaemon}

def KeepsTypes (entries entries' : ExtTreeMap Nat (Option SystemEntry)) : Prop :=
  ∀ (k : Nat) (e : SystemEntry), entries[k]? = some (some e) → ∃ e' : SystemEntry, entries'[k]? = some (some e') ∧
    e'.dumpType = e.dumpType

theorem keepsTypes_of_entries {entries entries' : ExtTreeMap Nat (Option SystemEntry)}
    (h : ∀ (k : Nat) (v : Option SystemEntry), entries[k]? = some v → entries'[k]? = some v) :
    KeepsTypes entries entries' := fun k e he => ⟨e, h k _ he, rfl⟩

theorem KeepsTypes.switchesOff {entries entries' : ExtTreeMap Nat (Option SystemEntry)}
    (h : KeepsTypes entries entries') (file : Path) (hoff : SwitchesOff cfg entries file) :
    SwitchesOff cfg entries' file := by
  obtain ⟨n, hn, e, he, htype⟩ := hoff
  obtain ⟨e', he', htype'⟩ := h n e (Option.join_eq_some_iff.mp he)
  exact ⟨n, hn, e', Option.join_eq_some_iff.mpr he', htype'.trans htype⟩

theorem Due.kept {entries entries' : ExtTreeMap Nat (Option SystemEntry)} (hs : Due cfg entries s)
    (htypes : KeepsTypes entries entries') (halive : "RetLTSSM" ∈ aliveKinds s → "RetLTSSM" ∈ aliveKinds t)
    (hwatches : WatchesGrow s t) (htodo : t.todo = s.todo) : Due cfg entries' t := by
  rcases hs with h | h
  · exact .inl (halive h)
  · exact .inr ((h.mono htypes.switchesOff).grows hwatches htodo)

theorem createEntry_keepsTypes {io : FileEvent} {file : Path} {u : Unit} (h : createEntry cfg io file s = .ok u t) :
    KeepsTypes s.entries t.entries := by
  intro k e he
  cases createEntry_cases h with
  | ignored hno ht => exact ⟨e, ht ▸ he, rfl⟩
  | created n timestamp c hnamed hno ht =>
      subst ht
      refine ⟨e, ?_, rfl⟩
      change (s.entries.insertIfNew n _)[k]? = some (some e)
      rw [insertIfNew_get, he]
      split <;> rfl
  | completed n timestamp c e₀ hnamed he₀ ht =>
      subst ht
      by_cases hk : n = k
      · subst hk
        rw [he] at he₀
        cases he₀
        exact ⟨update e timestamp c.size file, (insert_get _ _ _ _).trans (if_pos rfl), rfl⟩
      · exact ⟨e, (insert_get _ _ _ _).trans ((if_neg hk).trans he), rfl⟩

theorem ended_keepsTypes (pid status : Nat) (c : Collector String) (state : ProcessState) :
    KeepsTypes s.entries (reap pid state (ended (systemOps cfg) pid status c s)).entries := by
  intro k e he
  rw [reap_entries, ended_get]
  split
  · exact ⟨DumpEntry.setFailedStatus e, by rw [he]; rfl, rfl⟩
  · exact ⟨e, he, rfl⟩

theorem step_retimer {ev : Event Request FileEvent} (h : step (systemOps cfg) s ev = some t) :
    t.own.retimerState = s.own.retimerState ∨
    (∃ r, ev = .createDump r ∧ reaches cfg r s = some "RetLTSSM" ∧
      t.own.retimerState = s.own.retimerState.setDebugMode true r.retimerWritten) ∨
    ∃ io, ev = .handle io ∧ t.own.retimerState = s.own.retimerState.setDebugMode false io.retimerWritten := by
  cases step_cases h with
  | request r _ hfinal =>
      have hretimer := (createDump_retimer cfg r s).2
      have hfinal' : final ((some <$> createDump cfg r) s) = t := hfinal
      rw [hfinal'] at hretimer
      split at hretimer
      · rename_i hreaches
        exact .inr (.inl ⟨r, rfl, hreaches, hretimer⟩)
      · exact .inl hretimer
  | trimmed _ _ _ hown => exact .inl (congrArg Own.retimerState hown)
  | changed _ _ pid p state _ _ ht => exact .inl (ht ▸ rfl)
  | read p =>
      obtain ⟨-, w, -, rfl⟩ := step_watchReady h
      rw [setWatch]
      split <;> exact .inl rfl
  | handled io =>
      obtain ⟨path, mask, rest, -, ⟨-, -, u, hc⟩ | ⟨-, -, rfl⟩ | ⟨-, -, -, rfl⟩ | ⟨-, -, rfl⟩⟩ := step_handle h
      · cases createEntry_cases hc with
        | ignored _ ht => exact .inl (ht ▸ rfl)
        | created _ _ _ _ _ ht => exact .inl (ht ▸ rfl)
        | completed n timestamp c e _ _ ht =>
            subst ht
            by_cases htype : e.dumpType = "RetLTSSM"
            · refine .inr (.inr ⟨io, rfl, ?_⟩)
              rw [completed, if_pos htype]
              rfl
            · left
              rw [completed, if_neg htype]
              rfl
      all_goals exact .inl rfl
  | notified pid =>
      obtain ⟨-, c, p, status, -, -, -, rfl⟩ := step_childNotification h
      cases p.state <;> exact .inl rfl

theorem handle_off {io : FileEvent} (h : step (systemOps cfg) s (.handle io) = some t) {x : Path × Nat}
    (hx : x ∈ s.todo.head?) (hclose : x.2 = IN_CLOSE_WRITE) (hregular : s.disk.isDirectory x.1 = false)
    (hoff : SwitchesOff cfg s.entries x.1) : t.own.retimerState.enabled = false := by
  obtain ⟨n, hn, e, he, htype⟩ := hoff
  have he' : s.entries[n]? = some (some e) := Option.join_eq_some_iff.mp he
  obtain ⟨path, mask, rest, htodo, hcases⟩ := step_handle h
  rw [htodo, List.head?_cons] at hx
  obtain rfl : (path, mask) = x := Option.some.inj hx
  rcases hcases with ⟨-, -, u, hc⟩ | ⟨-, hdir, -⟩ | ⟨hcreate, -⟩ | ⟨hmask, -⟩
  · cases createEntry_cases hc with
    | ignored hno ht => exact absurd he' (hno n hn e)
    | created n' timestamp c hnamed hno ht =>
        obtain rfl : n' = n := Option.some.inj (hnamed.symm.trans hn)
        exact absurd he' (hno e)
    | completed n' timestamp c e₀ hnamed he₀ ht =>
        obtain rfl : n' = n := Option.some.inj (hnamed.symm.trans hn)
        have heq : s.entries[n']? = some (some e₀) := he₀
        rw [he'] at heq
        cases heq
        subst ht
        rw [completed, if_pos htype]
        rfl
  · rw [hregular] at hdir
    cases hdir
  · have hne : IN_CREATE = IN_CLOSE_WRITE := hcreate.symm.trans hclose
    exact absurd hne (by decide)
  · exact absurd hclose hmask

section Alive

theorem alive_of_eq (h : t.procs = s.procs) {type : String} (halive : type ∈ aliveKinds s) : type ∈ aliveKinds t := by
  obtain ⟨pid, p, hp, ha, hkind⟩ := mem_aliveKinds.mp halive
  exact mem_aliveKinds.mpr ⟨pid, p, h ▸ hp, ha, hkind⟩

theorem alive_of_started {pid : Nat} {c : Collector String} (hnew : pid ∉ s.procs)
    (h : t.procs = s.procs.insert pid ⟨c, .running⟩) {type : String} (halive : type ∈ aliveKinds s) :
    type ∈ aliveKinds t := by
  obtain ⟨q, p, hp, ha, hkind⟩ := mem_aliveKinds.mp halive
  have hne : pid ≠ q := by
    rintro rfl
    exact hnew ((mem_iff _ _).mpr ⟨p, hp⟩)
  exact mem_aliveKinds.mpr ⟨q, p, by rw [h, insert_get, if_neg hne, hp], ha, hkind⟩

theorem alive_started {pid id : Nat} {type : String} (h : t.procs = s.procs.insert pid ⟨⟨type, id⟩, .running⟩) :
    type ∈ aliveKinds t :=
  mem_aliveKinds.mpr ⟨pid, _, by rw [h, insert_get, if_pos rfl], alive_running _, rfl⟩

theorem alive_changeState {pid : Nat} {p : Process String} {state : ProcessState} (hp : s.procs[pid]? = some p)
    (hstate : ∀ status, state ≠ .exited status) {type : String} (halive : type ∈ aliveKinds s) :
    type ∈ aliveKinds (changeState s pid p state) := by
  obtain ⟨q, p', hp', ha, hkind⟩ := mem_aliveKinds.mp halive
  by_cases hq : pid = q
  · subst hq
    rw [hp] at hp'
    cases hp'
    exact mem_aliveKinds.mpr ⟨pid, { p with state := state }, (insert_get _ _ _ _).trans (if_pos rfl), hstate, hkind⟩
  · exact mem_aliveKinds.mpr ⟨q, p', (insert_get _ _ _ _).trans ((if_neg hq).trans hp'), ha, hkind⟩

theorem alive_other {pid : Nat} {type : String}
    (hne : ∀ p : Process String, s.procs[pid]? = some p → Alive p → p.collector.kind ≠ type)
    (halive : type ∈ aliveKinds s) : type ∈ aliveKinds { s with procs := s.procs.erase pid } := by
  obtain ⟨q, p, hp, ha, hkind⟩ := mem_aliveKinds.mp halive
  refine mem_aliveKinds.mpr ⟨q, p, (erase_get _ _ _).trans ((if_neg ?_).trans hp), ha, hkind⟩
  rintro rfl
  exact hne p hp ha hkind

theorem alive_exited {pid : Nat} {p : Process String} {state : ProcessState} {type : String}
    (halive : type ∈ aliveKinds { s with procs := s.procs.erase pid }) :
    type ∈ aliveKinds (changeState s pid p state) := by
  obtain ⟨q, p', hp', ha, hkind⟩ := mem_aliveKinds.mp halive
  change (s.procs.erase pid)[q]? = some p' at hp'
  rw [erase_get] at hp'
  split at hp'
  · cases hp'
  · rename_i hq
    exact mem_aliveKinds.mpr ⟨q, p', (insert_get _ _ _ _).trans ((if_neg hq).trans hp'), ha, hkind⟩

end Alive

/-- The invariant: while the debug mode is on, it is due to be switched off. -/
def OffDue (cfg : Config) (s : SystemDaemon) : Prop := s.own.retimerState.enabled = true → Due cfg s.entries s

theorem createDump_offDue {r : Request} (hC : KeepsDue cfg s (.createDump r))
    (h : step (systemOps cfg) s (.createDump r) = some t) : OffDue cfg t := by
  intro hon
  have hcommand : s.own.retimerState.enabled = true ∨ reaches cfg r s = some "RetLTSSM" := by
    rcases step_retimer h with hkept | ⟨r', hr', hreaches, -⟩ | ⟨io, hio, -⟩
    · exact .inl (hkept ▸ hon)
    · cases hr'
      exact .inr hreaches
    · cases hio
  obtain ⟨hgrow, htodo⟩ := step_watches (sound cfg) h (fun _ h => by cases h) (fun _ h => by cases h)
  have htypes : KeepsTypes (final (limitDumpEntries cfg.SYSTEM_DUMP_MAX_LIMIT s)).entries t.entries := by
    obtain ⟨-, -, hresult⟩ := step_createDump h
    have hfinal : final ((some <$> createDump cfg r) s) = t := final_of_reply (reply_eq_some.mpr hresult)
    exact hfinal ▸ keepsTypes_of_entries (createDump_retimer cfg r s).1
  obtain ⟨-, hfresh, -⟩ := step_createDump h
  have hcaptures : Captures cfg r s t := by
    cases step_moves h with
    | quiet _ hev => exact absurd rfl (hev r)
    | captured _ _ hcaptures => exact hcaptures
    | changed _ hev => exact absurd rfl (hev r)
  rcases hC hcommand with ⟨hreaches, hpid⟩ | hdue
  · cases hcaptures with
    | refused hnone =>
        rw [hnone] at hreaches
        cases hreaches
    | unforked type _ hnone =>
        rw [hnone] at hpid
        cases hpid
    | unregistered type pid id hreaches' _ _ _ hprocs | registered type pid id hreaches' _ _ hprocs =>
        obtain rfl : type = "RetLTSSM" := Option.some.inj (hreaches'.symm.trans hreaches)
        exact .inl (alive_started hprocs)
  · refine hdue.kept htypes (fun halive => ?_) hgrow htodo
    cases hcaptures with
    | refused _ _ hprocs => exact alive_of_eq hprocs halive
    | unforked _ _ _ _ hprocs => exact alive_of_eq hprocs halive
    | unregistered type pid id _ hpid _ _ hprocs => exact alive_of_started (not_mem_of_fresh hfresh hpid) hprocs halive
    | registered type pid id _ hpid _ hprocs => exact alive_of_started (not_mem_of_fresh hfresh hpid) hprocs halive

theorem handle_kept {io : FileEvent} (h : step (systemOps cfg) s (.handle io) = some t) :
    KeepsTypes s.entries t.entries ∧ t.procs = s.procs := by
  obtain ⟨path, mask, rest, -, ⟨-, -, u, hc⟩ | ⟨-, -, rfl⟩ | ⟨-, -, -, rfl⟩ | ⟨-, -, rfl⟩⟩ := step_handle h
  · have htypes : KeepsTypes (unwatched s rest path.dropLast).entries t.entries := createEntry_keepsTypes hc
    exact ⟨htypes, (createEntry_filed hc).procs⟩
  all_goals exact ⟨fun k e he => ⟨e, he, rfl⟩, rfl⟩

theorem handle_offDue {io : FileEvent} (hC : KeepsDue cfg s (.handle io))
    (h : step (systemOps cfg) s (.handle io) = some t) : OffDue cfg t := by
  intro hon
  have hbefore : s.own.retimerState.enabled = true := by
    rcases step_retimer h with hkept | ⟨r, hr, -⟩ | ⟨io', hio, hoff⟩
    · exact hkept ▸ hon
    · cases hr
    · rw [hoff] at hon
      cases hon
  obtain ⟨htypes, hprocs⟩ := handle_kept h
  obtain ⟨path, mask, rest, htodo, -⟩ := step_handle h
  have hhead : (path, mask) ∈ s.todo.head? := by simp [htodo]
  rcases hC hbefore (path, mask) hhead with ⟨hclose, hregular, hoff⟩ | halive | hpending
  · rw [handle_off h hhead hclose hregular hoff] at hon
    cases hon
  · have htaken : (takeItem s path mask).procs = s.procs := by
      rw [takeItem]
      split <;> rfl
    exact .inl (alive_of_eq (hprocs.trans htaken.symm) halive)
  · exact .inr (pending_of_taken (sound cfg) h hhead (hpending.mono htypes.switchesOff))

theorem notification_offDue {pid : Nat} (hs : OffDue cfg s)
    (h : step (systemOps cfg) s (.childNotification pid) = some t) :
    OffDue cfg t := by
  intro hon
  have hbefore : s.own.retimerState.enabled = true := by
    rcases step_retimer h with hkept | ⟨r, hr, -⟩ | ⟨io, hio, -⟩
    · exact hkept ▸ hon
    · cases hr
    · cases hio
  obtain ⟨hgrow, htodo⟩ := step_watches (sound cfg) h (fun _ h => by cases h) (fun _ h => by cases h)
  have hmoves := step_moves h
  obtain ⟨-, c, p, status, hchild, hp, -, rfl⟩ := step_childNotification h
  refine (hs hbefore).kept (ended_keepsTypes pid status c p.state) (fun halive => ?_) hgrow htodo
  cases hstate : p.state with
  | running | stopped signal => exact alive_of_eq rfl halive
  | exited status' =>
      have hdead : ∀ p' : Process String, s.procs[pid]? = some p' → Alive p' → p'.collector.kind ≠ "RetLTSSM" := by
        intro p' hp' ha
        rw [hp] at hp'
        cases hp'
        exact absurd hstate (ha status')
      exact alive_of_eq rfl (alive_other hdead halive)

/-- The step lemma: a step that meets the condition leaves the debug mode due to be switched off. -/
theorem step_offDue {ev : Event Request FileEvent} (hwatching : Watching s) (hkeyed : Keyed s) (hs : OffDue cfg s)
    (hC : KeepsDue cfg s ev) (h : step (systemOps cfg) s ev = some t) : OffDue cfg t := by
  intro hon
  cases ev with
  | createDump r => exact createDump_offDue hC h hon
  | delete id =>
      obtain ⟨-, e, he, rfl⟩ := step_delete h
      have htrim := trimmed_deleteEntry s e
      have hown : (s.deleteEntry e).own = s.own := sameOwn_deleteEntry s e
      have hkey : (DumpEntry.base e).id = id := hkeyed id e he
      rw [hown] at hon
      rw [deleteEntry_entries, hkey]
      exact (hC hon).kept (fun k e he => ⟨e, he, rfl⟩) (alive_of_eq htrim.procs) htrim.watches htrim.todo
  | deleteAll =>
      obtain ⟨-, hrun⟩ := step_deleteAll h
      have hfinal := final_of_reply (reply_eq_some.mpr hrun)
      have htrim := keeps_deleteAll s
      have hown := deleteAll_keeps (fun s _ e _ => sameOwn_deleteEntry s e) s
      rw [hfinal] at htrim hown
      have hown' : t.own = s.own := hown
      rw [hown'] at hon
      exact .inl (alive_of_eq htrim.procs (hC hon))
  | files f =>
      obtain rfl := step_files h
      have hfiles := filesOnly_files s f
      rw [hfiles.own] at hon
      rw [hfiles.entries]
      exact (hs hon).kept (fun k e he => ⟨e, he, rfl⟩) (alive_of_eq hfiles.procs) hfiles.watches hfiles.todo
  | exits pid status =>
      obtain ⟨p, hp, -, rfl⟩ := step_exits h
      have hdue : Due cfg s.entries { s with procs := s.procs.erase pid } := by
        by_cases hkind : p.collector.kind = "RetLTSSM"
        · exact hC hon p hp hkind
        · refine (hs hon).kept (fun k e he => ⟨e, he, rfl⟩) (alive_other fun p' hp' _ => ?_)
            (watchesGrow_of_eq rfl rfl) rfl
          rw [hp] at hp'
          cases hp'
          exact hkind
      exact hdue.kept (fun k e he => ⟨e, he, rfl⟩) alive_exited (watchesGrow_of_eq rfl rfl) rfl
  | stops pid signal =>
      obtain ⟨p, hp, -, -, rfl⟩ := step_stops h
      exact (hs hon).kept (fun k e he => ⟨e, he, rfl⟩) (alive_changeState hp (by simp)) (watchesGrow_of_eq rfl rfl) rfl
  | continues pid =>
      obtain ⟨p, signal, hp, -, rfl⟩ := step_continues h
      exact (hs hon).kept (fun k e he => ⟨e, he, rfl⟩) (alive_changeState hp (by simp)) (watchesGrow_of_eq rfl rfl) rfl
  | watchReady p =>
      obtain ⟨htodo, w, hw, ht⟩ := step_watchReady h
      obtain rfl : t = readWatch s p w := ht
      obtain ⟨hentries, hown, hprocs⟩ := readWatch_same s p w
      rw [hown] at hon
      rw [hentries]
      by_cases hp : p = []
      · subst hp
        obtain rfl : s.dumpWatch = w := Option.some.inj hw
        exact hC hon rfl
      · exact (hs hon).imp (alive_of_eq hprocs) (pending_readWatch hwatching hp hw htodo)
  | handle io => exact handle_offDue hC h hon
  | childNotification pid => exact notification_offDue hs h hon

theorem step_shown {ev : Event Request FileEvent} (hs : s.own.retimerState.debugMode = s.own.retimerState.enabled)
    (hwritten : Written ev) (h : step (systemOps cfg) s ev = some t) :
    t.own.retimerState.debugMode = t.own.retimerState.enabled := by
  rcases step_retimer h with hkept | ⟨r, rfl, -, hon⟩ | ⟨io, rfl, hoff⟩
  · rw [hkept]
    exact hs
  · have hdevice : r.retimerWritten = true := hwritten
    rw [hon, hdevice]
    rfl
  · have hdevice : io.retimerWritten = true := hwritten
    rw [hoff, hdevice]
    rfl

end Steps

section Runs

variable {s : SystemDaemon}

structure Followed (s : SystemDaemon) : Prop where
  watching : Watching s
  keyed : Keyed s
  offDue : OffDue cfg s
  shown : s.own.retimerState.debugMode = s.own.retimerState.enabled

variable {cfg}

theorem Followed.debugModeOff (hs : Followed cfg s) : DebugModeOff s := by
  intro hnone hquiet
  have hoff : s.own.retimerState.enabled = false := by
    refine Bool.eq_false_iff.mpr fun hon => ?_
    rcases hs.offDue hon with halive | hpending
    · obtain ⟨pid, p, hp, ha, hkind⟩ := mem_aliveKinds.mp halive
      exact hnone pid p hp ha hkind
    · exact hquiet.not_pending hpending
  have hshown := hs.shown
  rw [hoff] at hshown
  cases hretimer : s.own.retimerState with
  | mk enabled debugMode =>
      rw [hretimer] at hoff hshown
      cases hoff
      cases hshown
      rfl

theorem retimer_of_started (h : Started cfg s) : s.own.retimerState = ⟨false, false⟩ := by
  have hcreate : ∀ io file, Preserves (fun s : SystemDaemon => s.own.retimerState = ⟨false, false⟩)
      (createEntry cfg io file) := by
    intro io file s _ t hs h
    cases createEntry_cases h with
    | ignored _ ht => exact ht ▸ hs
    | created _ _ _ _ _ ht =>
        subst ht
        exact hs
    | completed n timestamp c e _ _ ht =>
        subst ht
        simp only [completed]
        split
        · -- the command to switch off finds the debug mode off
          have hoff : (setDebugMode false io.retimerWritten s.own).retimerState = ⟨false, false⟩ := by
            rw [setDebugMode, hs]
            cases io.retimerWritten <;> rfl
          exact hoff
        · exact hs
  exact invariant_started cfg (fun _ => rfl) hcreate (fun _ _ hs => hs) h

theorem debugMode_off_of_keepsDue {es : List (Event Request FileEvent)} (hs : Started cfg s)
    (hwritten : EachStep (step (systemOps cfg)) (fun _ ev => Written ev) s es)
    (hC : EachStep (step (systemOps cfg)) (KeepsDue cfg) s es) : Always (step (systemOps cfg)) DebugModeOff s es := by
  have hidle := idle_of_started cfg hs
  have hretimer := retimer_of_started hs
  have hfollowed : Followed cfg s := by
    refine ⟨watching_of_idle hidle, hidle.keyed, fun hon => ?_, by rw [hretimer]⟩
    rw [hretimer] at hon
    cases hon
  refine always_along (I := Followed cfg) (fun _ h => h.debugModeOff) (fun s ev t hI hC h => ?_) hfollowed
    (eachStep_and hwritten hC)
  exact ⟨step_watching (sound cfg) s ev t hI.watching h, step_keyed (sound cfg) s ev t hI.keyed h,
    step_offDue hI.watching hI.keyed hI.offDue hC.2 h, step_shown hI.shown hC.1 h⟩

end Runs

section Files

private def unforkedLtssm : Request := { diagnosticRequest "RetLTSSM" 7 with fork := ⟨none, true⟩ }

theorem failed_fork_leaves_debug_mode_on : ∃ s t, Started defaultConfig s ∧
    EachStep (step (systemOps defaultConfig)) (fun _ ev => Written ev) s [.createDump unforkedLtssm] ∧
    run (step (systemOps defaultConfig)) s [.createDump unforkedLtssm] = some t ∧
    (∀ pid : Nat, t.procs[pid]? = none) ∧ Quiet t ∧ t.own.retimerState = ⟨true, true⟩ ∧ ¬ DebugModeOff t := by
  have h : ((run (step (systemOps defaultConfig)) (bare ⟨∅, ⟨false, false⟩⟩ .root) [.createDump unforkedLtssm]).map
      fun (t : SystemDaemon) => decide (t.own.retimerState.enabled = true ∧ t.own.retimerState.debugMode = true ∧
        t.todo = [] ∧ (watches t).map Watch.queue = [[]] ∧ t.procs.toList = [])) = some true := by decide +kernel
  obtain ⟨t, hrun, h⟩ := Option.map_eq_some_iff.mp h
  obtain ⟨hon, hshown, htodo, hqueues, hprocs⟩ := of_decide_eq_true h
  have hnone (pid : Nat) : t.procs[pid]? = none := get_of_toList hprocs
  have hquiet := quiet_of_toList htodo hqueues hprocs
  have hretimer : t.own.retimerState = ⟨true, true⟩ := by
    cases hr : t.own.retimerState with
    | mk enabled debugMode =>
        rw [hr] at hon hshown
        cases hon
        cases hshown
        rfl
  refine ⟨_, t, started_root _, by decide, hrun, hnone, hquiet, hretimer, fun hoff => ?_⟩
  have hfalse := hoff (fun pid p hp => by rw [hnone] at hp; cases hp) hquiet
  rw [hretimer] at hfalse
  cases hfalse

private def collectedLtssm : List (Event Request FileEvent) :=
  [.createDump (diagnosticRequest "RetLTSSM" 7), .files (.mkdir [] "1"), .watchReady [],
    .handle ⟨true, .done, true, 0, 0⟩, .files (.openFile ["1"] "obmcdump_1_1.tar"),
    .files (.closeFile ["1"] "obmcdump_1_1.tar"), .exits 7 0, .childNotification 7, .watchReady ["1"],
    .handle ⟨true, .done, true, 0, 0⟩]

theorem written_file_switches_debug_mode_off :
    Always (step (systemOps defaultConfig)) DebugModeOff (bare ⟨∅, ⟨false, false⟩⟩ .root) collectedLtssm :=
  debugMode_off_of_keepsDue (started_root defaultConfig) (by decide +kernel) (by decide +kernel)

end Files

end DumpCollector.System.DebugMode
