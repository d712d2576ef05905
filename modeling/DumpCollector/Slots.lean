import DumpCollector.Steps

namespace DumpCollector.Slots

open Std Lib.Directory Lib.Effects Lib.Maps Lib.Runs Entries Inotify Requests State Dispatch Frames Steps

variable {E X C R I : Type} [DumpEntry E]

def Keyed (s : Daemon E X C) : Prop := ∀ (k : Nat) (e : E), s.entries[k]? = some (some e) → (DumpEntry.base e).id = k

def NonNull (s : Daemon E X C) : Prop := ∀ k : Nat, s.entries[k]? ≠ some none

def SlotsFrom (s t : Daemon E X C) : Prop :=
  ∀ (k : Nat) (v : Option E), t.entries[k]? = some v →
    s.entries[k]? = some v ∨ ∃ e, v = some e ∧ (DumpEntry.base e).id = k

theorem SlotsFrom.keyed {s t : Daemon E X C} (h : SlotsFrom s t) (hs : Keyed s) : Keyed t := by
  intro k e he
  rcases h k _ he with hk | ⟨e', he', hid⟩
  · exact hs k e hk
  · cases he'
    exact hid

theorem SlotsFrom.nonNull {s t : Daemon E X C} (h : SlotsFrom s t) (hs : NonNull s) : NonNull t := by
  intro k hk
  rcases h k none hk with hk | ⟨e, he, -⟩
  · exact hs k hk
  · cases he

theorem slotsFrom_trimmed {s t : Daemon E X C} (h : Trimmed s t) : SlotsFrom s t :=
  fun k v hv => .inl (h.entries k v hv)

theorem slotsFrom_filed {named : Option Nat} {file : Path} {s t : Daemon E X C} (h : Filed named file s t)
    (hs : Keyed s) : SlotsFrom s t := by
  intro k v hv
  rcases h.entries with ⟨heq, -⟩ | ⟨n, e, -, heq, -, -, hold⟩
  · rw [heq] at hv
    exact .inl hv
  · rw [heq, insert_get] at hv
    split at hv
    · rename_i hk
      cases hv
      subst hk
      rcases hold with ⟨-, hid⟩ | ⟨e', he', hid⟩
      · exact .inr ⟨e, rfl, hid⟩
      · exact .inr ⟨e, rfl, hid.trans (hs n e' he')⟩
    · exact .inl hv

section Startup

/-- A manager that has not yet seen an event: no collector, no watch but that on the
dump directory, and every entry in its own slot. -/
structure Idle (s : Daemon E X C) : Prop where
  childPtrMap : ∀ pid : Nat, s.childPtrMap[pid]? = none
  procs : ∀ pid : Nat, s.procs[pid]? = none
  childWatchMap : ∀ p : Path, s.childWatchMap[p]? = none
  todo : s.todo = []
  root : Grows (.new [] (IN_CLOSE_WRITE ||| IN_CREATE)) s.dumpWatch
  keyed : Keyed s
  nonNull : NonNull s

theorem idle_bare (own : X) (disk : FileTree Content) : Idle (bare own disk : Daemon E X C) where
  childPtrMap _ := ExtTreeMap.getElem?_empty
  procs _ := ExtTreeMap.getElem?_empty
  childWatchMap _ := ExtTreeMap.getElem?_empty
  todo := rfl
  root := grows_rfl _
  keyed k e h := by
    have hnone : (bare own disk : Daemon E X C).entries[k]? = none := ExtTreeMap.getElem?_empty
    rw [hnone] at h
    cases h
  nonNull k h := by
    have hnone : (bare own disk : Daemon E X C).entries[k]? = none := ExtTreeMap.getElem?_empty
    rw [hnone] at h
    cases h

theorem idle_filed {named : Option Nat} {file : Path} {s t : Daemon E X C} (h : Filed named file s t)
    (hs : Idle s) : Idle t where
  childPtrMap pid := by rw [h.childPtrMap, hs.childPtrMap]
  procs pid := by rw [h.procs, hs.procs]
  childWatchMap p := h.watches.absent p (hs.childWatchMap p)
  todo := h.todo.trans hs.todo
  root := hs.root.trans h.watches.root
  keyed := (slotsFrom_filed h hs.keyed).keyed hs.keyed
  nonNull := (slotsFrom_filed h hs.keyed).nonNull hs.nonNull

theorem idle_lastEntryId {s : Daemon E X C} (n : Nat) (hs : Idle s) : Idle { s with lastEntryId := n } :=
  ⟨hs.childPtrMap, hs.procs, hs.childWatchMap, hs.todo, hs.root, hs.keyed, hs.nonNull⟩

end Startup

def failure (s : Daemon E X C) (pid : Nat) : Option Nat :=
  match s.childPtrMap[pid]?, s.procs[pid]? with
  | some c, some p => (siStatus p.state).bind fun status => if status = 0 then none else some c.entryId
  | _, _ => none

omit [DumpEntry E] in
theorem failure_eq {s : Daemon E X C} {pid status : Nat} {c : Collector C} {p : Process C}
    (hchild : s.childPtrMap[pid]? = some c) (hp : s.procs[pid]? = some p) (hstatus : siStatus p.state = some status) :
    failure s pid = if status = 0 then none else some c.entryId := by
  simp only [failure, hchild, hp, hstatus, Option.bind_some]

def FindsEntry (s : Daemon E X C) : Event R I → Prop
  | .childNotification pid => ∀ n ∈ failure s pid, n ∈ s.entries
  | _ => True

instance decidableFindsEntry (s : Daemon E X C) (e : Event R I) : Decidable (FindsEntry s e) :=
  match e with
  | .childNotification pid => inferInstanceAs (Decidable (∀ n ∈ failure s pid, n ∈ s.entries))
  | .createDump _ | .delete _ | .deleteAll | .files _ | .exits _ _ | .stops _ _ | .continues _ | .watchReady _
  | .handle _ => isTrue trivial

theorem ended_get (ops : Ops E X C R I) (pid status : Nat) (c : Collector C) (s : Daemon E X C) (k : Nat) :
    (ended ops pid status c s).entries[k]? =
      if status ≠ 0 ∧ c.entryId = k then some ((s.entries[k]?.getD none).map DumpEntry.setFailedStatus)
      else s.entries[k]? := by
  rw [ended]
  by_cases h : status = 0
  · simp [h]
  · simp only [h, if_false, alter_get, ne_eq, not_false_eq_true, true_and]
    split
    · rename_i hk
      rw [hk]
    · rfl

omit [DumpEntry E] in
theorem reap_entries (pid : Nat) (state : ProcessState) (s : Daemon E X C) :
    (reap pid state s).entries = s.entries := by
  cases state <;> rfl

/-- Where the content of a slot comes from when a step leaves it there. -/
inductive SlotFrom (ops : Ops E X C R I) (named : Path → Option Nat) (s t : Daemon E X C) (k : Nat) :
    Event R I → Option E → Prop
  | kept (ev : Event R I) (v : Option E) (hv : s.entries[k]? = some v) : SlotFrom ops named s t k ev v
  | created (r : R) (pid : Nat) (kind : C) (e : E) (hr : ops.createDump r s = .ok (some k) t)
      (hpid : (ops.fork r).pid = some pid) (hchild : t.childPtrMap = s.childPtrMap.insertIfNew pid ⟨kind, k⟩)
      (hprocs : t.procs = s.procs.insert pid ⟨⟨kind, k⟩, .running⟩) (hid : (DumpEntry.base e).id = k)
      (hst : (DumpEntry.base e).status = .InProgress) (hfile : DumpEntry.file e = none) :
      SlotFrom ops named s t k (.createDump r) (some e)
  | filed (io : I) (path : Path) (rest : List (Path × Nat)) (e : E)
      (htodo : s.todo = (path, IN_CLOSE_WRITE) :: rest) (hnamed : named path = some k)
      (hst : (DumpEntry.base e).status = .Completed) (hfile : DumpEntry.file e = some path)
      (hold : (s.entries[k]? = none ∧ (DumpEntry.base e).id = k) ∨
        ∃ e', s.entries[k]? = some (some e') ∧ (DumpEntry.base e).id = (DumpEntry.base e').id)
      (hregular : s.disk.isDirectory path = false) : SlotFrom ops named s t k (.handle io) (some e)
  | failed (pid : Nat) (hfail : failure s pid = some k) :
      SlotFrom ops named s t k (.childNotification pid)
        ((s.entries[k]?.getD none).map DumpEntry.setFailedStatus)

theorem outcome_slot {f : Fork} {s : Daemon E X C} {r : EStateM.Result Exn (Daemon E X C) (Option Nat)}
    (h : Outcome f s r) {k : Nat} {v : Option E} (hv : (final r).entries[k]? = some v) :
    s.entries[k]? = some v ∨ ∃ e pid kind t, v = some e ∧ r = .ok (some k) t ∧ f.pid = some pid ∧
      t.childPtrMap = s.childPtrMap.insertIfNew pid ⟨kind, k⟩ ∧
      t.procs = s.procs.insert pid ⟨⟨kind, k⟩, .running⟩ ∧ (DumpEntry.base e).id = k ∧
      (DumpEntry.base e).status = .InProgress ∧ DumpEntry.file e = none := by
  cases h with
  | refused e t ht => exact .inl (ht.entries k v hv)
  | unregistered e pid kind u own hu => exact .inl (hu.entries k v hv)
  | unfinished _ pid kind u hu _ _ _ hfin =>
      rw [hfin] at hv
      exact .inl (hu.entries k v hv)
  | inserted pid kind u e own hu hpid _ hid hst hfile =>
      change (u.entries.insertIfNew (nextEntryId u) (some e))[k]? = some v at hv
      rcases insertIfNew_cases hv with hv | ⟨rfl, -, rfl⟩
      · exact .inl (hu.entries k v hv)
      · refine .inr ⟨e, pid, kind, _, rfl, rfl, hpid, ?_, ?_, hid, hst, hfile⟩
        · rw [← hu.childPtrMap]
          rfl
        · rw [← hu.procs]
          rfl

/-- The step lemma for the slots: each step either leaves what was there, or leaves what
its own event says. -/
theorem step_slot {ops : Ops E X C R I} {named : Path → Option Nat} (hops : Sound ops named)
    {s t : Daemon E X C} {ev : Event R I} (h : step ops s ev = some t) {k : Nat} {v : Option E}
    (hv : t.entries[k]? = some v) : SlotFrom ops named s t k ev v := by
  cases step_cases h with
  | request r _ hfinal =>
      have hfin : (final (ops.createDump r s)).entries[k]? = some v := by rwa [hfinal]
      rcases outcome_slot (hops.createDump r s) hfin with
        hkept | ⟨e, pid, kind, u, rfl, hu, hpid, hchild, hprocs, hid, hst, hfile⟩
      · exact .kept _ v hkept
      · rw [hu] at hfinal
        cases hfinal
        exact .created r pid kind e hu hpid hchild hprocs hid hst hfile
  | trimmed _ _ htrim => exact .kept _ v (htrim.entries k v hv)
  | changed _ _ pid p state _ _ ht =>
      subst ht
      exact .kept _ v hv
  | read p =>
      obtain ⟨-, w, -, rfl⟩ := step_watchReady h
      apply SlotFrom.kept _ v
      rw [setWatch] at hv
      split at hv <;> exact hv
  | handled io =>
      obtain ⟨path, mask, rest, htodo, ⟨rfl, hregular, u, hc⟩ | ⟨-, -, rfl⟩ | ⟨-, -, -, rfl⟩ |
        ⟨-, -, rfl⟩⟩ := step_handle h
      · rcases (hops.createEntry _ _ _ _ _ hc).entries with ⟨heq, -⟩ | ⟨n, e, hnamed, heq, hst, hfile, hold⟩
        · rw [heq] at hv
          exact .kept _ v hv
        · rw [heq, insert_get] at hv
          split at hv
          · rename_i hk
            subst hk
            cases hv
            exact .filed io path rest e htodo hnamed hst hfile hold hregular
          · exact .kept _ v hv
      all_goals exact .kept _ v hv
  | notified pid =>
      obtain ⟨-, c, p, status, hchild, hp, hstatus, rfl⟩ := step_childNotification h
      rw [reap_entries, ended_get] at hv
      split at hv
      · rename_i hc
        cases hv
        apply SlotFrom.failed pid
        rw [failure_eq hchild hp hstatus, if_neg hc.1, hc.2]
      · exact .kept _ v hv

omit [DumpEntry E] in
theorem getD_eq_some {slot : Option (Option E)} {e : E} (h : slot.getD none = some e) : slot = some (some e) := by
  cases slot with
  | none => cases h
  | some v => exact congrArg some h

theorem step_keyed {ops : Ops E X C R I} {named : Path → Option Nat} (hops : Sound ops named)
    (s : Daemon E X C) (ev : Event R I) (t : Daemon E X C) (hs : Keyed s) (h : step ops s ev = some t) : Keyed t := by
  intro k e he
  have hslot := step_slot hops h he
  generalize hv : some e = v at hslot
  cases hslot with
  | kept _ _ hkept => exact hs k e (hv ▸ hkept)
  | created r pid kind e' _ _ _ _ hid =>
      cases hv
      exact hid
  | filed io path rest e' _ _ _ _ hold =>
      cases hv
      rcases hold with ⟨-, hid⟩ | ⟨old, hold, hid⟩
      · exact hid
      · exact hid.trans (hs k old hold)
  | failed pid =>
      obtain ⟨e', he', rfl⟩ := Option.map_eq_some_iff.mp hv.symm
      rw [DumpEntry.base_setFailedStatus]
      exact hs k e' (getD_eq_some he')

/-- The step lemma: where no slot is empty, a step leaves none exactly if a failure it
reports finds its entry. -/
theorem step_nonNull_iff {ops : Ops E X C R I} {named : Path → Option Nat} (hops : Sound ops named)
    (s : Daemon E X C) (ev : Event R I) (t : Daemon E X C) (hn : NonNull s)
    (h : step ops s ev = some t) : NonNull t ↔ FindsEntry s ev := by
  constructor
  · intro ht
    cases ev with
    | childNotification pid =>
        obtain ⟨-, c, p, status, hchild, hp, hstatus, rfl⟩ := step_childNotification h
        intro n hfail
        rw [failure_eq hchild hp hstatus] at hfail
        by_contra habsent
        apply ht n
        split at hfail
        · cases hfail
        · rename_i hzero
          cases hfail
          rw [reap_entries, ended_get, if_pos ⟨hzero, rfl⟩, (not_mem_iff _ _).mp habsent]
          rfl
    | _ => trivial
  · intro hfind k hk
    have hslot := step_slot hops h hk
    generalize hv : (none : Option E) = v at hslot
    cases hslot with
    | kept _ _ hkept => exact hn k (hv ▸ hkept)
    | created => cases hv
    | filed => cases hv
    | failed pid hfail =>
        obtain ⟨w, hw⟩ := (mem_iff _ _).mp (hfind k hfail)
        cases w with
        | none => exact hn k hw
        | some e =>
            rw [hw] at hv
            cases hv

theorem step_file {ops : Ops E X C R I} {named : Path → Option Nat} (hops : Sound ops named)
    {s t : Daemon E X C} {ev : Event R I} (hev : ∀ io, ev ≠ .handle io) (h : step ops s ev = some t)
    {k : Nat} {e : E} (he : t.entries[k]? = some (some e)) {file : Path} (hfile : DumpEntry.file e = some file) :
    ∃ e', s.entries[k]? = some (some e') ∧ DumpEntry.file e' = some file := by
  have hslot := step_slot hops h he
  generalize hv : some e = v at hslot
  cases hslot with
  | kept _ _ hkept => exact ⟨e, hv ▸ hkept, hfile⟩
  | created r pid kind e' _ _ _ _ _ _ hnone =>
      cases hv
      rw [hnone] at hfile
      cases hfile
  | filed io => exact absurd rfl (hev io)
  | failed pid =>
      obtain ⟨e', he', rfl⟩ := Option.map_eq_some_iff.mp hv.symm
      rw [DumpEntry.file_setFailedStatus] at hfile
      exact ⟨e', getD_eq_some he', hfile⟩

section Deletions

theorem deleteEntry_entries (s : Daemon E X C) (e : E) :
    (s.deleteEntry e).entries = s.entries.erase (DumpEntry.base e).id := by
  rw [Daemon.deleteEntry]
  split <;> rfl

theorem deleteEach_ok {keys : List Nat} {s : Daemon E X C} (hs : Keyed s) (hnodup : keys.Nodup)
    (hkeys : ∀ k ∈ keys, ∃ e, s.entries[k]? = some (some e)) :
    ∃ t, deleteEach keys s = .ok () t ∧ ∀ k : Nat, t.entries[k]? = if k ∈ keys then none else s.entries[k]? := by
  induction keys generalizing s with
  | nil => exact ⟨s, rfl, fun k => by simp⟩
  | cons key keys ih =>
      obtain ⟨hnot, hnodup⟩ := List.nodup_cons.mp hnodup
      obtain ⟨e, he⟩ := hkeys key (by simp)
      have hget : ∀ k : Nat, (s.deleteEntry e).entries[k]? = if key = k then none else s.entries[k]? := by
        intro k
        rw [deleteEntry_entries, erase_get, hs key e he]
      have hkeyed : Keyed (s.deleteEntry e) := (slotsFrom_trimmed (trimmed_deleteEntry s e)).keyed hs
      have hrest : ∀ k ∈ keys, ∃ e', (s.deleteEntry e).entries[k]? = some (some e') := by
        intro k hk
        have hne : key ≠ k := fun h => hnot (h ▸ hk)
        rw [hget, if_neg hne]
        exact hkeys k (by simp [hk])
      obtain ⟨t, ht, hentries⟩ := ih hkeyed hnodup hrest
      refine ⟨t, (bind_of_ok (deleteAt_some he) _).trans ht, fun k => ?_⟩
      rw [hentries, hget]
      by_cases hk : key = k
      · simp [hk]
      · simp [hk, Ne.symm hk]

theorem deleteEach_error {keys : List Nat} {s t : Daemon E X C} {e : Exn} (h : deleteEach keys s = .error e t) :
    e = .nullDereference := by
  induction keys generalizing s with
  | nil => cases h
  | cons key keys ih =>
      rcases bind_eq_error.mp h with hat | ⟨u, v, -, hrest⟩
      · by_cases hentry : ∃ e, s.entries[key]? = some (some e)
        · obtain ⟨entry, he⟩ := hentry
          rw [deleteAt_some he] at hat
          cases hat
        · rw [deleteAt_empty (fun entry he => hentry ⟨entry, he⟩)] at hat
          cases hat
          rfl
      · exact ih hrest

theorem deleteEach_erased {keys : List Nat} {s t : Daemon E X C} {u : Unit} (hs : Keyed s)
    (h : deleteEach keys s = .ok u t) {k : Nat} (hk : k ∈ keys) : t.entries[k]? = none := by
  induction keys generalizing s with
  | nil => cases hk
  | cons key keys ih =>
      obtain ⟨_, v, hat, hrest⟩ := bind_eq_ok.mp h
      obtain ⟨e, he, rfl⟩ := deleteAt_eq_ok.mp hat
      have hkeyed : Keyed (s.deleteEntry e) := (slotsFrom_trimmed (trimmed_deleteEntry s e)).keyed hs
      rcases List.mem_cons.mp hk with rfl | hk
      · have hgone : (s.deleteEntry e).entries[k]? = none := by
          rw [deleteEntry_entries, erase_get, hs k e he, if_pos rfl]
        cases ht : t.entries[k]? with
        | none => rfl
        | some w =>
            have hv := ((keeps_deleteEach keys).ok hrest).entries k w ht
            rw [hgone] at hv
            cases hv
      · exact ih hkeyed hrest hk

omit [DumpEntry E] in
theorem exists_of_mem_keys {s : Daemon E X C} (hn : NonNull s) {k : Nat} (hk : k ∈ s.entries.keys) :
    ∃ e, s.entries[k]? = some (some e) := by
  obtain ⟨v, hv⟩ := (mem_iff _ _).mp (ExtTreeMap.mem_keys.mp hk)
  cases v with
  | none => exact absurd hv (hn k)
  | some e => exact ⟨e, hv⟩

theorem deleteAll_ok {s : Daemon E X C} (hs : Keyed s) (hn : NonNull s) : ∃ t, deleteAll s = .ok () t := by
  obtain ⟨t, ht, -⟩ := deleteEach_ok hs ExtTreeMap.nodup_keys fun k hk => exists_of_mem_keys hn hk
  exact ⟨t, ht⟩

theorem limitDumpEntries_below {s : Daemon E X C} {limit : Nat} (h : limit = 0 ∨ s.entries.size < limit) :
    limitDumpEntries limit s = .ok () s := by
  simp only [limitDumpEntries, get_bind, h, if_true, pure_apply]

theorem limitDumpEntries_above {s : Daemon E X C} {limit : Nat} (h : ¬ (limit = 0 ∨ s.entries.size < limit)) :
    limitDumpEntries limit s = deleteEach (s.entries.keys.take (s.entries.size - (limit - 1))) s := by
  simp only [limitDumpEntries, get_bind, h, if_false]

theorem limitDumpEntries_ok {s : Daemon E X C} (hs : Keyed s) (hn : NonNull s) (limit : Nat) :
    ∃ t, limitDumpEntries limit s = .ok () t := by
  by_cases hlimit : limit = 0 ∨ s.entries.size < limit
  · exact ⟨s, limitDumpEntries_below hlimit⟩
  · have hnodup := (ExtTreeMap.nodup_keys (t := s.entries)).sublist
      (List.take_sublist (s.entries.size - (limit - 1)) s.entries.keys)
    obtain ⟨t, ht, -⟩ := deleteEach_ok hs hnodup fun k hk => exists_of_mem_keys hn (List.mem_of_mem_take hk)
    exact ⟨t, (limitDumpEntries_above hlimit).trans ht⟩

end Deletions

section Sources

omit [DumpEntry E]

def EntriesFrom (Q : Nat → E → Prop) (s t : Daemon E X C) : Prop :=
  ∀ (k : Nat) (e : E), t.entries[k]? = some (some e) → s.entries[k]? = some (some e) ∨ Q k e

variable {Q : Nat → E → Prop} {s t : Daemon E X C}

theorem entriesFrom_of_entries (h : t.entries = s.entries) : EntriesFrom Q s t := by
  intro k e he
  rw [h] at he
  exact .inl he

instance reflEntriesFrom : Std.Refl (EntriesFrom (X := X) (C := C) Q) := ⟨fun _ => entriesFrom_of_entries rfl⟩

instance transEntriesFrom : IsTrans (Daemon E X C) (EntriesFrom Q) where
  trans s t u h k n e he := by
    rcases k n e he with he | hQ
    · exact h n e he
    · exact .inr hQ

theorem entriesFrom_insertIfNew {n : Nat} {e : E} (h : Q n e) :
    EntriesFrom Q s { s with entries := s.entries.insertIfNew n (some e) } := by
  intro k e' he
  rcases insertIfNew_cases he with hold | ⟨rfl, -, hnew⟩
  · exact .inl hold
  · cases hnew
    exact .inr h

theorem entriesFrom_insert {n : Nat} {e : E} (h : Q n e) :
    EntriesFrom Q s { s with entries := s.entries.insert n (some e) } := by
  intro k e' he
  rw [insert_get] at he
  split at he
  · rename_i hk
    cases he
    exact .inr (hk ▸ h)
  · exact .inl he

theorem entriesFrom_trimmed (h : Trimmed s t) : EntriesFrom Q s t := fun k e he => .inl (h.entries k (some e) he)

theorem keeps_trimmed {α : Type} {m : Op E X C α} (h : Keeps Trimmed m) : Keeps (EntriesFrom Q) m :=
  fun s => entriesFrom_trimmed (h s)

def Fills (Q : Nat → E → Prop) (s t : Daemon E X C) : Prop :=
  ∀ k : Nat, (∀ v, s.entries[k]? = some v → t.entries[k]? = some v) ∧
    (s.entries[k]? = none → ∀ v, t.entries[k]? = some v → ∃ e, v = some e ∧ Q k e)

theorem fills_of_entries (h : t.entries = s.entries) : Fills Q s t := by
  intro k
  rw [h]
  refine ⟨fun _ hv => hv, fun hnone v hv => ?_⟩
  rw [hnone] at hv
  cases hv

instance reflFills : Std.Refl (Fills (X := X) (C := C) Q) := ⟨fun _ => fills_of_entries rfl⟩

instance transFills : IsTrans (Daemon E X C) (Fills Q) where
  trans s t u h n k := by
    refine ⟨fun v hv => (n k).1 v ((h k).1 v hv), fun hnone v hv => ?_⟩
    cases ht : t.entries[k]? with
    | none => exact (n k).2 ht v hv
    | some w =>
        rw [(n k).1 w ht] at hv
        exact (h k).2 hnone v (ht.trans hv)

theorem fills_insertIfNew {n : Nat} {e : E} (h : Q n e) :
    Fills Q s { s with entries := s.entries.insertIfNew n (some e) } := by
  intro k
  refine ⟨fun v hv => ?_, fun hnone v hv => ?_⟩
  · change (s.entries.insertIfNew n (some e))[k]? = some v
    rw [insertIfNew_get, hv]
    split <;> rfl
  · rcases insertIfNew_cases hv with hold | ⟨rfl, -, hnew⟩
    · rw [hnone] at hold
      cases hold
    · exact ⟨e, hnew, h⟩

theorem keeps_fork {T : Daemon E X C → Daemon E X C → Prop} [Std.Refl T] [IsTrans (Daemon E X C) T]
    (hentries : ∀ s t, t.entries = s.entries → T s t) {f : Fork} {kind : C} {unregistered : X → X}
    {mk : Nat → Except Exn E} (hinsert : ∀ s id e, mk id = .ok e → f.pid.isSome = true →
      T s { s with entries := s.entries.insertIfNew id (some e) })
    {α : Type} {k : Nat → Op E X C α} (hk : ∀ id, Keeps T (k id)) :
    Keeps T (forkCollector f kind unregistered >>= fun id =>
      fromExcept (mk id) >>= fun e => insertEntry id e >>= fun _ => k id) := by
  intro s
  rcases forkCollector_cases f kind unregistered s with ⟨-, h⟩ | ⟨pid, -, -, h⟩ | ⟨pid, hpid, -, h⟩
  · rw [bind_of_error h]
    exact refl s
  · rw [bind_of_error h]
    exact hentries s _ rfl
  · rw [bind_of_ok h]
    have hregistered : T s (registered pid kind s) := hentries s _ rfl
    cases he : mk (nextEntryId s) with
    | error exn => exact hregistered
    | ok e =>
        have hpid : f.pid.isSome = true := by rw [hpid]; rfl
        have hinserted := hinsert (registered pid kind s) (nextEntryId s) e he hpid
        exact trans_of T hregistered (trans_of T hinserted (hk _ _))

end Sources

section EveryEntry

def EveryEntry (P : E → Prop) (s : Daemon E X C) : Prop := ∀ (k : Nat) (e : E), s.entries[k]? = some (some e) → P e

variable {P : E → Prop} {s t : Daemon E X C}

omit [DumpEntry E] in
theorem everyEntry_of_entries (h : t.entries = s.entries) (hs : EveryEntry P s) : EveryEntry P t := by
  intro k e he
  rw [h] at he
  exact hs k e he

omit [DumpEntry E] in
theorem everyEntry_bare (own : X) (disk : FileTree Content) : EveryEntry P (bare own disk : Daemon E X C) := by
  intro k e he
  have hnone : (bare own disk : Daemon E X C).entries[k]? = none := ExtTreeMap.getElem?_empty
  rw [hnone] at he
  cases he

omit [DumpEntry E] in
theorem EntriesFrom.everyEntry (h : EntriesFrom (fun _ e => P e) s t) (hs : EveryEntry P s) : EveryEntry P t := by
  intro k e he
  rcases h k e he with hold | hP
  · exact hs k e hold
  · exact hP

omit [DumpEntry E] in
theorem EntriesFrom.mono {Q Q' : Nat → E → Prop} (hQ : ∀ k e, Q k e → Q' k e) (h : EntriesFrom Q s t) :
    EntriesFrom Q' s t := fun k e he => (h k e he).imp_right (hQ k e)

theorem everyEntry_filed {named : Option Nat} {file : Path} (h : Filed named file s t)
    (hP : ∀ e, (DumpEntry.base e).status = .Completed → DumpEntry.file e = some file → P e) (hs : EveryEntry P s) :
    EveryEntry P t := by
  rcases h.entries with ⟨heq, -⟩ | ⟨n, e, -, heq, hst, hfile, -⟩
  · exact everyEntry_of_entries heq hs
  · intro k e' he
    rw [heq, insert_get] at he
    split at he
    · cases he
      exact hP e hst hfile
    · exact hs k e' he

theorem keeps_requested {ops : Ops E X C R I} {named : Path → Option Nat} (hops : Sound ops named) (r : R) :
    Keeps (EntriesFrom fun k e => (DumpEntry.base e).id = k ∧ (DumpEntry.base e).status = .InProgress ∧
      DumpEntry.file e = none) (ops.createDump r) := by
  intro s k e he
  rcases outcome_slot (hops.createDump r s) he with hold | ⟨e', pid, kind, t, hnew, -, -, -, -, hid, hst, hfile⟩
  · exact .inl hold
  · cases hnew
    exact .inr ⟨hid, hst, hfile⟩

/-- The step lemma for what all entries have. -/
theorem step_everyEntry {ops : Ops E X C R I} (hset : ∀ e, P e → P (DumpEntry.setFailedStatus e))
    (hrequest : ∀ r, Keeps (EntriesFrom fun _ e => P e) (ops.createDump r))
    (hfile : ∀ io path, Preserves (EveryEntry P) (ops.createEntry io path)) (s : Daemon E X C) (ev : Event R I)
    (t : Daemon E X C) (hs : EveryEntry P s) (h : step ops s ev = some t) : EveryEntry P t := by
  cases step_cases h with
  | request r _ hfinal =>
      have hfrom := hrequest r s
      rw [hfinal] at hfrom
      exact hfrom.everyEntry hs
  | trimmed _ _ htrim => exact EntriesFrom.everyEntry (entriesFrom_trimmed htrim) hs
  | changed _ _ pid p state _ _ ht =>
      subst ht
      exact everyEntry_of_entries rfl hs
  | read p =>
      obtain ⟨-, w, -, rfl⟩ := step_watchReady h
      apply everyEntry_of_entries _ hs
      rw [setWatch]
      split <;> rfl
  | handled io =>
      obtain ⟨path, mask, rest, -, ⟨-, -, u, hc⟩ | ⟨-, -, rfl⟩ | ⟨-, -, -, rfl⟩ | ⟨-, -, rfl⟩⟩ := step_handle h
      · have hunwatched : EveryEntry P (unwatched s rest path.dropLast) := everyEntry_of_entries rfl hs
        exact hfile io path _ u t hunwatched hc
      all_goals exact everyEntry_of_entries rfl hs
  | notified pid =>
      obtain ⟨-, c, p, status, -, -, -, rfl⟩ := step_childNotification h
      intro k e he
      rw [reap_entries, ended_get] at he
      split at he
      · obtain ⟨e', he', rfl⟩ := Option.map_eq_some_iff.mp (Option.some.inj he)
        exact hset e' (hs k e' (getD_eq_some he'))
      · exact hs k e he

end EveryEntry

end DumpCollector.Slots
