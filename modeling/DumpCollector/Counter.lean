import DumpCollector.Restore

namespace DumpCollector.Counter

open Std Lib.Directory Lib.Effects Lib.Maps Lib.Runs Entries FileNames Inotify Requests State Dispatch Frames Steps
open Slots Children Keys Restore

variable {E X C R I : Type}

def CounterAhead (s : Daemon E X C) : Prop := ∀ k ∈ s.entries, k ≤ s.lastEntryId

def ReturnsNew [DumpEntry E] (ops : Ops E X C R I) (s : Daemon E X C) : Event R I → Prop
  | .createDump r => ∀ n t, ops.createDump r s = .ok (some n) t → n ∉ s.entries ∧
      ∃ e, t.entries[n]? = some (some e) ∧ (DumpEntry.base e).status = .InProgress
  | _ => True

def NotExhausted (s : Daemon E X C) : Event R I → Prop
  | .createDump _ => s.lastEntryId < 2 ^ 32 - 1
  | _ => True

instance decidableNotExhausted (s : Daemon E X C) (ev : Event R I) : Decidable (NotExhausted s ev) :=
  match ev with
  | .createDump _ => inferInstanceAs (Decidable (s.lastEntryId < 2 ^ 32 - 1))
  | .delete _ | .deleteAll | .files _ | .exits _ _ | .stops _ _ | .continues _ | .watchReady _ | .handle _
  | .childNotification _ => isTrue trivial

/-- No file makes a key of an id that the counter has not reached. -/
def IdsHandedOut (named : Path → Option Nat) (made : I → Bool) (s : Daemon E X C) : Event R I → Prop
  | .handle io => ∀ n ∈ newId named made s io, n ≤ s.lastEntryId
  | _ => True

instance decidableIdsHandedOut (named : Path → Option Nat) (made : I → Bool) (s : Daemon E X C) (ev : Event R I) :
    Decidable (IdsHandedOut named made s ev) :=
  match ev with
  | .handle io => inferInstanceAs (Decidable (∀ n ∈ newId named made s io, n ≤ s.lastEntryId))
  | .createDump _ | .delete _ | .deleteAll | .files _ | .exits _ _ | .stops _ _ | .continues _ | .watchReady _
  | .childNotification _ => isTrue trivial

/-- The invariant: neither a key nor the id of a registered collector is above the counter. -/
structure Bounded (s : Daemon E X C) : Prop where
  keys : CounterAhead s
  collectors : ∀ (pid : Nat) (c : Collector C), s.childPtrMap[pid]? = some c → c.entryId ≤ s.lastEntryId

section Steps

variable [DumpEntry E] {ops : Ops E X C R I} {named : Path → Option Nat} {made : I → Bool} {s t : Daemon E X C}

omit [DumpEntry E] in
theorem Bounded.grows (hs : Bounded s) (hid : s.lastEntryId ≤ t.lastEntryId)
    (hkeys : ∀ k ∈ t.entries, k ∈ s.entries ∨ k ≤ t.lastEntryId)
    (hcollectors : ∀ (pid : Nat) (c : Collector C), t.childPtrMap[pid]? = some c →
      s.childPtrMap[pid]? = some c ∨ c.entryId ≤ t.lastEntryId) : Bounded t where
  keys k hk := (hkeys k hk).elim (fun hold => (hs.keys k hold).trans hid) id
  collectors pid c hc := (hcollectors pid c hc).elim (fun hold => (hs.collectors pid c hold).trans hid) id

omit [DumpEntry E] in
theorem nextEntryId_eq (hid : s.lastEntryId < 2 ^ 32 - 1) (h : Trimmed s t) : nextEntryId t = s.lastEntryId + 1 := by
  rw [nextEntryId, h.lastEntryId, uint32]
  omega

omit [DumpEntry E] in
theorem Bounded.registered (hs : Bounded s) (hid : s.lastEntryId < 2 ^ 32 - 1) (h : Trimmed s t) (pid : Nat)
    (kind : C) :
    Bounded (registered pid kind t) := by
  have hnext := nextEntryId_eq hid h
  refine hs.grows ?_ (fun k hk => .inl (keys_trimmed h k hk)) fun q c hc => ?_
  · exact Nat.le_of_lt (Nat.lt_of_lt_of_eq (Nat.lt_succ_self _) hnext.symm)
  · change (t.childPtrMap.insertIfNew pid ⟨kind, nextEntryId t⟩)[q]? = some c at hc
    rw [h.childPtrMap] at hc
    rcases insertIfNew_cases hc with hc | ⟨-, -, rfl⟩
    · exact .inl hc
    · exact .inr (Nat.le_refl _)

theorem bounded_outcome {f : Fork} {r : EStateM.Result Exn (Daemon E X C) (Option Nat)} (hs : Bounded s)
    (hid : s.lastEntryId < 2 ^ 32 - 1) (h : Outcome f s r) : Bounded (final r) := by
  have htrimmed {u : Daemon E X C} (hu : Trimmed s u) : Bounded u :=
    hs.grows hu.lastEntryId.ge (fun k hk => .inl (keys_trimmed hu k hk)) fun pid c hc => .inl (hu.childPtrMap ▸ hc)
  cases h with
  | refused e t ht => exact htrimmed ht
  | unregistered e pid kind u own hu => exact ⟨(htrimmed hu).keys, (htrimmed hu).collectors⟩
  | unfinished _ pid kind u hu _ _ _ hfin =>
      rw [hfin]
      exact hs.registered hid hu pid kind
  | inserted pid kind u e own hu =>
      have hregistered := hs.registered hid hu pid kind
      refine ⟨fun k hk => ?_, hregistered.collectors⟩
      rcases ExtTreeMap.mem_insertIfNew.mp hk with heq | hold
      · rw [← LawfulEqCmp.eq_of_compare heq]
        exact Nat.le_refl _
      · exact hregistered.keys k hold

theorem returnsNew_outcome {f : Fork} {n : Nat} (hs : CounterAhead s)
    (hid : s.lastEntryId < 2 ^ 32 - 1) (h : Outcome f s (.ok (some n) t)) : n ∉ s.entries ∧
      ∃ e, t.entries[n]? = some (some e) ∧ (DumpEntry.base e).status = .InProgress := by
  cases h with
  | unfinished _ pid kind u hu _ _ hno => exact absurd rfl (hno n t)
  | inserted pid kind u e own hu _ _ _ hstatus =>
      have hno : nextEntryId u ∉ s.entries := by
        intro hmem
        have hle := hs _ hmem
        rw [nextEntryId_eq hid hu] at hle
        omega
      refine ⟨hno, e, ?_, hstatus⟩
      have hnone : u.entries[nextEntryId u]? = none := (not_mem_iff _ _).mp fun hmem => hno (keys_trimmed hu _ hmem)
      rw [insertIfNew_of_absent hnone, insert_get, if_pos rfl]

theorem step_bounded (hops : Sound ops named) (hmakes : Makes ops named made) {ev : Event R I} (hs : Bounded s)
    (hid : NotExhausted s ev) (h : step ops s ev = some t) (hC : IdsHandedOut named made s ev) : Bounded t := by
  cases step_keyMoves hops hmakes h with
  | fewer _ hev _ _ hkeys =>
      obtain ⟨hsame, -, hcollectors⟩ := step_other hops hev h
      exact hs.grows hsame.ge (fun k hk => .inl (hkeys k hk)) fun pid c hc => .inl (hcollectors pid c hc)
  | requested r _ hfinal => exact hfinal ▸ bounded_outcome hs hid (hops.createDump r s)
  | filed io n e hnew hno ht =>
      obtain ⟨hsame, -, hcollectors⟩ := step_other hops (by simp) h
      refine hs.grows hsame.ge (fun k hk => ?_) fun pid c hc => .inl (hcollectors pid c hc)
      rw [ht] at hk
      rcases ExtTreeMap.mem_insert.mp hk with heq | hold
      · rw [← LawfulEqCmp.eq_of_compare heq, hsame]
        exact .inr (hC n hnew)
      · exact .inl hold
  | failed pid n hfail hno ht =>
      obtain ⟨hsame, -, hcollectors⟩ := step_other hops (by simp) h
      refine hs.grows hsame.ge (fun k hk => ?_) fun pid c hc => .inl (hcollectors pid c hc)
      rw [ht] at hk
      rcases ExtTreeMap.mem_insert.mp hk with heq | hold
      · rw [← LawfulEqCmp.eq_of_compare heq, hsame]
        obtain ⟨-, c, p, status, hchild, hp, hstatus, -⟩ := step_childNotification h
        rw [failure_eq hchild hp hstatus] at hfail
        split at hfail
        · cases hfail
        · cases hfail
          exact .inr (hs.collectors pid c hchild)
      · exact .inl hold

theorem idsHandedOut_of_counterAhead (hops : Sound ops named) (hmakes : Makes ops named made) {ev : Event R I}
    (h : step ops s ev = some t) (ht : CounterAhead t) : IdsHandedOut named made s ev := by
  cases step_keyMoves hops hmakes h with
  | fewer _ hev hnew =>
      cases ev with
      | handle io =>
          intro n hn
          rw [hnew io rfl] at hn
          cases hn
      | _ => trivial
  | requested => trivial
  | failed => trivial
  | filed io n e hnew hno hte hid =>
      intro n' hn'
      rw [hnew] at hn'
      cases hn'
      rw [← hid]
      exact ht n (by rw [hte]; exact ExtTreeMap.mem_insert_self)

/-- The run lemma: from a start at which the counter is ahead it stays so, and each request
returns a new entry, exactly as long as files carry ids that have been handed out. -/
theorem always_ahead_iff (hops : Sound ops named) (hmakes : Makes ops named made) {u : Daemon E X C}
    {es : List (Event R I)} (hs : Idle s) (hid : EachStep (step ops) NotExhausted s es)
    (hrun : run (step ops) s es = some u) :
    (Always (step ops) CounterAhead s es ∧ EachStep (step ops) (ReturnsNew ops) s es) ↔
      (CounterAhead s ∧ EachStep (step ops) (IdsHandedOut named made) s es) := by
  have hreturns : Always (step ops) CounterAhead s es → EachStep (step ops) (ReturnsNew ops) s es := by
    refine fun h => eachStep_of_always (fun s ev t hahead hid _ => ?_) h hid hrun
    cases ev with
    | createDump r => exact fun n t h => returnsNew_outcome hahead hid (h ▸ hops.createDump r s)
    | _ => trivial
  have hfirst : Always (step ops) CounterAhead s es → CounterAhead s := by
    cases es with
    | nil => exact id
    | cons ev es => exact fun h => h.1
  rw [and_iff_left_of_imp hreturns, ← and_iff_right_of_imp hfirst]
  refine and_congr_right fun hahead => ?_
  have hbounded : Bounded s := ⟨hahead, fun pid c hc => by rw [hs.childPtrMap] at hc; cases hc⟩
  exact always_iff_eachStep_of_allowed (J := fun _ => True) (fun _ _ _ _ _ => trivial) (fun _ _ h => h.keys)
    (fun _ _ _ _ hI hid h hC => step_bounded hops hmakes hI hid h hC)
    (fun _ _ _ _ _ _ h hP => idsHandedOut_of_counterAhead hops hmakes h hP) hid hrun trivial hbounded

end Steps

/-- The files that restore reads carry ids up to the largest number of a directory. -/
def ReadsHandedOut (plat : Platform) (made : I → Bool) (disk : FileTree Content) (names : List String)
    (reads : String → List Path) (events : Path → I) : Prop :=
  ∀ d ∈ names, Numbered disk d → ∀ file ∈ reads d, made (events file) = true → ∀ n ∈ namedId plat (filename file),
    n = 0 ∨ ∃ m ∈ numbers plat disk names, n ≤ m

theorem largest_above {ns : List Nat} {l : Nat} (h : Largest ns l) (n : Nat) :
    n ≤ l ↔ n = 0 ∨ ∃ m ∈ ns, n ≤ m := by
  constructor
  · intro hle
    rcases h.reached with rfl | hl
    · exact .inl (Nat.le_zero.mp hle)
    · exact .inr ⟨l, hl, hle⟩
  · rintro (rfl | ⟨m, hm, hle⟩)
    · exact Nat.zero_le l
    · exact hle.trans (h.above m hm)

section Restored

variable [DumpEntry E] {ops : Ops E X C R I} {made : I → Bool} {plat : Platform}
  {body : Nat → String → Op E X C Unit} {disk : FileTree Content} {names : List String} {own : X}
  {events : Path → I} {reads : String → List Path} {s : Daemon E X C} {u : Unit}

theorem counterAhead_restored_iff (hops : Sound ops fun file => namedId plat (filename file))
    (hmakes : Makes ops (fun file => namedId plat (filename file)) made)
    (hdisk : ∀ io file, Keeps SameDisk (ops.createEntry io file))
    (hbody : ∀ id d s, s.disk = disk →
      body id d s = (forM (reads d) fun file => ops.createEntry (events file) file) s)
    (hroot : disk.isDirectory [] = true) (h : visit plat body names (bare own disk) = .ok u s) :
    CounterAhead s ↔ ReadsHandedOut plat made disk names reads events := by
  have hkeys := visit_keys hops hmakes hdisk hbody hroot h
  have hcounter := largest_above (visit_counter hops hdisk hbody hroot h)
  constructor
  · intro hahead d hd hnum file hfile hmade n hn
    exact (hcounter n).mp (hahead n ((hkeys n).mpr ⟨d, hd, hnum, file, hfile, hn, hmade⟩))
  · intro hreads k hk
    obtain ⟨d, hd, hnum, file, hfile, hnamed, hmade⟩ := (hkeys k).mp hk
    exact (hcounter k).mpr (hreads d hd hnum file hfile hmade k hnamed)

end Restored

section Managers

theorem bmc_counterAhead {cfg : Bmc.Manager.Config} {s : Bmc.Manager.BmcDaemon} (h : Bmc.Manager.Started cfg s) :
    CounterAhead s := by
  refine Bmc.Steps.invariant_started cfg ?_ ?_ ?_ (fun _ k hk => absurd hk ExtTreeMap.not_mem_empty) h
  · intro s t hf hs k hk
    rw [hf.entries] at hk
    rw [hf.lastEntryId]
    exact hs k hk
  · intro s dir name id e _ hle he _ hs k hk
    rcases ExtTreeMap.mem_insertIfNew.mp hk with heq | hold
    · rw [← LawfulEqCmp.eq_of_compare heq, he.1]
      exact hle
    · exact hs k hold
  · exact fun s n hs k hk => (hs k hk).trans (Nat.le_max_left _ _)

def firstFile (names : Path → List String) (d : String) : List Path :=
  (names [d]).head?.toList.map fun name => [d, name]

def regularFiles (disk : FileTree Content) (names : Path → List String) (d : String) : List Path :=
  ((names [d]).map fun name => [d, name]).filter fun file => (disk.content file).isSome

theorem sameDisk_system (cfg : System.Manager.Config) (io : System.Manager.FileEvent) (file : Path) :
    Keeps SameDisk (System.Manager.createEntry cfg io file) := by
  refine keeps_bind (keeps_fromExcept _) fun details => ?_
  rcases details with _ | ⟨id, timestamp⟩
  · exact keeps_pure _
  · refine keeps_bind keeps_get fun s => keeps_bind (sameDisk_fileSize file) fun size => ?_
    split
    · exact keeps_bind (keeps_modify fun _ => rfl) fun _ => keeps_modify fun _ => rfl
    · exact sameDisk_constructed _ _ _

theorem sameDisk_fdr (cfg : Fdr.Manager.Config) (io : Fdr.Manager.FileEvent) (file : Path) :
    Keeps SameDisk (Fdr.Manager.createEntry cfg io file) := by
  refine keeps_bind (keeps_fromExcept _) fun details => ?_
  rcases details with _ | ⟨id, timestamp⟩
  · exact keeps_pure _
  · refine keeps_bind keeps_get fun s => keeps_bind (sameDisk_fileSize file) fun size => ?_
    split
    · exact keeps_modify fun _ => rfl
    · exact keeps_throw _
    · exact sameDisk_constructed _ _ _

theorem sameDisk_faultLog (cfg : FaultLog.Manager.Config) (io : FaultLog.Manager.FileEvent) (file : Path) :
    Keeps SameDisk (FaultLog.Manager.createEntry cfg io file) := by
  have hleft (e : Option Exn) : Keeps SameDisk (FaultLog.Manager.throwLeft e) := by
    cases e with
    | some exn => exact keeps_throw _
    | none => exact keeps_pure _
  refine keeps_bind (keeps_fromExcept _) fun details => ?_
  rcases details with _ | ⟨id, timestamp⟩
  · exact keeps_pure _
  · refine keeps_bind keeps_get fun s => ?_
    split
    · exact keeps_bind (sameDisk_fileSize file) fun size => keeps_bind (keeps_modify fun _ => rfl) fun _ => hleft _
    · exact keeps_throw _
    · exact keeps_bind (hleft _) fun _ => keeps_bind (sameDisk_fileSize file) fun size => sameDisk_constructed _ _ _

theorem first_reads (names : Path → List String) (k : Path → Op E X C Unit) (d : String) :
    (match names [d] with
      | name :: _ => k [d, name]
      | [] => pure ()) = forM (firstFile names d) k := by
  rw [firstFile]
  cases names [d] with
  | nil => rfl
  | cons name rest => exact (forM_singleton _ _).symm

theorem regular_reads {names : List String} {k : Path → Op E X C Unit} {disk : FileTree Content} (d : String)
    (hdisk : ∀ file, Keeps SameDisk (k file)) (s : Daemon E X C) (hs : s.disk = disk) :
    (forM names fun name => get >>= fun (s : Daemon E X C) =>
      if (s.disk.content [d, name]).isSome then k [d, name] else pure ()) s =
      (forM ((names.map fun name => [d, name]).filter fun file => (disk.content file).isSome) k) s := by
  induction names generalizing s with
  | nil => rfl
  | cons name names ih =>
      rw [List.forM_cons, List.map_cons, List.filter_cons, bind_assoc, get_bind, hs]
      split
      · rename_i hc
        rw [List.forM_cons]
        cases h : k [d, name] s with
        | error e t => rw [bind_of_error h, bind_of_error h]
        | ok u t =>
            rw [bind_of_ok h, bind_of_ok h]
            exact ih t (((hdisk _).ok h).trans hs)
      · rename_i hc
        exact ih s hs

/-- In a run from a restore the counter stays ahead of all keys, and each request returns a
new entry, exactly if the files that restore reads, as far as they can carry other ids, and
those that are closed later carry ids that the counter has reached. -/
def AheadWhile [DumpEntry E] (ops : Ops E X C R I) (named : Path → Option Nat) (made : I → Bool) (start : Prop)
    (s : Daemon E X C) : Prop :=
  ∀ u es, EachStep (step ops) NotExhausted s es → run (step ops) s es = some u →
    ((Always (step ops) CounterAhead s es ∧ EachStep (step ops) (ReturnsNew ops) s es) ↔
      (start ∧ EachStep (step ops) (IdsHandedOut named made) s es))

theorem counterAhead_iff_idsHandedOut (bmc : Bmc.Manager.Config) (system : System.Manager.Config)
    (fdr : Fdr.Manager.Config) (faultLog : FaultLog.Manager.Config) :
    (∀ s, Bmc.Manager.Started bmc s → AheadWhile (Bmc.Manager.bmcOps bmc)
      (fun file => namedId bmc.plat (filename file)) (fun io => io.construction = .done) True s) ∧
    (∀ disk listing s u, disk.isDirectory [] = true → (∀ p, (listing.names p).Perm (disk.children p)) →
      System.Manager.restore system listing (bare ⟨∅, ⟨false, false⟩⟩ disk) = .ok u s →
      AheadWhile (System.Manager.systemOps system) (fun file => namedId system.plat (filename file))
        (fun io => io.construction = .done) (ReadsHandedOut system.plat (fun io => io.construction = .done) disk
          (listing.names []) (firstFile listing.names) listing.events) s) ∧
    (∀ disk listing s u, disk.isDirectory [] = true → (∀ p, (listing.names p).Perm (disk.children p)) →
      Fdr.Manager.restore fdr listing (bare () disk) = .ok u s →
      AheadWhile (Fdr.Manager.fdrOps fdr) (fun file => namedId fdr.plat (filename file))
        (fun io => io.construction = .done) (ReadsHandedOut fdr.plat (fun io => io.construction = .done) disk
          (listing.names []) (firstFile listing.names) listing.events) s) ∧
    (∀ disk listing s u, disk.isDirectory [] = true → (∀ p, (listing.names p).Perm (disk.children p)) →
      FaultLog.Manager.restore faultLog listing (bare ⟨0⟩ disk) = .ok u s →
      AheadWhile (FaultLog.Manager.faultLogOps faultLog) (fun file => namedId faultLog.plat (filename file))
        (fun io => io.construction = .done) (ReadsHandedOut faultLog.plat (fun io => io.construction = .done) disk
          (listing.names []) (regularFiles disk listing.names) listing.events) s) := by
  refine ⟨fun s hs u es hid hrun => ?_, fun disk listing s v hroot hperm h u es hid hrun => ?_,
    fun disk listing s v hroot hperm h u es hid hrun => ?_, fun disk listing s v hroot hperm h u es hid hrun => ?_⟩
  · have hidle := (Bmc.Steps.restoring_of_started bmc hs).idle
    rw [always_ahead_iff (Bmc.Steps.sound bmc) (makes_bmc bmc) hidle hid hrun]
    exact and_congr_left fun _ => iff_of_true (bmc_counterAhead hs) trivial
  · have hidle := System.Steps.idle_of_started system ⟨disk, listing, v, hroot, hperm, h⟩
    rw [always_ahead_iff (System.Steps.sound system) (makes_system system) hidle hid hrun]
    exact and_congr_left fun _ => counterAhead_restored_iff (System.Steps.sound system) (makes_system system)
      (sameDisk_system system)
      (fun _ d _ _ => congrFun (first_reads listing.names _ d) _) hroot h
  · have hidle := Fdr.Steps.idle_of_started fdr ⟨disk, listing, v, hroot, hperm, h⟩
    rw [always_ahead_iff (Fdr.Steps.sound fdr) (makes_fdr fdr) hidle hid hrun]
    exact and_congr_left fun _ => counterAhead_restored_iff (Fdr.Steps.sound fdr) (makes_fdr fdr)
      (sameDisk_fdr fdr)
      (fun _ d _ _ => congrFun (first_reads listing.names _ d) _) hroot h
  · have hidle := FaultLog.Steps.idle_of_started faultLog ⟨disk, listing, v, hroot, hperm, h⟩
    rw [always_ahead_iff (FaultLog.Steps.sound faultLog) (makes_faultLog faultLog) hidle hid hrun]
    exact and_congr_left fun _ => counterAhead_restored_iff (FaultLog.Steps.sound faultLog) (makes_faultLog faultLog)
      (sameDisk_faultLog faultLog)
      (fun _ d s hs => regular_reads d (fun file => sameDisk_faultLog faultLog _ file) s hs) hroot h

end Managers

section Files

open Bmc.Manager

private def closedFile : List (Event Request FileEvent) :=
  [.files (.openFile [] "obmcdump_1_1.tar"), .watchReady [], .handle plainEvent,
    .files (.closeFile [] "obmcdump_1_1.tar"), .watchReady [], .handle plainEvent]

theorem closed_file_takes_next_id : ∃ s t u, Started defaultConfig s ∧
    run (step (bmcOps defaultConfig)) s closedFile = some t ∧ ¬ CounterAhead t ∧
    createDump defaultConfig (plainRequest 7) t = .ok 1 u ∧
    u.entries[1]?.join.map (fun e => e.base.status) = some .Completed := by
  have h : ((run (step (bmcOps defaultConfig)) (bare ⟨false⟩ .root) closedFile).map fun t =>
      (t.lastEntryId, t.entries.contains 1, (createDump defaultConfig (plainRequest 7)).run' t,
        (final (createDump defaultConfig (plainRequest 7) t)).entries[1]?.join.map fun e => e.base.status)) =
      some (0, true, some 1, some .Completed) := by decide +kernel
  obtain ⟨t, hrun, hvalues⟩ := Option.map_eq_some_iff.mp h
  obtain ⟨hid, hrest⟩ := Prod.mk.inj hvalues
  obtain ⟨hmem, hrest⟩ := Prod.mk.inj hrest
  obtain ⟨hdump, hstatus⟩ := Prod.mk.inj hrest
  refine ⟨_, t, _, started_root _, hrun, fun hahead => ?_, eq_ok_of_run' hdump, hstatus⟩
  have hle := hahead 1 (ExtTreeMap.mem_iff_contains.mpr hmem)
  omega

theorem own_file_keeps_counter_ahead :
    Always (step (bmcOps defaultConfig)) CounterAhead (bare ⟨false⟩ .root) (.createDump (plainRequest 7) :: closedFile) ∧
    EachStep (step (bmcOps defaultConfig)) (ReturnsNew (bmcOps defaultConfig)) (bare ⟨false⟩ .root)
      (.createDump (plainRequest 7) :: closedFile) := by
  have hrun : (run (step (bmcOps defaultConfig)) (bare ⟨false⟩ .root)
      (.createDump (plainRequest 7) :: closedFile)).isSome = true := by decide +kernel
  obtain ⟨u, hu⟩ := Option.isSome_iff_exists.mp hrun
  exact ((counterAhead_iff_idsHandedOut defaultConfig System.Manager.defaultConfig Fdr.Manager.defaultConfig
    FaultLog.Manager.defaultConfig).1 _ (started_root _) u _ (by decide +kernel) hu).mpr ⟨trivial, by decide +kernel⟩

end Files

end DumpCollector.Counter
