import DumpCollector.Counter

namespace DumpCollector.System.Restart

open Std Lib.Directory Lib.Effects Lib.Maps Lib.Runs Entries FileNames Requests State Dispatch Frames
open DumpCollector.Steps Slots DumpCollector.Restore Counter System.Manager System.Steps

variable (cfg : Config)

section Times

variable (n : Nat)

def CreatesAt (T : Nat) (s : SystemDaemon) (ev : Event Request FileEvent) : Prop :=
  ∃ r t, ev = .createDump r ∧ r.timeStamp = T ∧ createDump cfg r s = .ok n t ∧
    n ∉ (final (limitDumpEntries cfg.SYSTEM_DUMP_MAX_LIMIT s)).entries

def Remains (s : SystemDaemon) (ev : Event Request FileEvent) (t : SystemDaemon) : Prop :=
  n ∈ t.entries ∧ ∀ T, ¬ CreatesAt cfg n T s ev

/-- The invariant of an entry from the request on: it started at the time of the request,
and was completed at the time in the name of its file. -/
structure Made (T : Nat) (s : SystemDaemon) : Prop where
  present : n ∈ s.entries
  startTime : ∀ e : SystemEntry, s.entries[n]? = some (some e) → e.base.startTime = T
  completed : ∀ e : SystemEntry, s.entries[n]? = some (some e) → e.base.status = .Completed →
    ∃ file id timestamp, e.base.file = some file ∧ parseName cfg.plat (filename file) = .ok (some (id, timestamp)) ∧
      uint32 id = n ∧ e.base.completedTime = timestamp

variable {cfg n} {r : Request} {s t : SystemDaemon} {T : Nat}

theorem construct_started {id : Nat} {e : SystemEntry} (h : construct cfg r id = .ok e) :
    e.base.startTime = r.timeStamp := by
  obtain ⟨originatorId, originatorType, diagnosticType, rfl⟩ := construct_eq cfg h
  rfl

theorem captureDump_entries {id : Nat} (h : captureDump cfg r s = .ok id t) : t.entries = s.entries := by
  rw [captureDump, get_bind] at h
  obtain ⟨type, s₁, hcheck, hrest⟩ := bind_eq_ok.mp h
  obtain ⟨-, hs₁⟩ := fromExcept_eq_ok.mp hcheck
  obtain ⟨_, s₂, hmode, hrest⟩ := bind_eq_ok.mp hrest
  obtain ⟨_, s₃, hset, hfork⟩ := bind_eq_ok.mp hrest
  have hs₂ : s₂.entries = s₁.entries := by
    rw [whenever] at hmode
    split at hmode <;> cases hmode <;> rfl
  have hs₃ : s₃.entries = s₂.entries := by
    cases hset
    rfl
  rcases forkCollector_cases r.fork type (eraseType type) s₃ with
    ⟨-, hf⟩ | ⟨pid, -, -, hf⟩ | ⟨pid, -, -, hf⟩
  · rw [hf] at hfork
    cases hfork
  · rw [hf] at hfork
    cases hfork
  · rw [hf] at hfork
    cases hfork
    exact hs₁ ▸ hs₃.trans hs₂

theorem createDump_ok (h : createDump cfg r s = .ok n t) : ∃ e : SystemEntry,
    t.entries = (final (limitDumpEntries cfg.SYSTEM_DUMP_MAX_LIMIT s)).entries.insertIfNew n (some e) ∧
      e.base.startTime = r.timeStamp ∧ e.base.status = .InProgress := by
  rw [createDump] at h
  obtain ⟨_, s₁, hlimit, hrest⟩ := bind_eq_ok.mp h
  rw [get_bind] at hrest
  obtain ⟨_, s₂, hcheck, hrest⟩ := bind_eq_ok.mp hrest
  obtain ⟨-, hs₂⟩ := fromExcept_eq_ok.mp hcheck
  obtain ⟨id, s₃, hcapture, hrest⟩ := bind_eq_ok.mp hrest
  obtain ⟨e, s₄, hconstruct, hrest⟩ := bind_eq_ok.mp hrest
  obtain ⟨hconstruct, hs₄⟩ := fromExcept_eq_ok.mp hconstruct
  obtain ⟨_, s₅, hinsert, hreturn⟩ := bind_eq_ok.mp hrest
  cases hinsert
  cases hreturn
  refine ⟨e, ?_, construct_started hconstruct, (construct_new cfg hconstruct).2.1⟩
  rw [hlimit, final_ok, ← hs₂, ← captureDump_entries hcapture, ← hs₄]

theorem made_of_creates {ev : Event Request FileEvent} (hcreates : CreatesAt cfg n T s ev)
    (h : step (systemOps cfg) s ev = some t) : Made cfg n T t := by
  obtain ⟨r, u, rfl, hT, hrun, hno⟩ := hcreates
  obtain ⟨-, -, hresult⟩ := step_createDump h
  have hfinal := (final_map some (createDump cfg r) s).symm.trans (final_of_reply (reply_eq_some.mpr hresult))
  rw [hrun, final_ok] at hfinal
  subst hfinal
  obtain ⟨e, hentries, hstart, hstatus⟩ := createDump_ok hrun
  have hslot : u.entries[n]? = some (some e) := by
    rw [hentries, insertIfNew_of_absent ((not_mem_iff _ _).mp hno), insert_get, if_pos rfl]
  refine ⟨(mem_iff _ _).mpr ⟨_, hslot⟩, fun e' he' => ?_, fun e' he' hcompleted => ?_⟩
  · rw [hslot] at he'
    cases he'
    exact hstart.trans hT
  · rw [hslot] at he'
    cases he'
    rw [hstatus] at hcompleted
    cases hcompleted

structure TakenUp (cfg : Config) (file : Path) (s : SystemDaemon) (k : Nat) (e : SystemEntry) : Prop where
  path : e.base.file = some file
  named : ∃ id, parseName cfg.plat (filename file) = .ok (some (id, e.base.completedTime)) ∧ uint32 id = k
  content : ∃ c, s.disk.content file = some c ∧ e.base.size = c.size
  startTime : (s.entries[k]? = none ∧ e.base.startTime = e.base.completedTime) ∨
    ∃ e' : SystemEntry, s.entries[k]? = some (some e') ∧ e.base.startTime = e'.base.startTime

theorem createEntry_slot {io : FileEvent} {file : Path} {u : Unit} (h : createEntry cfg io file s = .ok u t) {k : Nat}
    {v : Option SystemEntry} (hv : t.entries[k]? = some v) :
    s.entries[k]? = some v ∨ ∃ e, v = some e ∧ TakenUp cfg file s k e := by
  rcases hparse : parseName cfg.plat (filename file) with exn | _ | ⟨id, timestamp⟩
  · rw [createEntry_refused hparse] at h
    cases h
  · rw [createEntry_unnamed hparse] at h
    cases h
    exact .inl hv
  · cases hc : s.disk.content file with
    | none =>
        rw [createEntry_absent hparse hc] at h
        cases h
    | some c =>
        by_cases he : ∃ e, s.entries[uint32 id]? = some (some e)
        · obtain ⟨e, he⟩ := he
          rw [createEntry_present hparse hc he] at h
          cases h
          rw [insert_get] at hv
          split at hv
          · rename_i hk
            cases hv
            exact .inr ⟨_, rfl, rfl, ⟨id, hparse, hk⟩, ⟨c, hc, rfl⟩, .inr ⟨e, hk ▸ he, rfl⟩⟩
          · exact .inl hv
        · rw [createEntry_new hparse hc fun e hs => he ⟨e, hs⟩] at h
          cases hcon : io.construction with
          | done =>
              rw [hcon] at h
              cases h
              rcases insertIfNew_cases hv with hold | ⟨hk, hno, rfl⟩
              · exact .inl hold
              · exact .inr ⟨_, rfl, rfl, ⟨id, hparse, hk⟩, ⟨c, hc, rfl⟩, .inl ⟨hno, rfl⟩⟩
          | invalidArgument =>
              rw [hcon] at h
              cases h
              exact .inl hv
          | failed =>
              rw [hcon] at h
              cases h

theorem Made.of_slots (hs : Made cfg n T s) (hmem : n ∈ t.entries)
    (hslots : ∀ e : SystemEntry, t.entries[n]? = some (some e) → s.entries[n]? = some (some e) ∨
      (∃ e' : SystemEntry, s.entries[n]? = some (some e') ∧ e.base.startTime = e'.base.startTime) ∧
        (e.base.status = .Completed → ∃ file s', TakenUp cfg file s' n e)) : Made cfg n T t := by
  refine ⟨hmem, fun e he => ?_, fun e he hcompleted => ?_⟩
  · rcases hslots e he with hold | ⟨⟨e', he', hstart⟩, -⟩
    · exact hs.startTime e hold
    · exact hstart.trans (hs.startTime e' he')
  · rcases hslots e he with hold | ⟨-, htaken⟩
    · exact hs.completed e hold hcompleted
    · obtain ⟨file, s', htaken⟩ := htaken hcompleted
      obtain ⟨id, hparse, hid⟩ := htaken.named
      exact ⟨file, id, _, htaken.path, hparse, hid, rfl⟩

/-- The step lemma: what is known of the entry stays so while it remains. -/
theorem step_made {ev : Event Request FileEvent} (hs : Made cfg n T s) (hremains : Remains cfg n s ev t)
    (h : step (systemOps cfg) s ev = some t) : Made cfg n T t := by
  refine hs.of_slots hremains.1 fun e he => ?_
  have hslot := step_slot (System.Steps.sound cfg) h he
  generalize hv : some e = v at hslot
  cases hslot with
  | kept _ _ hkept => exact .inl (hv ▸ hkept)
  | created r pid kind e' hr =>
      cases hv
      have hr' : (some <$> createDump cfg r) s = .ok (some n) t := hr
      rw [map_eq_pure_bind] at hr'
      obtain ⟨m, s', hdump, hpure⟩ := bind_eq_ok.mp hr'
      cases hpure
      obtain ⟨e', hentries, -⟩ := createDump_ok hdump
      by_cases hmem : n ∈ (final (limitDumpEntries cfg.SYSTEM_DUMP_MAX_LIMIT s)).entries
      · obtain ⟨w, hw⟩ := (mem_iff _ _).mp hmem
        rw [hentries, insertIfNew_of_present hw] at he
        exact .inl ((keeps_limitDumpEntries cfg.SYSTEM_DUMP_MAX_LIMIT s).entries n _ he)
      · exact absurd ⟨r, t, rfl, rfl, hdump, hmem⟩ (hremains.2 r.timeStamp)
  | filed io =>
      cases hv
      obtain ⟨path, mask, rest, -, hcases⟩ := step_handle h
      rcases hcases with ⟨-, -, u, hc⟩ | ⟨-, -, rfl⟩ | ⟨-, -, -, rfl⟩ | ⟨-, -, rfl⟩
      · rcases createEntry_slot hc he with hold | ⟨e', heq, htaken⟩
        · exact .inl hold
        · cases heq
          refine .inr ⟨?_, fun _ => ⟨path, _, htaken⟩⟩
          rcases htaken.startTime with ⟨hno, -⟩ | hstart
          · exact absurd hs.present ((not_mem_iff _ _).mpr hno)
          · exact hstart
      all_goals exact .inl he
  | failed pid =>
      obtain ⟨e', he', rfl⟩ := Option.map_eq_some_iff.mp hv.symm
      exact .inr ⟨⟨e', getD_eq_some he', rfl⟩, fun hcompleted => (by cases hcompleted)⟩

end Times

section Restore

def restoreFirst (listing : Listing) (d : String) : SystemOp Unit :=
  match listing.names [d] with
  | name :: _ => createEntry cfg (listing.events [d, name]) [d, name]
  | [] => pure ()

theorem restore_eq_visit (listing : Listing) :
    restore cfg listing = visit cfg.plat (fun _ => restoreFirst cfg listing) (listing.names []) := rfl

def Readable (plat : Platform) (disk : FileTree Content) (file : Path) : Prop :=
  ∃ details, parseName plat (filename file) = .ok details ∧ (details.isSome = true → (disk.content file).isSome = true)

/-- Nothing on disk stops restore, and the directory of the id holds the dump file alone,
of this size, while no other numbered directory holds a file that is named for the id. -/
structure Restorable (disk : FileTree Content) (n : Nat) (name : String) (size : Nat) : Prop where
  numbers : ∀ d, Numbered disk d → number d ≤ cfg.plat.ulongMax
  readable : ∀ d x, Numbered disk d → x ∈ disk.children [d] → Readable cfg.plat disk [d, x]
  alone : ∀ x ∈ disk.children [toString n], x = name
  elsewhere : ∀ d x, Numbered disk d → x ∈ disk.children [d] → namedId cfg.plat x = some n → d = toString n
  size : (disk.content [toString n, name]).map Content.size = some size

/-- The invariant of a restore: the entries are those of the files that directories list first. -/
structure Reading (disk : FileTree Content) (listing : Listing) (s : SystemDaemon) : Prop where
  sameDisk : s.disk = disk
  entries : ∀ (k : Nat) (v : Option SystemEntry), s.entries[k]? = some v → ∃ e d x, v = some e ∧
    (listing.names [d]).head? = some x ∧ e.base.file = some [d, x] ∧
    (disk.content [d, x]).map Content.size = some e.base.size

variable {cfg} {listing : Listing} {disk : FileTree Content} {s t : SystemDaemon} {u : Unit} {d x : String} {n : Nat}

section File

variable {io : FileEvent} {file : Path}

theorem readable_of_createEntry (h : createEntry cfg io file s = .ok u t) : Readable cfg.plat s.disk file := by
  rcases hparse : parseName cfg.plat (filename file) with exn | _ | ⟨id, timestamp⟩
  · rw [createEntry_refused hparse] at h
    cases h
  · exact ⟨none, hparse, by simp⟩
  · refine ⟨_, hparse, fun _ => ?_⟩
    cases hc : s.disk.content file with
    | none =>
        rw [createEntry_absent hparse hc] at h
        cases h
    | some c => rfl

variable (hdone : io.construction = .done)
include hdone

theorem createEntry_returns (hreadable : Readable cfg.plat s.disk file) :
    ∃ t, createEntry cfg io file s = .ok () t := by
  obtain ⟨_ | ⟨id, timestamp⟩, hparse, hfile⟩ := hreadable
  · exact ⟨s, createEntry_unnamed hparse⟩
  · obtain ⟨c, hc⟩ := Option.isSome_iff_exists.mp (hfile rfl)
    by_cases he : ∃ e, s.entries[uint32 id]? = some (some e)
    · obtain ⟨e, he⟩ := he
      exact ⟨_, createEntry_present hparse hc he⟩
    · rw [createEntry_new hparse hc fun e hs => he ⟨e, hs⟩, hdone]
      exact ⟨_, rfl⟩

theorem createEntry_named (hnamed : namedId cfg.plat (filename file) = some n) (hnull : s.entries[n]? ≠ some none)
    (h : createEntry cfg io file s = .ok u t) : ∃ e, t.entries[n]? = some (some e) ∧ e.base.file = some file := by
  obtain ⟨id, timestamp, hparse, rfl⟩ := namedId_eq_some.mp hnamed
  cases hc : s.disk.content file with
  | none =>
      rw [createEntry_absent hparse hc] at h
      cases h
  | some c =>
      rcases he : s.entries[uint32 id]? with _ | _ | e
      · rw [createEntry_new hparse hc (by simp [he]), hdone] at h
        cases h
        refine ⟨create (uint32 id) timestamp c.size (some file) .Completed "" io.originatorType io.entryProcessGroupID,
          (insertIfNew_get _ _ _ _).trans ?_, rfl⟩
        rw [if_pos rfl, he]
        rfl
      · exact absurd he hnull
      · rw [createEntry_present hparse hc he] at h
        cases h
        exact ⟨update e timestamp c.size file, (insert_get _ _ _ _).trans (if_pos rfl), rfl⟩

end File

theorem createEntry_reading {io : FileEvent} (hs : Reading disk listing s) (hfirst : (listing.names [d]).head? = some x)
    (h : createEntry cfg io [d, x] s = .ok u t) : Reading disk listing t := by
  refine ⟨((sameDisk_system cfg io [d, x]).ok h).trans hs.sameDisk, fun k v hv => ?_⟩
  rcases createEntry_slot h hv with hold | ⟨e, rfl, htaken⟩
  · exact hs.entries k v hold
  · obtain ⟨c, hc, hsize⟩ := htaken.content
    rw [hs.sameDisk] at hc
    exact ⟨e, d, x, rfl, hfirst, htaken.path, by rw [hc, hsize]; rfl⟩

theorem restoreFirst_cases (h : restoreFirst cfg listing d s = .ok u t) : t = s ∨
    ∃ x, (listing.names [d]).head? = some x ∧ createEntry cfg (listing.events [d, x]) [d, x] s = .ok u t := by
  rw [restoreFirst] at h
  cases hnames : listing.names [d] with
  | nil =>
      rw [hnames] at h
      cases h
      exact .inl rfl
  | cons x rest =>
      rw [hnames] at h
      exact .inr ⟨x, rfl, h⟩

theorem restoreFirst_reading (d : String) : Preserves (Reading disk listing) (restoreFirst cfg listing d) := by
  intro s u t hs h
  rcases restoreFirst_cases h with rfl | ⟨x, hfirst, hrun⟩
  · exact hs
  · exact createEntry_reading hs hfirst hrun

theorem reading_lastEntryId (hs : Reading disk listing s) (l : Nat) :
    Reading disk listing { s with lastEntryId := l } :=
  ⟨hs.sameDisk, hs.entries⟩

theorem reading_bare : Reading disk listing (bare ⟨∅, ⟨false, false⟩⟩ disk) :=
  ⟨rfl, fun _ v hv => absurd ((mem_iff _ _).mpr ⟨v, hv⟩) ExtTreeMap.not_mem_empty⟩

theorem visit_reading (names : List String) :
    Preserves (Reading disk listing) (visit cfg.plat (fun _ => restoreFirst cfg listing) names) :=
  preserves_visit fun d _ _ _ hs _ _ u t h => restoreFirst_reading d _ u t (reading_lastEntryId hs _) h

section Yields

variable {name : String} {size id timestamp : Nat} (hr : Restorable cfg disk n name size)
  (hlist : ∀ p, (listing.names p).Perm (disk.children p)) (hdone : ∀ p, (listing.events p).construction = .done)
include hr hlist

theorem first_readable (hnum : Numbered disk d) (hfirst : (listing.names [d]).head? = some x) :
    x ∈ disk.children [d] ∧ Readable cfg.plat disk [d, x] := by
  have hmem := (hlist [d]).mem_iff.mp (List.mem_of_head? hfirst)
  exact ⟨hmem, hr.readable d x hnum hmem⟩

include hdone

theorem restoreFirst_returns (hnum : Numbered disk d) :
    Returns (Reading disk listing) (Reading disk listing) (restoreFirst cfg listing d) := by
  intro s hs
  cases hnames : listing.names [d] with
  | nil => exact ⟨(), s, by rw [restoreFirst, hnames]; rfl, hs⟩
  | cons x rest =>
      have hfirst : (listing.names [d]).head? = some x := by rw [hnames]; rfl
      have hreadable := (first_readable hr hlist hnum hfirst).2
      rw [← hs.sameDisk] at hreadable
      obtain ⟨t, ht⟩ := createEntry_returns (hdone [d, x]) hreadable
      exact ⟨(), t, by rw [restoreFirst, hnames]; exact ht, createEntry_reading hs hfirst ht⟩

omit hdone in
theorem only_first (hcontent : (disk.content [toString n, name]).isSome = true) :
    (listing.names [toString n]).head? = some name := by
  have hmem := mem_names_of_content hlist hcontent
  cases hnames : listing.names [toString n] with
  | nil =>
      rw [hnames] at hmem
      cases hmem
  | cons x rest =>
      have hx : x ∈ listing.names [toString n] := hnames ▸ List.mem_cons_self
      exact congrArg some (hr.alone x ((hlist _).mem_iff.mp hx))

structure Regained (n : Nat) (name : String) (size timestamp : Nat) (e : SystemEntry) : Prop where
  path : e.base.file = some [toString n, name]
  size : e.base.size = size
  startTime : e.base.startTime = timestamp
  completedTime : e.base.completedTime = timestamp

variable (hparse : parseName cfg.plat name = .ok (some (id, timestamp)))
include hparse

omit hdone in
theorem restoreFirst_regained (hnum : Numbered disk d) : Preserves (fun s => Reading disk listing s ∧
    ∀ e, s.entries[n]? = some (some e) → Regained n name size timestamp e) (restoreFirst cfg listing d) := by
  rintro s u t ⟨hs, hold⟩ h
  refine ⟨restoreFirst_reading d s u t hs h, fun e he => ?_⟩
  rcases restoreFirst_cases h with rfl | ⟨x, hfirst, hrun⟩
  · exact hold e he
  · rcases createEntry_slot hrun he with hkept | ⟨e', heq, htaken⟩
    · exact hold e hkept
    · cases heq
      have hmem := (first_readable hr hlist hnum hfirst).1
      obtain ⟨id', hparse', hid'⟩ := htaken.named
      obtain rfl := hr.elsewhere d x hnum hmem (namedId_eq_some.mpr ⟨id', _, hparse', hid'⟩)
      obtain rfl := hr.alone x hmem
      have hname : filename [toString n, x] = x := rfl
      rw [hname, hparse] at hparse'
      have hcompleted : timestamp = e.base.completedTime := congrArg Prod.snd (Option.some.inj (Except.ok.inj hparse'))
      obtain ⟨c, hc, hsize⟩ := htaken.content
      refine ⟨htaken.path, ?_, ?_, hcompleted.symm⟩
      · have h' := hr.size
        rw [← hs.sameDisk, hc] at h'
        exact hsize.trans (Option.some.inj h')
      · rcases htaken.startTime with ⟨-, hstart⟩ | ⟨e', he', hstart⟩
        · exact hstart.trans hcompleted.symm
        · exact hstart.trans (hold e' he').startTime

theorem restore_regains (hid : uint32 id = n) : ∃ v t e, restore cfg listing (bare ⟨∅, ⟨false, false⟩⟩ disk) = .ok v t ∧
    t.entries[n]? = some (some e) ∧ Regained n name size timestamp e := by
  have hcontent : (disk.content [toString n, name]).isSome = true := by
    have h := congrArg Option.isSome hr.size
    rwa [Option.isSome_map] at h
  have hnum := numbered_of_content hcontent
  have hroot := numbered_root hnum
  obtain ⟨v, t, hrun, hreading⟩ := returns_visit (J := Reading disk listing)
    (fun s hs d => by rw [hs.sameDisk]) (fun s l hs => reading_lastEntryId hs _) (fun s hs => hs.sameDisk ▸ hroot)
    (fun d (_ : d ∈ listing.names []) hd => ⟨number d, stoul_eq_ok.mpr ⟨rfl, hr.numbers d hd⟩⟩)
    (fun d _ hd _ => restoreFirst_returns hr hlist hdone hd) _ reading_bare
  have hmem : n ∈ t.entries := by
    refine (visit_keys (System.Steps.sound cfg) (Keys.makes_system cfg) (sameDisk_system cfg)
      (fun _ d _ _ => congrFun (first_reads listing.names _ d) _) hroot hrun n).mpr ?_
    refine ⟨toString n, mem_names_of_numbered hlist hnum, hnum, [toString n, name], ?_, ?_, ?_⟩
    · rw [firstFile, only_first hr hlist hcontent]
      exact List.mem_singleton_self _
    · exact namedId_eq_some.mpr ⟨id, timestamp, hparse, hid⟩
    · simp [hdone]
  have hregained : ∀ e, t.entries[n]? = some (some e) → Regained n name size timestamp e := by
    refine (preserves_visit (J := fun s => Reading disk listing s ∧
      ∀ e, s.entries[n]? = some (some e) → Regained n name size timestamp e)
      (fun d _ l s hs hnum _ u t h => ?_) _ v t ⟨reading_bare, fun e he => ?_⟩ hrun).2
    · have hnum' : Numbered disk d := hs.1.sameDisk ▸ hnum
      have hnext := reading_lastEntryId hs.1 (max s.lastEntryId (uint32 l))
      exact restoreFirst_regained hr hlist hparse hnum' _ u t ⟨hnext, hs.2⟩ h
    · exact absurd ((mem_iff _ _).mpr ⟨_, he⟩) ExtTreeMap.not_mem_empty
  obtain ⟨w, hw⟩ := (mem_iff _ _).mp hmem
  obtain ⟨e, -, -, rfl, -⟩ := hreading.entries n w hw
  exact ⟨v, t, e, hrun, hw, hregained e hw⟩

end Yields

section Needed

def asStored (disk : FileTree Content) : Listing := ⟨disk.children, fun _ => ⟨true, .done, false, 0, 0⟩⟩

def lastAndFirst (disk : FileTree Content) (d x : String) : Listing where
  names p :=
    if p = [d] then x :: (disk.children [d]).erase x
    else if p = [] then (disk.children []).erase d ++ [d]
    else disk.children p
  events _ := ⟨true, .done, false, 0, 0⟩

theorem lastAndFirst_perm (hd : d ∈ disk.children []) (hx : x ∈ disk.children [d]) (p : Path) :
    ((lastAndFirst disk d x).names p).Perm (disk.children p) := by
  rw [lastAndFirst]
  dsimp only
  split
  · rename_i hp
    subst hp
    exact (List.perm_cons_erase hx).symm
  · split
    · rename_i hp
      subst hp
      exact (List.perm_append_singleton _ _).trans (List.perm_cons_erase hd).symm
    · exact .rfl

theorem lastAndFirst_head (d x : String) : ((lastAndFirst disk d x).names [d]).head? = some x := by
  rw [lastAndFirst]
  dsimp only
  rw [if_pos rfl]
  rfl

theorem lastAndFirst_root (d x : String) : (lastAndFirst disk d x).names [] = (disk.children []).erase d ++ [d] := rfl

theorem createEntry_last (hnum : Numbered disk d)
    (h : restore cfg (lastAndFirst disk d x) (bare ⟨∅, ⟨false, false⟩⟩ disk) = .ok u t) :
    ∃ s, Reading disk (lastAndFirst disk d x) s ∧
      createEntry cfg ((lastAndFirst disk d x).events [d, x]) [d, x] s = .ok u t := by
  rw [restore_eq_visit, lastAndFirst_root] at h
  obtain ⟨v, r, hothers, hlast⟩ := visit_concat (numbered_root hnum) h
  have hr := visit_reading _ _ v r reading_bare hothers
  rcases visitDirectory_cases hlast with ⟨hno, -⟩ | ⟨id, -, -, hrun⟩
  · exact absurd (hr.sameDisk ▸ hnum) hno
  · have hnames : (lastAndFirst disk d x).names [d] = x :: (disk.children [d]).erase x := if_pos rfl
    rw [restoreFirst, hnames] at hrun
    exact ⟨_, reading_lastEntryId hr _, hrun⟩

variable {name : String} {size : Nat}
  (hrestores : ∀ listing : Listing, (∀ p, (listing.names p).Perm (disk.children p)) →
    (∀ p, (listing.events p).construction = .done) →
    ∃ v t e, restore cfg listing (bare ⟨∅, ⟨false, false⟩⟩ disk) = .ok v t ∧ t.entries[n]? = some (some e) ∧
      e.base.file = some [toString n, name] ∧ e.base.size = size)
include hrestores

theorem restorable_of_restores : Restorable cfg disk n name size := by
  have hread {listing : Listing} {t : SystemDaemon} {e : SystemEntry} (ht : Reading disk listing t)
      (he : t.entries[n]? = some (some e)) (hfile : e.base.file = some [toString n, name]) :
      (listing.names [toString n]).head? = some name ∧
        (disk.content [toString n, name]).map Content.size = some e.base.size := by
    obtain ⟨e', d, x, heq, hfirst, hfile', hsize⟩ := ht.entries n _ he
    cases heq
    rw [hfile] at hfile'
    cases hfile'
    exact ⟨hfirst, hsize⟩
  have hlisted {d x : String} (hnum : Numbered disk d) (hx : x ∈ disk.children [d]) :
      ∃ s io v t e, Reading disk (lastAndFirst disk d x) s ∧ io.construction = .done ∧
        createEntry cfg io [d, x] s = .ok v t ∧ t.entries[n]? = some (some e) ∧
        e.base.file = some [toString n, name] := by
    obtain ⟨v, t, e, hrun, he, hfile, -⟩ := hrestores (lastAndFirst disk d x)
      (lastAndFirst_perm (mem_names_of_numbered (fun _ => .rfl) hnum) hx) fun _ => rfl
    obtain ⟨s, hs, hlast⟩ := createEntry_last hnum hrun
    exact ⟨s, _, v, t, e, hs, rfl, hlast, he, hfile⟩
  obtain ⟨v, t, e, hrun, he, hfile, hsize⟩ := hrestores (asStored disk) (fun _ => .rfl) fun _ => rfl
  have ht := visit_reading _ _ v t reading_bare hrun
  have hcontent := (hread ht he hfile).2
  have hsome : (disk.content [toString n, name]).isSome = true := by
    rw [← Option.isSome_map, hcontent]
    rfl
  have hown := numbered_of_content hsome
  refine ⟨fun d hnum => ?_, fun d x hnum hx => ?_, fun x hx => ?_, fun d x hnum hx hnamed => ?_, hsize ▸ hcontent⟩
  · obtain ⟨id, hid⟩ := stoul_of_visit (J := Reading disk (asStored disk)) (fun s hs d => by rw [hs.sameDisk])
      (fun s l hs => reading_lastEntryId hs _)
      (fun s hs => hs.sameDisk ▸ numbered_root hown) (fun d _ _ => restoreFirst_reading d) reading_bare hrun
      (mem_names_of_numbered (fun _ => .rfl) hnum) hnum
    exact (stoul_eq_ok.mp hid).2
  · obtain ⟨s, io, v, t, e, hs, -, hlast, -⟩ := hlisted hnum hx
    exact hs.sameDisk ▸ readable_of_createEntry hlast
  · obtain ⟨s, io, v, t, e, hs, -, hlast, he, hfile⟩ := hlisted hown hx
    have hfirst := (hread (createEntry_reading hs (lastAndFirst_head _ _) hlast) he hfile).1
    rw [lastAndFirst_head] at hfirst
    exact Option.some.inj hfirst
  · obtain ⟨s, io, v, t, e, hs, hdone, hlast, he, hfile⟩ := hlisted hnum hx
    have hnull : s.entries[n]? ≠ some none := by
      intro hslot
      obtain ⟨e, -, -, heq, -⟩ := hs.entries n none hslot
      cases heq
    have hname : filename [d, x] = x := rfl
    obtain ⟨e', he', hfile'⟩ := createEntry_named hdone (hname ▸ hnamed) hnull hlast
    rw [he] at he'
    cases he'
    rw [hfile] at hfile'
    cases hfile'
    rfl

end Needed

end Restore

section Runs

/-- The start and the completion of an entry, requested when the clock read the first time
and with a file of the second one, are in one unit. -/
structure SameUnit (startClock fileClock startTime completedTime : Nat) : Prop where
  unit : ∃ k > 0, startTime = k * startClock ∧ completedTime = k * fileClock
  ordered : startTime ≤ completedTime

/-- A restart gives the entry its file, size and times again, in whatever order the
directories are listed. -/
def RestartYields (s : SystemDaemon) (n : Nat) (e : SystemEntry) : Prop :=
  ∀ listing : Listing, (∀ p, (listing.names p).Perm (s.disk.children p)) →
    (∀ p, (listing.events p).construction = .done) →
    ∃ v t e', restore cfg listing (bare ⟨∅, ⟨false, false⟩⟩ s.disk) = .ok v t ∧ t.entries[n]? = some (some e') ∧
      e'.base.file = e.base.file ∧ e'.base.size = e.base.size ∧ e'.base.startTime = e.base.startTime ∧
      e'.base.completedTime = e.base.completedTime

/-- The clock of the request counts seconds and the one of the files microseconds, which
agree at no time but the first one. -/
theorem sameUnit_iff {T epoch : Nat} (hepoch : epoch < 2 ^ 64) :
    SameUnit T epoch T (uint64 (epoch * 1000 * 1000)) ∧ T = uint64 (epoch * 1000 * 1000) ↔ T = 0 ∧ epoch = 0 := by
  constructor
  · rintro ⟨⟨⟨k, hk, hstart, hcompleted⟩, -⟩, hsame⟩
    rcases Nat.eq_zero_or_pos T with hzero | hpos
    · refine ⟨hzero, ?_⟩
      rw [← hsame, hzero] at hcompleted
      exact (Nat.mul_eq_zero.mp hcompleted.symm).resolve_left (by omega)
    · have hone : k = 1 := Nat.eq_of_mul_eq_mul_right hpos (hstart.symm.trans (Nat.one_mul T).symm)
      rw [hone, Nat.one_mul] at hcompleted
      have hfixed : epoch * 1000 * 1000 % 2 ^ 64 = epoch := hcompleted
      omega
  · rintro ⟨rfl, rfl⟩
    exact ⟨⟨⟨1, Nat.one_pos, rfl, rfl⟩, Nat.le_refl _⟩, rfl⟩

variable {cfg} {s₀ s : SystemDaemon} {es : List (Event Request FileEvent)} {n T : Nat} {e : SystemEntry}

theorem made_of_run (hrun : run (step (systemOps cfg)) s₀ es = some s)
    (hcreated : Since (step (systemOps cfg)) (CreatesAt cfg n T) (Remains cfg n) False s₀ es) : Made cfg n T s :=
  invariant_since (J := fun _ => True) (fun _ _ _ _ _ _ => trivial)
    (fun _ _ _ _ _ h hcreates => made_of_creates hcreates h)
    (fun _ _ _ _ hs _ h hremains => step_made hs hremains h)
    (eachStep_of_forall (fun _ _ => trivial) s₀ es) hrun trivial False.elim hcreated

theorem restart_agrees_iff (hrun : run (step (systemOps cfg)) s₀ es = some s)
    (hcreated : Since (step (systemOps cfg)) (CreatesAt cfg n T) (Remains cfg n) False s₀ es)
    (he : s.entries[n]? = some (some e)) (hcompleted : e.base.status = .Completed) {epoch : Nat} {ext : String} {c : Char}
    {cs : List Char} (hext : ext.toList = c :: cs) (hc : c.isAlphanum = true)
    (hfile : e.base.file = some [toString n, archiveName n epoch ext]) :
    SameUnit T epoch e.base.startTime e.base.completedTime ∧ RestartYields cfg s n e ↔
      T = 0 ∧ epoch = 0 ∧ Restorable cfg s.disk n (archiveName n epoch ext) e.base.size := by
  have hmade := made_of_run hrun hcreated
  have hT := hmade.startTime e he
  obtain ⟨file, id, timestamp, hfile', hparse, hid, htime⟩ := hmade.completed e he hcompleted
  rw [hfile] at hfile'
  cases hfile'
  have hname : filename [toString n, archiveName n epoch ext] = archiveName n epoch ext := rfl
  rw [hname] at hparse
  obtain ⟨hepoch, -, hdetails⟩ := (parseName_archive_iff hext hc).mp hparse
  have htimestamp : timestamp = uint64 (epoch * 1000 * 1000) := congrArg Prod.snd (Option.some.inj hdetails)
  rw [hT, htime, htimestamp]
  constructor
  · rintro ⟨hunit, hyields⟩
    have hrestorable : Restorable cfg s.disk n (archiveName n epoch ext) e.base.size := by
      refine restorable_of_restores fun listing hlist hdone => ?_
      obtain ⟨v, t, e', hrestore, he', hfile', hsize, -⟩ := hyields listing hlist hdone
      exact ⟨v, t, e', hrestore, he', hfile'.trans hfile, hsize⟩
    have hsame : T = uint64 (epoch * 1000 * 1000) := by
      have hlist : ∀ p, ((asStored s.disk).names p).Perm (s.disk.children p) := fun _ => .rfl
      have hdone : ∀ p, ((asStored s.disk).events p).construction = .done := fun _ => rfl
      obtain ⟨v, t, e', hrestore, he', -, -, hstarted, -⟩ := hyields _ hlist hdone
      obtain ⟨v', t', e'', hrestore', he'', hregained⟩ := restore_regains hrestorable hlist hdone hparse hid
      rw [hrestore] at hrestore'
      cases hrestore'
      rw [he'] at he''
      cases he''
      rw [← hT, ← hstarted, hregained.startTime, htimestamp]
    obtain ⟨hzero, hepochZero⟩ := (sameUnit_iff hepoch).mp ⟨hunit, hsame⟩
    exact ⟨hzero, hepochZero, hrestorable⟩
  · rintro ⟨hzero, hepochZero, hrestorable⟩
    obtain ⟨hunit, hsame⟩ := (sameUnit_iff hepoch).mpr ⟨hzero, hepochZero⟩
    refine ⟨hunit, fun listing hlist hdone => ?_⟩
    obtain ⟨v, t, e', hrestore, he', hregained⟩ := restore_regains hrestorable hlist hdone hparse hid
    refine ⟨v, t, e', hrestore, he', hregained.path.trans hfile.symm, hregained.size, ?_, ?_⟩
    · rw [hregained.startTime, hT, htimestamp, hsame]
    · rw [hregained.completedTime, htime]

end Runs

section Files

private def fpgaRequest (timeStamp : Nat) : Request := { diagnosticRequest "FPGA" 7 with timeStamp := timeStamp }

private def oneFile (name : String) : List (Event Request FileEvent) :=
  [.files (.mkdir [] "1"), .watchReady [], .handle ⟨true, .done, true, 0, 0⟩, .files (.openFile ["1"] name),
    .files (.writeFile ["1"] name ⟨500, none⟩), .files (.closeFile ["1"] name), .watchReady ["1"],
    .handle ⟨true, .done, true, 0, 0⟩]

private def keepsKey (n : Nat) (s : SystemDaemon) : Event Request FileEvent → Bool
  | .createDump _ => false
  | ev => (step (systemOps defaultConfig) s ev).all fun t => t.entries.contains n

private theorem remains_of_keepsKey (n : Nat) (s : SystemDaemon) (ev : Event Request FileEvent) (t : SystemDaemon)
    (hkeeps : keepsKey n s ev = true) (h : step (systemOps defaultConfig) s ev = some t) :
    Remains defaultConfig n s ev t := by
  have hother : ∀ r, ev ≠ .createDump r := by
    rintro r rfl
    cases hkeeps
  constructor
  · rw [keepsKey, h] at hkeeps
    · exact ExtTreeMap.mem_iff_contains.mpr hkeeps
    · exact hother
  · rintro T ⟨r, -, rfl, -⟩
    exact hother r rfl

private def granted (T : Nat) (name : String) : Bool :=
  decide ((createDump defaultConfig (fpgaRequest T)).run' (bare ⟨∅, ⟨false, false⟩⟩ .root) = some 1) &&
    (step (systemOps defaultConfig) (bare ⟨∅, ⟨false, false⟩⟩ .root) (.createDump (fpgaRequest T))).all fun u =>
      decide (EachStep (step (systemOps defaultConfig)) (fun s ev => keepsKey 1 s ev = true) u (oneFile name))

private theorem since_granted {T : Nat} {name : String} (h : granted T name = true) :
    Since (step (systemOps defaultConfig)) (CreatesAt defaultConfig 1 T) (Remains defaultConfig 1) False
      (bare ⟨∅, ⟨false, false⟩⟩ .root) (.createDump (fpgaRequest T) :: oneFile name) := by
  obtain ⟨hdump, hkeeps⟩ := Bool.and_eq_true_iff.mp h
  have hcreates : CreatesAt defaultConfig 1 T (bare ⟨∅, ⟨false, false⟩⟩ .root) (.createDump (fpgaRequest T)) :=
    ⟨fpgaRequest T, _, rfl, rfl, eq_ok_of_run' (of_decide_eq_true hdump), ExtTreeMap.not_mem_empty⟩
  intro u hu
  refine since_mono (fun (_ : True) => .inl hcreates) ?_
  rw [hu] at hkeeps
  exact since_of_eachStep (remains_of_keepsKey 1) trivial (of_decide_eq_true hkeeps)

theorem request_clock_counts_seconds : ∃ s e, Started defaultConfig (bare ⟨∅, ⟨false, false⟩⟩ .root) ∧
    run (step (systemOps defaultConfig)) (bare ⟨∅, ⟨false, false⟩⟩ .root)
      (.createDump (fpgaRequest 1000000) :: oneFile (archiveName 1 1000001 "tar")) = some s ∧
    Since (step (systemOps defaultConfig)) (CreatesAt defaultConfig 1 1000000) (Remains defaultConfig 1) False
      (bare ⟨∅, ⟨false, false⟩⟩ .root) (.createDump (fpgaRequest 1000000) :: oneFile (archiveName 1 1000001 "tar")) ∧
    s.entries[1]? = some (some e) ∧ e.base.status = .Completed ∧
    e.base.file = some [toString 1, archiveName 1 1000001 "tar"] ∧ e.base.startTime = 1000000 ∧
    e.base.completedTime = 1000001000000 ∧ ¬ SameUnit 1000000 1000001 e.base.startTime e.base.completedTime ∧
    ¬ RestartYields defaultConfig s 1 e := by
  have h : ((run (step (systemOps defaultConfig)) (bare ⟨∅, ⟨false, false⟩⟩ .root)
      (.createDump (fpgaRequest 1000000) :: oneFile (archiveName 1 1000001 "tar"))).map fun (t : SystemDaemon) =>
      decide ((t.entries[1]?.join.map fun e => e.base) = some ⟨1, "", 0, 500, .Completed, 1000001000000, 1000000,
          1000001000000, some ["1", "obmcdump_1_1000001.tar"]⟩ ∧
        ((final (restore defaultConfig (asStored t.disk) (bare ⟨∅, ⟨false, false⟩⟩ t.disk))).entries[1]?.join.map
          fun e => e.base.startTime) = some 1000001000000)) = some true := by
    decide +kernel
  obtain ⟨s, hrun, h⟩ := Option.map_eq_some_iff.mp h
  obtain ⟨hentry, hrestored⟩ := of_decide_eq_true h
  obtain ⟨e, he, hbase⟩ := Option.map_eq_some_iff.mp hentry
  have hstart : e.base.startTime = 1000000 := by rw [hbase]
  have hend : e.base.completedTime = 1000001000000 := by rw [hbase]
  refine ⟨s, e, started_root _, hrun, since_granted (by decide +kernel), Option.join_eq_some_iff.mp he, hbase ▸ rfl,
    hbase ▸ rfl, hstart, hend, fun hunit => ?_, fun hyields => ?_⟩
  · obtain ⟨k, -, hk, hk'⟩ := hunit.unit
    omega
  · obtain ⟨v, t, e', hrestore, he', -, -, hsame, -⟩ := hyields (asStored s.disk) (fun _ => .rfl) fun _ => rfl
    rw [hrestore, final_ok, he'] at hrestored
    have hlater : e'.base.startTime = 1000001000000 := Option.some.inj hrestored
    omega

private theorem restorable_of_children {disk : FileTree Content} {name : String} {size id timestamp : Nat}
    (hroot : disk.children [] = ["1"]) (hdir : disk.children ["1"] = [name])
    (hparse : parseName defaultConfig.plat name = .ok (some (id, timestamp)))
    (hsize : (disk.content ["1", name]).map Content.size = some size) : Restorable defaultConfig disk 1 name size := by
  have hone {d : String} (hnum : Numbered disk d) : d = "1" := by
    have hmem := mem_names_of_numbered (fun _ => .rfl) hnum
    rw [hroot] at hmem
    exact List.mem_singleton.mp hmem
  refine ⟨fun d hnum => ?_, fun d x hnum hx => ?_, fun x hx => ?_, fun d x hnum _ _ => hone hnum, hsize⟩
  · rw [hone hnum]
    decide
  · obtain rfl := hone hnum
    rw [hdir] at hx
    obtain rfl := List.mem_singleton.mp hx
    refine ⟨_, hparse, fun _ => ?_⟩
    rw [← Option.isSome_map, hsize]
    rfl
  · have hx' : x ∈ disk.children ["1"] := hx
    rw [hdir] at hx'
    exact List.mem_singleton.mp hx'

theorem first_second_survives : ∃ s e, run (step (systemOps defaultConfig)) (bare ⟨∅, ⟨false, false⟩⟩ .root)
      (.createDump (fpgaRequest 0) :: oneFile (archiveName 1 0 "tar")) = some s ∧ s.entries[1]? = some (some e) ∧
    SameUnit 0 0 e.base.startTime e.base.completedTime ∧ RestartYields defaultConfig s 1 e := by
  have h : ((run (step (systemOps defaultConfig)) (bare ⟨∅, ⟨false, false⟩⟩ .root)
      (.createDump (fpgaRequest 0) :: oneFile (archiveName 1 0 "tar"))).map fun (t : SystemDaemon) =>
      decide ((t.entries[1]?.join.map fun e => e.base) = some ⟨1, "", 0, 500, .Completed, 0, 0, 0,
          some ["1", "obmcdump_1_0.tar"]⟩ ∧
        t.disk.children [] = ["1"] ∧ t.disk.children ["1"] = ["obmcdump_1_0.tar"] ∧
        (t.disk.content ["1", "obmcdump_1_0.tar"]).map Content.size = some 500)) = some true := by
    decide +kernel
  obtain ⟨s, hrun, h⟩ := Option.map_eq_some_iff.mp h
  obtain ⟨hentry, hroot, hdir, hcontent⟩ := of_decide_eq_true h
  obtain ⟨e, he, hbase⟩ := Option.map_eq_some_iff.mp hentry
  have hcompleted : e.base.status = .Completed := by rw [hbase]
  have hfile : e.base.file = some [toString 1, archiveName 1 0 "tar"] := by rw [hbase]; rfl
  have hsize : e.base.size = 500 := by rw [hbase]
  have hslot : s.entries[1]? = some (some e) := Option.join_eq_some_iff.mp he
  have hrestorable : Restorable defaultConfig s.disk 1 (archiveName 1 0 "tar") e.base.size := by
    have hparse : parseName defaultConfig.plat (archiveName 1 0 "tar") = .ok (some (1, 0)) := rfl
    rw [hsize]
    exact restorable_of_children hroot hdir hparse hcontent
  have hext : "tar".toList = 't' :: ['a', 'r'] := rfl
  exact ⟨s, e, hrun, hslot, (restart_agrees_iff hrun (since_granted (by decide +kernel)) hslot hcompleted hext
    (by decide) hfile).mpr ⟨rfl, rfl, hrestorable⟩⟩

end Files

end DumpCollector.System.Restart
