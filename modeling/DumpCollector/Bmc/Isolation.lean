import DumpCollector.Bmc.Steps
import DumpCollector.WatchPaths

namespace DumpCollector.Bmc.Isolation

open Std Lib.Directory Lib.Effects Lib.Maps Lib.Runs
open Entries FileNames Inotify State Dispatch Frames DumpCollector.Steps Slots
open WatchPaths Bmc.Manager Bmc.Steps

/-- What the deletion of an entry is for: it takes out the key of the entry, and removes
neither the dump directory nor the dump file of another entry. -/
structure DeletesOnly (s : BmcDaemon) (i : Nat) (e : BmcEntry) : Prop where
  entries : ∀ k : Nat, (s.deleteEntry e).entries[k]? = if k = i then none else s.entries[k]?
  root : s.disk.isDirectory [] = true → (s.deleteEntry e).disk.isDirectory [] = true
  others : ∀ (j : Nat) (e' : BmcEntry) (file : Path) (c : Content), j ≠ i → s.entries[j]? = some (some e') →
    e'.base.file = some file → s.disk.content file = some c → (s.deleteEntry e).disk.content file = some c

def Isolated (s : BmcDaemon) : Prop :=
  ∀ (i : Nat) (e : BmcEntry), s.entries[i]? = some (some e) → DeletesOnly s i e

def otherDirectories (s : BmcDaemon) (i : Nat) : List Path :=
  s.entries.toList.filterMap fun
    | (j, some e) => if j = i then none else e.base.file.map List.dropLast
    | (_, none) => none

/-- A file is stored in an entry only from a directory that is not the dump directory and
holds the file of no other entry. -/
def StoresApart (cfg : Config) (s : BmcDaemon) : Event Request FileEvent → Prop
  | .handle io => ∀ x ∈ s.todo.head?, x.2 = IN_CLOSE_WRITE → ∀ n ∈ storing cfg s io x.1,
      x.1.dropLast ≠ [] ∧ x.1.dropLast ∉ otherDirectories s n
  | _ => True

instance decidableStoresApart (cfg : Config) (s : BmcDaemon) (ev : Event Request FileEvent) :
    Decidable (StoresApart cfg s ev) :=
  match ev with
  | .handle io => inferInstanceAs (Decidable (∀ x ∈ s.todo.head?, x.2 = IN_CLOSE_WRITE →
      ∀ n ∈ storing cfg s io x.1, x.1.dropLast ≠ [] ∧ x.1.dropLast ∉ otherDirectories s n))
  | .createDump _ | .delete _ | .deleteAll | .files _ | .exits _ _ | .stops _ _ | .continues _ | .watchReady _
  | .childNotification _ => isTrue trivial

structure Apart (s : BmcDaemon) : Prop where
  below : ∀ (i : Nat) (e : BmcEntry) (file : Path), s.entries[i]? = some (some e) → e.base.file = some file →
    file.dropLast ≠ []
  separate : ∀ (i j : Nat) (e e' : BmcEntry) (file file' : Path), i ≠ j → s.entries[i]? = some (some e) →
    e.base.file = some file → s.entries[j]? = some (some e') → e'.base.file = some file' →
    file.dropLast ≠ file'.dropLast

def Shallow (s : BmcDaemon) : Prop :=
  ∀ (i : Nat) (e : BmcEntry) (file : Path), s.entries[i]? = some (some e) → e.base.file = some file →
    file.length = 1 ∨ file.length = 2

section Deletion

variable {s : BmcDaemon} {i : Nat} {e : BmcEntry}

theorem dropLast_of_length {file : Path} (hlen : file.length = 1 ∨ file.length = 2) (hne : file.dropLast ≠ []) :
    ∃ d x, file = [d, x] := by
  rcases file with _ | ⟨d, _ | ⟨x, _ | ⟨y, file⟩⟩⟩
  · simp at hlen
  · exact absurd rfl hne
  · exact ⟨d, x, rfl⟩
  · simp at hlen

theorem deletesOnly_of_apart (hk : Keyed s) (hsh : Shallow s) (h : Apart s) (hi : s.entries[i]? = some (some e)) :
    DeletesOnly s i e where
  entries k := by
    have hid : e.base.id = i := hk i e hi
    rw [deleteEntry_entries, erase_get]
    change (if e.base.id = k then none else s.entries[k]?) = _
    rw [hid]
    simp only [eq_comm]
  root hroot := by
    cases hfile : e.base.file with
    | none => simpa only [Daemon.deleteEntry, DumpEntry.file, hfile] using hroot
    | some file =>
        have hne := h.below i e file hi hfile
        rw [isDirectory_iff] at hroot ⊢
        simp only [Daemon.deleteEntry, DumpEntry.file, hfile, Daemon.removeAll, removeAll_get, List.prefix_nil, hne,
          if_false, hroot]
  others j e' file c hj hej hfile' hc := by
    cases hfile : e.base.file with
    | none => simpa only [Daemon.deleteEntry, DumpEntry.file, hfile] using hc
    | some own =>
        obtain ⟨d, x, rfl⟩ := dropLast_of_length (hsh i e own hi hfile) (h.below i e own hi hfile)
        obtain ⟨d', x', rfl⟩ := dropLast_of_length (hsh j e' file hej hfile') (h.below j e' file hej hfile')
        have hne : [d] ≠ [d'] := h.separate i j e e' _ _ (Ne.symm hj) hi hfile hej hfile'
        rw [content_eq_some] at hc ⊢
        have hnot : ¬ [d] <+: [d', x'] := by
          intro hp
          exact hne (by simpa using hp)
        simp only [Daemon.deleteEntry, DumpEntry.file, hfile, Daemon.removeAll, removeAll_get, List.dropLast,
          hnot, if_false, hc]

theorem isolated_of_apart (hk : Keyed s) (hsh : Shallow s) (h : Apart s) : Isolated s :=
  fun _ _ hi => deletesOnly_of_apart hk hsh h hi

theorem deleteEntry_below {file p : Path} (hfile : e.base.file = some file) (hp : file.dropLast <+: p) :
    (s.deleteEntry e).disk.nodes[p]? = none := by
  have hfile' : DumpEntry.file e = some file := hfile
  simp only [Daemon.deleteEntry, hfile', Daemon.removeAll, removeAll_get, hp, if_true]

theorem Isolated.below (h : Isolated s) {file : Path} {c : Content} (hi : s.entries[i]? = some (some e))
    (hfile : e.base.file = some file) (hne : file ≠ []) (hc : s.disk.content file = some c) :
    file.dropLast ≠ [] := by
  intro hdir
  obtain ⟨dir, name, rfl⟩ := (List.eq_nil_or_concat' file).resolve_left hne
  rw [List.dropLast_concat] at hdir
  subst hdir
  have hmem : [] ++ [name] ∈ s.disk.nodes := (mem_iff _ _).mpr ⟨_, (content_eq_some _ _ _).mp hc⟩
  have hroot : s.disk.isDirectory [] = true := (isDirectory_iff _ _).mpr (s.disk.closed [] name hmem)
  have hkept := (isDirectory_iff _ _).mp ((h i e hi).root hroot)
  rw [deleteEntry_below hfile List.nil_prefix] at hkept
  cases hkept

theorem Isolated.separate (h : Isolated s) {j : Nat} {e' : BmcEntry} {file file' : Path} {c : Content} (hij : i ≠ j)
    (hi : s.entries[i]? = some (some e)) (hfile : e.base.file = some file) (hj : s.entries[j]? = some (some e'))
    (hfile' : e'.base.file = some file') (hc : s.disk.content file' = some c) : file.dropLast ≠ file'.dropLast := by
  intro hdir
  have hkept := (h i e hi).others j e' file' c (Ne.symm hij) hj hfile' hc
  rw [content_eq_some, deleteEntry_below hfile (hdir ▸ List.dropLast_prefix file')] at hkept
  cases hkept

end Deletion

theorem mem_otherDirectories {s : BmcDaemon} {i : Nat} {p : Path} :
    p ∈ otherDirectories s i ↔ ∃ (j : Nat) (e : BmcEntry) (file : Path), j ≠ i ∧
      s.entries[j]? = some (some e) ∧ e.base.file = some file ∧ file.dropLast = p := by
  simp only [otherDirectories, List.mem_filterMap]
  constructor
  · rintro ⟨⟨j, slot⟩, hmem, hx⟩
    have hget := ExtTreeMap.mem_toList_iff_getElem?_eq_some.mp hmem
    cases slot with
    | none => cases hx
    | some e =>
        by_cases hne : j = i
        · simp [hne] at hx
        · simp only [hne, if_false] at hx
          obtain ⟨file, hfile, hp⟩ := Option.map_eq_some_iff.mp hx
          exact ⟨j, e, file, hne, hget, hfile, hp⟩
  · rintro ⟨j, e, file, hne, hj, hfile, rfl⟩
    exact ⟨(j, some e), ExtTreeMap.mem_toList_iff_getElem?_eq_some.mpr hj, by simp [hne, hfile]⟩

section Steps

variable (cfg : Config) {s t : BmcDaemon}

structure Tracked (s : BmcDaemon) : Prop where
  keyed : Keyed s
  watching : Watching s
  shallow : Shallow s

theorem apart_of_entries (h : t.entries = s.entries) (hs : Apart s) : Apart t := by
  obtain ⟨hb, hsep⟩ := hs
  rw [← h] at hb hsep
  exact ⟨hb, hsep⟩

theorem apart_insert {n : Nat} {e : BmcEntry} {path : Path} (ht : t.entries = s.entries.insert n (some e))
    (hfile : e.base.file = some path) (hs : Apart s) (hroot : path.dropLast ≠ [])
    (hnot : path.dropLast ∉ otherDirectories s n) : Apart t := by
  have hn : t.entries[n]? = some (some e) := by rw [ht, insert_get, if_pos rfl]
  have hold : ∀ k : Nat, k ≠ n → t.entries[k]? = s.entries[k]? := fun k hk => by
    rw [ht, insert_get, if_neg (Ne.symm hk)]
  have hfree : ∀ (j : Nat) (e' : BmcEntry) (file' : Path), j ≠ n → s.entries[j]? = some (some e') →
      e'.base.file = some file' → file'.dropLast ≠ path.dropLast :=
    fun j e' file' hj hej hfile' hdir => hnot (mem_otherDirectories.mpr ⟨j, e', file', hj, hej, hfile', hdir⟩)
  refine ⟨fun i e₁ file₁ hi hfile₁ => ?_, fun i j e₁ e₂ file₁ file₂ hij hi hfile₁ hj hfile₂ => ?_⟩
  · by_cases hin : i = n
    · subst hin
      rw [hn] at hi
      cases hi
      rw [hfile] at hfile₁
      cases hfile₁
      exact hroot
    · exact hs.below i e₁ file₁ ((hold i hin).symm.trans hi) hfile₁
  · by_cases hin : i = n
    · subst hin
      rw [hn] at hi
      cases hi
      rw [hfile] at hfile₁
      cases hfile₁
      exact Ne.symm (hfree j e₂ file₂ (Ne.symm hij) ((hold j (Ne.symm hij)).symm.trans hj) hfile₂)
    · by_cases hjn : j = n
      · subst hjn
        rw [hn] at hj
        cases hj
        rw [hfile] at hfile₂
        cases hfile₂
        exact hfree i e₁ file₁ hij ((hold i hij).symm.trans hi) hfile₁
      · exact hs.separate i j e₁ e₂ file₁ file₂ hij ((hold i hin).symm.trans hi) hfile₁
          ((hold j hjn).symm.trans hj) hfile₂

theorem handle_stores {io : FileEvent} (h : step (bmcOps cfg) s (.handle io) = some t) :
    t.entries = s.entries ∧ (∀ x ∈ s.todo.head?, x.2 = IN_CLOSE_WRITE → storing cfg s io x.1 = none) ∨
    ∃ path rest n e c, s.todo = (path, IN_CLOSE_WRITE) :: rest ∧ storing cfg s io path = some n ∧
      t.entries = s.entries.insert n (some e) ∧ e.base.file = some path ∧ t.disk.content path = some c := by
  obtain ⟨path, mask, rest, htodo, hcases⟩ := step_handle h
  rcases hcases with ⟨rfl, -, u, hc⟩ | ⟨rfl, hdir, rfl⟩ | ⟨rfl, -, -, rfl⟩ | ⟨hmask, -, rfl⟩
  · have hstoring : storing cfg (unwatched s rest path.dropLast) io path = storing cfg s io path := rfl
    rcases createEntry_storing hc with ⟨hnone, hentries⟩ | ⟨n, e, c, hsome, hentries, hfile, hcontent⟩
    · refine .inl ⟨hentries, fun x hx _ => ?_⟩
      rw [htodo] at hx
      cases hx
      exact hstoring ▸ hnone
    · exact .inr ⟨path, rest, n, e, c, htodo, hstoring ▸ hsome, hentries, hfile, hcontent⟩
  · refine .inl ⟨rfl, fun x hx _ => ?_⟩
    rw [htodo] at hx
    cases hx
    have hnone : s.disk.content path = none := by
      cases hc : s.disk.content path with
      | none => rfl
      | some c =>
          rw [not_isDirectory_of_content hc] at hdir
          cases hdir
    simp [storing, hnone]
  all_goals
    refine .inl ⟨rfl, fun x hx hx' => ?_⟩
    rw [htodo] at hx
    cases hx
  · exact absurd (show IN_CREATE = IN_CLOSE_WRITE from hx') (by decide)
  · exact absurd hx' hmask

theorem handle_apart {io : FileEvent} (hs : Apart s) (h : step (bmcOps cfg) s (.handle io) = some t)
    (hC : StoresApart cfg s (.handle io)) : Apart t := by
  rcases handle_stores cfg h with ⟨hentries, -⟩ | ⟨path, rest, n, e, c, htodo, hstoring, hentries, hfile, -⟩
  · exact apart_of_entries hentries hs
  · obtain ⟨hroot, hnot⟩ := hC (path, IN_CLOSE_WRITE) (by simp [htodo]) rfl n hstoring
    exact apart_insert hentries hfile hs hroot hnot

theorem step_shallow {ev : Event Request FileEvent} (hw : Watching s) (hs : Shallow s)
    (h : step (bmcOps cfg) s ev = some t) : Shallow t := by
  intro k e file he hfile
  have hslot := step_slot (Bmc.Steps.sound cfg) h he
  generalize hv : some e = v at hslot
  cases hslot with
  | kept _ _ hkept => exact hs k e file (hv ▸ hkept) hfile
  | created r pid kind e' _ _ _ _ _ _ hnone =>
      cases hv
      have hnone' : e.base.file = none := hnone
      rw [hnone'] at hfile
      cases hfile
  | filed io path rest e' htodo _ _ hpath =>
      cases hv
      have hpath' : e.base.file = some path := hpath
      rw [hpath'] at hfile
      cases hfile
      rcases hw.todo (file, IN_CLOSE_WRITE) (htodo ▸ List.mem_cons_self) with hlen | ⟨hlen, -⟩
      · exact .inl hlen
      · exact .inr hlen
  | failed pid hfail =>
      have hev : ∀ io, Event.childNotification pid ≠ (.handle io : Event Request FileEvent) := fun _ h => by cases h
      obtain ⟨e', he', hfile'⟩ := step_file (Bmc.Steps.sound cfg) hev h he hfile
      exact hs k e' file he' hfile'

theorem step_tracked (s : BmcDaemon) (ev : Event Request FileEvent) (t : BmcDaemon) (hs : Tracked s)
    (h : step (bmcOps cfg) s ev = some t) : Tracked t :=
  ⟨step_keyed (Bmc.Steps.sound cfg) s ev t hs.keyed h, step_watching (Bmc.Steps.sound cfg) s ev t hs.watching h,
    step_shallow cfg hs.watching hs.shallow h⟩

/-- The step lemma: only the handling of a close event can bring two dump files, or a dump
file and the dump directory, together. -/
theorem step_apart {ev : Event Request FileEvent} (hs : Apart s) (h : step (bmcOps cfg) s ev = some t)
    (hC : StoresApart cfg s ev) : Apart t := by
  by_cases hev : ∃ io, ev = .handle io
  · obtain ⟨io, rfl⟩ := hev
    exact handle_apart cfg hs h hC
  · have hev' : ∀ io, ev ≠ .handle io := fun io h => hev ⟨io, h⟩
    have hback : ∀ (k : Nat) (e : BmcEntry) (file : Path), t.entries[k]? = some (some e) → e.base.file = some file →
        ∃ e', s.entries[k]? = some (some e') ∧ e'.base.file = some file :=
      fun _ _ _ he hfile => step_file (Bmc.Steps.sound cfg) hev' h he hfile
    refine ⟨fun i e file hi hfile => ?_, fun i j e e' file file' hij hi hfile hj hfile' => ?_⟩
    · obtain ⟨e₀, hi₀, hfile₀⟩ := hback i e file hi hfile
      exact hs.below i e₀ file hi₀ hfile₀
    · obtain ⟨e₀, hi₀, hfile₀⟩ := hback i e file hi hfile
      obtain ⟨e₁, hj₁, hfile₁⟩ := hback j e' file' hj hfile'
      exact hs.separate i j e₀ e₁ file file' hij hi₀ hfile₀ hj₁ hfile₁

theorem storesApart_of_isolated {ev : Event Request FileEvent} (hw : Watching s)
    (h : step (bmcOps cfg) s ev = some t) (ht : Isolated t) : StoresApart cfg s ev := by
  cases ev with
  | handle io =>
      intro x hx hclose n hn
      rcases handle_stores cfg h with ⟨-, hnone⟩ | ⟨path, rest, m, e, c, htodo, hstoring, hentries, hfile, hcontent⟩
      · rw [hnone x hx hclose] at hn
        cases hn
      · rw [htodo] at hx
        cases hx
        obtain rfl : m = n := Option.some.inj (hstoring.symm.trans hn)
        have hstored : t.entries[m]? = some (some e) := by rw [hentries, insert_get, if_pos rfl]
        have hne : path ≠ [] := by
          rintro rfl
          rcases hw.todo ([], IN_CLOSE_WRITE) (htodo ▸ List.mem_cons_self) with hlen | ⟨hlen, -⟩ <;> cases hlen
        refine ⟨ht.below hstored hfile hne hcontent, fun hmem => ?_⟩
        obtain ⟨j, e', file', hj, hej, hfile', hdir⟩ := mem_otherDirectories.mp hmem
        have hej' : t.entries[j]? = some (some e') := by rw [hentries, insert_get, if_neg (Ne.symm hj), hej]
        exact ht.separate hj hej' hfile' hstored hfile hcontent hdir
  | _ => trivial

end Steps

section Runs

variable (cfg : Config) {s u : BmcDaemon}

theorem apart_of_restoring (h : Restoring cfg s) : Apart s := by
  refine ⟨fun i e file hi hfile => ?_, fun i j e e' file file' hij hi hfile hj hfile' hdir => ?_⟩
  · obtain ⟨dir, name, -, -, -, hf⟩ := h.entries i e hi
    rw [hf] at hfile
    cases hfile
    simp
  · obtain ⟨dir, name, hd, -, -, hf⟩ := h.entries i e hi
    obtain ⟨dir', name', hd', -, -, hf'⟩ := h.entries j e' hj
    rw [hf] at hfile
    rw [hf'] at hfile'
    cases hfile
    cases hfile'
    have heq : dir = dir' := by simpa using hdir
    rw [heq, hd'] at hd
    exact hij (Option.some.inj hd).symm

theorem tracked_of_restoring (h : Restoring cfg s) : Tracked s := by
  refine ⟨h.idle.keyed, watching_of_idle h.idle, fun i e file hi hfile => ?_⟩
  obtain ⟨dir, name, -, -, -, hf⟩ := h.entries i e hi
  rw [hf] at hfile
  cases hfile
  exact .inr rfl

/-- In every run of the manager the deletions stay isolated exactly as long as dump files
are stored from directories of their own. -/
theorem isolated_iff_storesApart {es : List (Event Request FileEvent)} (hs : Started cfg s)
    (hrun : run (step (bmcOps cfg)) s es = some u) :
    Always (step (bmcOps cfg)) Isolated s es ↔ EachStep (step (bmcOps cfg)) (StoresApart cfg) s es := by
  have hrestoring := restoring_of_started cfg hs
  exact always_iff_eachStep_of_invariant (step_tracked cfg)
    (fun s hs h => isolated_of_apart hs.keyed hs.shallow h) (fun s ev t _ hs h hC => step_apart cfg hs h hC)
    (fun s ev t hs _ h ht => storesApart_of_isolated cfg hs.watching h ht) hrun (tracked_of_restoring cfg hrestoring)
    (apart_of_restoring cfg hrestoring)

end Runs

section Files

def rootFile : List (Event Request FileEvent) :=
  [.files (.openFile [] "obmcdump_1_1.tar"), .watchReady [], .handle plainEvent,
    .files (.closeFile [] "obmcdump_1_1.tar"), .watchReady [], .handle plainEvent]

theorem rootFile_removes_root : ∃ s t e, Started defaultConfig s ∧
    run (step (bmcOps defaultConfig)) s rootFile = some t ∧ t.entries[1]? = some (some e) ∧
    t.disk.isDirectory [] = true ∧ (t.deleteEntry e).disk.isDirectory [] = false := by
  have h : ((run (step (bmcOps defaultConfig)) (bare ⟨false⟩ .root) rootFile).bind fun t =>
      t.entries[1]?.join.map fun e => (t.disk.isDirectory [], (t.deleteEntry e).disk.isDirectory [])) =
      some (true, false) := by decide +kernel
  obtain ⟨t, hrun, hmap⟩ := Option.bind_eq_some_iff.mp h
  obtain ⟨e, he, hpair⟩ := Option.map_eq_some_iff.mp hmap
  obtain ⟨hbefore, hafter⟩ := Prod.mk.inj hpair
  exact ⟨_, t, e, started_root defaultConfig, hrun, Option.join_eq_some_iff.mp he, hbefore, hafter⟩

def ownFile : List (Event Request FileEvent) :=
  [.createDump (plainRequest 7), .files (.mkdir [] "1"), .watchReady [], .handle plainEvent,
    .files (.openFile ["1"] "obmcdump_1_1.tar"), .files (.closeFile ["1"] "obmcdump_1_1.tar"), .watchReady ["1"],
    .handle plainEvent, .exits 7 0, .childNotification 7, .createDump (plainRequest 8), .files (.mkdir [] "2"),
    .watchReady [], .handle plainEvent, .files (.openFile ["2"] "obmcdump_2_2.tar"),
    .files (.closeFile ["2"] "obmcdump_2_2.tar"), .watchReady ["2"], .handle plainEvent]

theorem ownFile_isolated : Always (step (bmcOps defaultConfig)) Isolated (bare ⟨false⟩ .root) ownFile := by
  obtain ⟨t, ht⟩ := Option.isSome_iff_exists.mp
    (show (run (step (bmcOps defaultConfig)) (bare ⟨false⟩ .root) ownFile).isSome by decide +kernel)
  exact (isolated_iff_storesApart defaultConfig (started_root defaultConfig) ht).mpr (by decide +kernel)

end Files

end DumpCollector.Bmc.Isolation
