import DumpCollector.Slots

namespace DumpCollector.WatchPaths

open Std Lib.Directory Lib.Effects Lib.Maps Lib.Runs Entries Inotify Requests State Dispatch Frames Steps Slots

variable {E X C R I : Type}

/-- The watches are that on the dump directory and those on directories in it, and a watch
callback goes through paths that they have reported. -/
structure Watching (s : Daemon E X C) : Prop where
  rootPath : s.dumpWatch.path = []
  rootMask : s.dumpWatch.mask = IN_CLOSE_WRITE ||| IN_CREATE
  child : ∀ (p : Path) (w : Watch), s.childWatchMap[p]? = some w → w.path = p ∧ p.length = 1 ∧ w.mask = IN_CLOSE_WRITE
  todo : ∀ x ∈ s.todo, x.1.length = 1 ∨ x.1.length = 2 ∧ x.2 ≠ IN_CREATE

theorem and_closeWrite_ne_create (m : Nat) : m &&& IN_CLOSE_WRITE ≠ IN_CREATE := by
  have h : m &&& IN_CLOSE_WRITE ≤ IN_CLOSE_WRITE := Nat.and_le_right
  unfold IN_CLOSE_WRITE IN_CREATE at *
  omega

theorem mem_callback {w : Watch} {x : Path × Nat} (h : x ∈ w.callback.2.toList) :
    ∃ name m, x = (w.path ++ [name], m &&& w.mask) := by
  have hget := ExtTreeMap.mem_toList_iff_getElem?_eq_some.mp h
  obtain ⟨e, -, hp, hm, -⟩ := of_mem_userMap w hget
  exact ⟨e.name, e.mask, Prod.ext hp hm⟩

section Invariant

variable {s t : Daemon E X C}

theorem watching_grows (h : WatchesGrow s t) (htodo : t.todo = s.todo) (hs : Watching s) : Watching t where
  rootPath := h.root.path.trans hs.rootPath
  rootMask := h.root.mask.trans hs.rootMask
  child p w' hw' := by
    obtain ⟨w, hw, hg⟩ := h.back hw'
    obtain ⟨hpath, hlen, hmask⟩ := hs.child p w hw
    exact ⟨hg.path.trans hpath, hlen, hg.mask.trans hmask⟩
  todo x hx := hs.todo x (htodo ▸ hx)

theorem watching_unwatched {rest : List (Path × Nat)} (hs : Watching s) (hrest : ∀ x ∈ rest, x ∈ s.todo)
    (p : Path) : Watching (unwatched s rest p) where
  rootPath := hs.rootPath
  rootMask := hs.rootMask
  child q w hw := by
    change (s.childWatchMap.erase p)[q]? = some w at hw
    rw [erase_get] at hw
    split at hw
    · cases hw
    · exact hs.child q w hw
  todo x hx := hs.todo x (hrest x hx)

theorem watching_watched {rest : List (Path × Nat)} (hs : Watching s) (hrest : ∀ x ∈ rest, x ∈ s.todo)
    {p : Path} (hp : p.length = 1) : Watching (watched s rest p) where
  rootPath := hs.rootPath
  rootMask := hs.rootMask
  child q w hw := by
    change (s.childWatchMap.insertIfNew p (.new p IN_CLOSE_WRITE))[q]? = some w at hw
    rcases insertIfNew_cases hw with hw | ⟨rfl, -, rfl⟩
    · exact hs.child q w hw
    · exact ⟨rfl, hp, rfl⟩
  todo x hx := hs.todo x (hrest x hx)

theorem watching_ready {p : Path} {w : Watch} (hs : Watching s) (hw : watchAt s p = some w) :
    Watching { setWatch s p w.callback.1 with todo := w.callback.2.toList } := by
  rw [watchAt] at hw
  rw [setWatch]
  split at hw
  · rename_i hp
    cases hw
    rw [if_pos hp]
    refine ⟨hs.rootPath, hs.rootMask, hs.child, fun x hx => .inl ?_⟩
    obtain ⟨name, m, rfl⟩ := mem_callback hx
    simp [hs.rootPath]
  · rename_i hp
    obtain ⟨hpath, hlen, hmask⟩ := hs.child p w hw
    rw [if_neg hp]
    refine ⟨hs.rootPath, hs.rootMask, fun q w' hw' => ?_, fun x hx => .inr ?_⟩
    · change (s.childWatchMap.insert p w.callback.1)[q]? = some w' at hw'
      rw [insert_get] at hw'
      split at hw'
      · rename_i hpq
        cases hw'
        exact ⟨hpath.trans hpq, hpq ▸ hlen, hmask⟩
      · exact hs.child q w' hw'
    · obtain ⟨name, m, rfl⟩ := mem_callback hx
      refine ⟨by simp [hpath, hlen], ?_⟩
      rw [hmask]
      exact and_closeWrite_ne_create m

end Invariant

variable [DumpEntry E]

theorem outcome_watches {f : Fork} {s : Daemon E X C} {r : EStateM.Result Exn (Daemon E X C) (Option Nat)}
    (h : Outcome f s r) : WatchesGrow s (final r) ∧ (final r).todo = s.todo := by
  cases h with
  | refused e t ht => exact ⟨ht.watches, ht.todo⟩
  | unregistered e pid kind u own hu => exact ⟨hu.watches.trans (watchesGrow_of_eq rfl rfl), hu.todo⟩
  | unfinished _ pid kind u hu _ _ _ hfin =>
      rw [hfin]
      exact ⟨hu.watches.trans (watchesGrow_of_eq rfl rfl), hu.todo⟩
  | inserted pid kind u e own hu => exact ⟨hu.watches.trans (watchesGrow_of_eq rfl rfl), hu.todo⟩

theorem step_watches {ops : Ops E X C R I} {named : Path → Option Nat} (hops : Sound ops named)
    {s t : Daemon E X C} {ev : Event R I} (h : step ops s ev = some t)
    (hready : ∀ p, ev ≠ .watchReady p) (hhandle : ∀ io, ev ≠ .handle io) : WatchesGrow s t ∧ t.todo = s.todo := by
  cases step_cases h with
  | request r _ hfinal =>
      have hout := outcome_watches (hops.createDump r s)
      rwa [hfinal] at hout
  | trimmed _ _ htrim => exact ⟨htrim.watches, htrim.todo⟩
  | changed _ _ pid p state _ _ ht =>
      subst ht
      exact ⟨watchesGrow_of_eq rfl rfl, rfl⟩
  | read p => exact absurd rfl (hready p)
  | handled io => exact absurd rfl (hhandle io)
  | notified pid =>
      obtain ⟨-, c, p, status, -, -, -, rfl⟩ := step_childNotification h
      cases p.state <;> exact ⟨watchesGrow_of_eq rfl rfl, rfl⟩

theorem step_watching {ops : Ops E X C R I} {named : Path → Option Nat} (hops : Sound ops named)
    (s : Daemon E X C) (ev : Event R I) (t : Daemon E X C) (hs : Watching s) (h : step ops s ev = some t) :
    Watching t := by
  cases ev with
  | watchReady p =>
      obtain ⟨-, w, hw, rfl⟩ := step_watchReady h
      exact watching_ready hs hw
  | handle io =>
      obtain ⟨path, mask, rest, htodo, hcases⟩ := step_handle h
      have hrest : ∀ x ∈ rest, x ∈ s.todo := fun x hx => htodo ▸ List.mem_cons_of_mem _ hx
      rcases hcases with ⟨-, -, u, hc⟩ | ⟨-, -, rfl⟩ | ⟨rfl, -, -, rfl⟩ | ⟨-, -, rfl⟩
      · have hfiled := hops.createEntry _ _ _ _ _ hc
        exact watching_grows hfiled.watches hfiled.todo (watching_unwatched hs hrest _)
      · exact watching_unwatched hs hrest _
      · apply watching_watched hs hrest
        rcases hs.todo (path, IN_CREATE) (htodo ▸ List.mem_cons_self) with hlen | ⟨-, hne⟩
        · exact hlen
        · exact absurd rfl hne
      · exact ⟨hs.rootPath, hs.rootMask, hs.child, fun x hx => hs.todo x (hrest x hx)⟩
  | createDump _ | delete _ | deleteAll | files _ | exits _ _ | stops _ _ | continues _ | childNotification _ =>
      obtain ⟨hgrow, htodo⟩ := step_watches hops h (fun _ h => by cases h) (fun _ h => by cases h)
      exact watching_grows hgrow htodo hs

theorem watching_of_idle {s : Daemon E X C} (hs : Idle s) : Watching s where
  rootPath := hs.root.path
  rootMask := hs.root.mask
  child p w hw := by
    rw [hs.childWatchMap] at hw
    cases hw
  todo x hx := by
    rw [hs.todo] at hx
    cases hx

end DumpCollector.WatchPaths
