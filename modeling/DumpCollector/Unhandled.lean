import DumpCollector.WatchPaths

namespace DumpCollector.Unhandled

open Std Lib.Directory Lib.Effects Lib.Maps Lib.Runs Entries Inotify Requests State Dispatch
open Frames Steps Slots WatchPaths

variable {E X C R I : Type}

def watches (s : Daemon E X C) : List Watch := s.dumpWatch :: s.childWatchMap.toList.map Prod.snd

/-- The close of a file of some kind has been reported and not yet handled. -/
def Pending (P : Path → Prop) (s : Daemon E X C) : Prop :=
  (∃ x ∈ s.todo, x.2 = IN_CLOSE_WRITE ∧ P x.1) ∨
    ∃ w ∈ watches s, ∃ e ∈ w.queue, e.mask &&& IN_CLOSE_WRITE ≠ 0 ∧ P (w.path ++ [e.name])

instance decidablePending (P : Path → Prop) [DecidablePred P] (s : Daemon E X C) : Decidable (Pending P s) :=
  inferInstanceAs (Decidable (_ ∨ _))

/-- Nothing is left for the event loop: no path of a callback, no event of a watch and no
news of a child. -/
structure Quiet (s : Daemon E X C) : Prop where
  todo : s.todo = []
  queues : ∀ w ∈ watches s, w.queue = []
  children : ∀ (pid : Nat) (p : Process C), pid ∈ s.childPtrMap → s.procs[pid]? = some p → siStatus p.state = none

def readWatch (s : Daemon E X C) (p : Path) (w : Watch) : Daemon E X C :=
  { setWatch s p w.callback.1 with todo := w.callback.2.toList }

/-- The path that a callback comes to is taken off, with the watch that is removed for it. -/
def takeItem (s : Daemon E X C) (path : Path) (mask : Nat) : Daemon E X C :=
  if mask = IN_CLOSE_WRITE then
    unwatched s s.todo.tail (if s.disk.isDirectory path = true then path else path.dropLast)
  else { s with todo := s.todo.tail }

section Membership

variable {P Q : Path → Prop} {s t : Daemon E X C}

theorem mem_watches {w : Watch} : w ∈ watches s ↔ w = s.dumpWatch ∨ ∃ p : Path, s.childWatchMap[p]? = some w := by
  simp only [watches, List.mem_cons, List.mem_map]
  refine or_congr_right ⟨?_, ?_⟩
  · rintro ⟨⟨p, w⟩, hmem, rfl⟩
    exact ⟨p, ExtTreeMap.mem_toList_iff_getElem?_eq_some.mp hmem⟩
  · rintro ⟨p, hp⟩
    exact ⟨(p, w), ExtTreeMap.mem_toList_iff_getElem?_eq_some.mpr hp, rfl⟩

theorem Pending.mono (hPQ : ∀ p, P p → Q p) (hs : Pending P s) : Pending Q s := by
  rcases hs with ⟨x, hx, hclose, hP⟩ | ⟨w, hw, e, he, hclose, hP⟩
  · exact .inl ⟨x, hx, hclose, hPQ _ hP⟩
  · exact .inr ⟨w, hw, e, he, hclose, hPQ _ hP⟩

theorem Pending.grows (h : WatchesGrow s t) (htodo : t.todo = s.todo) (hs : Pending P s) : Pending P t := by
  rcases hs with ⟨x, hx, hP⟩ | ⟨w, hw, e, he, hclose, hP⟩
  · exact .inl ⟨x, htodo ▸ hx, hP⟩
  · rcases mem_watches.mp hw with rfl | ⟨p, hp⟩
    · exact .inr ⟨_, mem_watches.mpr (.inl rfl), e, h.root.queue.subset he, hclose, h.root.path ▸ hP⟩
    · obtain ⟨w', hw', hg⟩ := h.kept p w hp
      exact .inr ⟨w', mem_watches.mpr (.inr ⟨p, hw'⟩), e, hg.queue.subset he, hclose, hg.path ▸ hP⟩

theorem quiet_of_toList (htodo : s.todo = []) (hqueues : (watches s).map Watch.queue = [[]])
    (hprocs : s.procs.toList = []) : Quiet s := by
  refine ⟨htodo, fun w hw => ?_, fun pid p _ hp => ?_⟩
  · have hmem := List.mem_map_of_mem (f := Watch.queue) hw
    rw [hqueues] at hmem
    exact List.mem_singleton.mp hmem
  · rw [get_of_toList hprocs] at hp
    cases hp

theorem Quiet.not_pending (hs : Quiet s) : ¬ Pending P s := by
  rintro (⟨x, hx, -⟩ | ⟨w, hw, e, he, -⟩)
  · rw [hs.todo] at hx
    cases hx
  · rw [hs.queues w hw] at he
    cases he

end Membership

section Steps

variable {P : Path → Prop} {s t : Daemon E X C}

theorem readWatch_same (s : Daemon E X C) (p : Path) (w : Watch) : (readWatch s p w).entries = s.entries ∧
    (readWatch s p w).own = s.own ∧ (readWatch s p w).procs = s.procs := by
  rw [readWatch, setWatch]
  split <;> exact ⟨rfl, rfl, rfl⟩

/-- A read of the watch on a directory in the dump directory loses no close: it asks for
nothing else, and what does not fit stays in the queue. -/
theorem pending_readWatch {p : Path} {w : Watch} (hwatching : Watching s) (hp : p ≠ []) (hw : watchAt s p = some w)
    (htodo : s.todo = []) (hs : Pending P s) : Pending P (readWatch s p w) := by
  rw [watchAt, if_neg hp] at hw
  obtain ⟨hpath, -, hmask⟩ := hwatching.child p w hw
  have hchild : (readWatch s p w).childWatchMap = s.childWatchMap.insert p w.callback.1 := by
    rw [readWatch, setWatch, if_neg hp]
  have hread : (readWatch s p w).childWatchMap[p]? = some w.callback.1 := by
    rw [hchild, insert_get, if_pos rfl]
  rcases hs with ⟨x, hx, -⟩ | ⟨w', hw', e, he, hclose, hP⟩
  · rw [htodo] at hx
    cases hx
  · rcases mem_watches.mp hw' with rfl | ⟨q, hq⟩
    · refine .inr ⟨s.dumpWatch, mem_watches.mpr (.inl ?_), e, he, hclose, hP⟩
      rw [readWatch, setWatch, if_neg hp]
    · by_cases hqp : p = q
      · subst hqp
        rw [hw] at hq
        cases hq
        rw [← fitting_append (maxBytes - 1) w.queue] at he
        rcases List.mem_append.mp he with hfits | hleft
        · exact .inl ⟨_, mem_callback_of_close w hmask hfits hclose, rfl, hP⟩
        · exact .inr ⟨_, mem_watches.mpr (.inr ⟨p, hread⟩), e, hleft, hclose, hP⟩
      · refine .inr ⟨w', mem_watches.mpr (.inr ⟨q, ?_⟩), e, he, hclose, hP⟩
        rw [hchild, insert_get, if_neg hqp, hq]

variable [DumpEntry E] {ops : Ops E X C R I} {named : Path → Option Nat}

theorem pending_of_taken (hops : Sound ops named) {io : I} (h : step ops s (.handle io) = some t) {x : Path × Nat}
    (hx : x ∈ s.todo.head?) (hs : Pending P (takeItem s x.1 x.2)) : Pending P t := by
  obtain ⟨path, mask, rest, htodo, hcases⟩ := step_handle h
  rw [htodo, List.head?_cons] at hx
  obtain rfl : (path, mask) = x := Option.some.inj hx
  have htail : s.todo.tail = rest := by rw [htodo, List.tail_cons]
  rcases hcases with ⟨rfl, hdir, u, hc⟩ | ⟨rfl, hdir, rfl⟩ | ⟨rfl, hdir, -, rfl⟩ | ⟨hmask, -, rfl⟩
  · simp only [takeItem, if_true, hdir, Bool.false_eq_true, if_false, htail] at hs
    have hfiled := hops.createEntry _ _ _ _ _ hc
    exact hs.grows hfiled.watches hfiled.todo
  · simpa only [takeItem, if_true, hdir, htail] using hs
  · have hne : IN_CREATE ≠ IN_CLOSE_WRITE := by decide
    simp only [takeItem, hne, if_false, htail] at hs
    rcases hs with hitem | ⟨w, hw, hevent⟩
    · exact .inl hitem
    · refine .inr ⟨w, ?_, hevent⟩
      rcases mem_watches.mp hw with rfl | ⟨p, hp⟩
      · exact mem_watches.mpr (.inl rfl)
      · have hp' : s.childWatchMap[p]? = some w := hp
        refine mem_watches.mpr (.inr ⟨p, ?_⟩)
        change (s.childWatchMap.insertIfNew path (.new path IN_CLOSE_WRITE))[p]? = some w
        rw [insertIfNew_get, hp']
        split <;> rfl
  · simpa only [takeItem, hmask, if_false, htail] using hs

end Steps

end DumpCollector.Unhandled
