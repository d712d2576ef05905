import DumpCollector.Lib.Directory
import Mathlib.Data.Nat.Bitwise

namespace DumpCollector.Inotify

open Std Lib.Directory Lib.Maps

def IN_CLOSE_WRITE : Nat := 0x8

def IN_CREATE : Nat := 0x100

def IN_IGNORED : Nat := 0x8000

def IN_ISDIR : Nat := 0x40000000

structure InotifyEvent where
  mask : Nat
  name : String
  deriving DecidableEq

/-- The bytes that the kernel writes for an event: a header of 16 bytes and the name
with its terminator, filled up to a multiple of the header. -/
def InotifyEvent.bytes (event : InotifyEvent) : Nat :=
  if event.name = "" then 16 else 16 + (event.name.utf8ByteSize + 1 + 15) / 16 * 16

/-- A watch object with what the kernel holds for its file descriptor: whether the
directory is still watched, and the events that have not been read. -/
structure Watch where
  path : Path
  mask : Nat
  live : Bool
  queue : List InotifyEvent

abbrev UserMap := ExtTreeMap Path Nat

def Watch.new (path : Path) (mask : Nat) : Watch := ⟨path, mask, true, []⟩

/-- An event that repeats the last unread one is dropped by the kernel. -/
def Watch.push (w : Watch) (event : InotifyEvent) : Watch :=
  if w.queue.getLast? = some event then w else { w with queue := w.queue ++ [event] }

def Watch.notify (w : Watch) (dir : Path) (event : InotifyEvent) : Watch :=
  if w.live ∧ w.path = dir ∧ event.mask &&& w.mask ≠ 0 then w.push event else w

/-- The removal of a directory ends the watches on it and below it. -/
def Watch.ignored (w : Watch) (removed : Path) : Watch :=
  if w.live ∧ removed <+: w.path then { w.push ⟨IN_IGNORED, ""⟩ with live := false } else w

def fitting : Nat → List InotifyEvent → List InotifyEvent × List InotifyEvent
  | _, [] => ([], [])
  | room, event :: rest =>
      if event.bytes ≤ room then
        ((event :: (fitting (room - event.bytes) rest).1), (fitting (room - event.bytes) rest).2)
      else ([], event :: rest)

def maxBytes : Nat := 16 + 255 + 1

/-- The map handed to the user callback: one event for each path, the first. -/
def userMap (w : Watch) (events : List InotifyEvent) : UserMap :=
  events.foldl (fun map event =>
    if event.mask &&& w.mask ≠ 0 then map.insertIfNew (w.path ++ [event.name]) (event.mask &&& w.mask)
    else map) ∅

/-- A read that fails, for want of an event or of room for the first one, leaves the
queue as it is and calls nothing. -/
def Watch.callback (w : Watch) : Watch × UserMap :=
  ({ w with queue := (fitting (maxBytes - 1) w.queue).2 }, userMap w (fitting (maxBytes - 1) w.queue).1)

variable (w : Watch) (event : InotifyEvent) (dir removed : Path)

@[simp] theorem push_path : (w.push event).path = w.path := by
  rw [Watch.push]
  split <;> rfl

@[simp] theorem push_mask : (w.push event).mask = w.mask := by
  rw [Watch.push]
  split <;> rfl

theorem mem_push (e : InotifyEvent) : e ∈ (w.push event).queue ↔ e ∈ w.queue ∨ e = event := by
  rw [Watch.push]
  split
  · rename_i h
    have hmem : event ∈ w.queue := List.mem_of_getLast? h
    constructor
    · exact Or.inl
    · rintro (h | rfl)
      · exact h
      · exact hmem
  · simp

theorem prefix_push : w.queue <+: (w.push event).queue := by
  rw [Watch.push]
  split
  · exact List.prefix_rfl
  · exact List.prefix_append _ _

@[simp] theorem notify_path : (w.notify dir event).path = w.path := by
  rw [Watch.notify]
  split <;> simp

@[simp] theorem notify_mask : (w.notify dir event).mask = w.mask := by
  rw [Watch.notify]
  split <;> simp

theorem prefix_notify : w.queue <+: (w.notify dir event).queue := by
  rw [Watch.notify]
  split
  · exact prefix_push w event
  · exact List.prefix_rfl

@[simp] theorem ignored_path : (w.ignored removed).path = w.path := by
  rw [Watch.ignored]
  split <;> simp

@[simp] theorem ignored_mask : (w.ignored removed).mask = w.mask := by
  rw [Watch.ignored]
  split <;> simp

theorem prefix_ignored : w.queue <+: (w.ignored removed).queue := by
  rw [Watch.ignored]
  split
  · exact prefix_push w _
  · exact List.prefix_rfl

theorem of_mem_notify {e : InotifyEvent} (h : e ∈ (w.notify dir event).queue) :
    e ∈ w.queue ∨ (e = event ∧ w.path = dir) := by
  rw [Watch.notify] at h
  split at h
  · rename_i hpath
    exact ((mem_push w event e).mp h).imp_right fun heq => ⟨heq, hpath.2.1⟩
  · exact .inl h

theorem of_mem_ignored {e : InotifyEvent} (h : e ∈ (w.ignored removed).queue) :
    e ∈ w.queue ∨ e = ⟨IN_IGNORED, ""⟩ := by
  rw [Watch.ignored] at h
  split at h
  · exact (mem_push w _ e).mp h
  · exact .inl h

theorem fitting_append (room : Nat) (events : List InotifyEvent) :
    (fitting room events).1 ++ (fitting room events).2 = events := by
  induction events generalizing room with
  | nil => rfl
  | cons event rest ih =>
      simp only [fitting]
      split
      · simp [ih]
      · rfl

def selects (e : InotifyEvent) (p : Path) : Bool := e.mask &&& w.mask ≠ 0 ∧ w.path ++ [e.name] = p

def addEvent (map : UserMap) (e : InotifyEvent) : UserMap :=
  if e.mask &&& w.mask ≠ 0 then map.insertIfNew (w.path ++ [e.name]) (e.mask &&& w.mask) else map

theorem addEvent_get (map : UserMap) (e : InotifyEvent) (p : Path) :
    (addEvent w map e)[p]? = if selects w e p then some (map[p]?.getD (e.mask &&& w.mask)) else map[p]? := by
  rw [addEvent]
  split
  · rename_i hmask
    rw [insertIfNew_get]
    simp [selects, hmask]
  · rename_i hmask
    simp [selects, hmask]

theorem userMap_get (events : List InotifyEvent) (p : Path) :
    (userMap w events)[p]? = (events.find? fun e => selects w e p).map fun e => e.mask &&& w.mask := by
  have general : ∀ map : UserMap, (events.foldl (addEvent w) map)[p]? =
      (map[p]?).or ((events.find? fun e => selects w e p).map fun e => e.mask &&& w.mask) := by
    induction events with
    | nil =>
        intro map
        simp
    | cons e rest ih =>
        intro map
        rw [List.foldl_cons, ih, addEvent_get, List.find?_cons]
        cases selects w e p with
        | false => rfl
        | true => cases map[p]? <;> rfl
  have h := general ∅
  rw [ExtTreeMap.getElem?_empty, Option.none_or] at h
  exact h

theorem of_mem_userMap {events : List InotifyEvent} {p : Path} {m : Nat}
    (h : (userMap w events)[p]? = some m) :
    ∃ e ∈ events, p = w.path ++ [e.name] ∧ m = e.mask &&& w.mask ∧ m ≠ 0 := by
  rw [userMap_get] at h
  obtain ⟨e, he, rfl⟩ := Option.map_eq_some_iff.mp h
  have hsel := List.find?_some he
  simp only [selects, decide_eq_true_eq] at hsel
  exact ⟨e, List.mem_of_find?_eq_some he, hsel.2.symm, rfl, hsel.1⟩

def InotifyEvent.closes (e : InotifyEvent) : Prop := e.mask &&& IN_CLOSE_WRITE ≠ 0

theorem and_closeWrite (m : Nat) : m &&& IN_CLOSE_WRITE = 0 ∨ m &&& IN_CLOSE_WRITE = IN_CLOSE_WRITE := by
  have h := Nat.and_two_pow m 3
  rw [IN_CLOSE_WRITE]
  rw [show (0x8 : Nat) = 2 ^ 3 from rfl, h]
  cases m.testBit 3 <;> simp

theorem mem_callback_of_close (hmask : w.mask = IN_CLOSE_WRITE) {e : InotifyEvent}
    (he : e ∈ (fitting (maxBytes - 1) w.queue).1) (hcloses : e.closes) :
    (w.path ++ [e.name], IN_CLOSE_WRITE) ∈ w.callback.2.toList := by
  refine ExtTreeMap.mem_toList_iff_getElem?_eq_some.mpr ?_
  have hsel : selects w e (w.path ++ [e.name]) = true := by
    simpa [selects, hmask, InotifyEvent.closes] using hcloses
  rw [Watch.callback, userMap_get]
  cases hfind : (fitting (maxBytes - 1) w.queue).1.find? fun e' => selects w e' (w.path ++ [e.name]) with
  | none => exact absurd hsel (List.find?_eq_none.mp hfind e he)
  | some e' =>
      have hsel' := List.find?_some hfind
      simp only [selects, hmask, decide_eq_true_eq] at hsel'
      rw [Option.map_some, hmask]
      exact congrArg some ((and_closeWrite e'.mask).resolve_left hsel'.1)

theorem close_of_mem_callback {x : Path × Nat} (h : x ∈ w.callback.2.toList) (hclose : x.2 = IN_CLOSE_WRITE) :
    ∃ e ∈ (fitting (maxBytes - 1) w.queue).1, e.closes ∧ x.1 = w.path ++ [e.name] := by
  obtain ⟨e, he, hpath, hm, -⟩ := of_mem_userMap w (ExtTreeMap.mem_toList_iff_getElem?_eq_some.mp h)
  refine ⟨e, he, fun hzero => ?_, hpath⟩
  rw [hclose] at hm
  have hbit : IN_CLOSE_WRITE &&& IN_CLOSE_WRITE = 0 := by
    calc IN_CLOSE_WRITE &&& IN_CLOSE_WRITE = e.mask &&& w.mask &&& IN_CLOSE_WRITE := by rw [← hm]
      _ = e.mask &&& IN_CLOSE_WRITE &&& w.mask := by rw [Nat.and_assoc, Nat.and_comm w.mask, ← Nat.and_assoc]
      _ = 0 := by rw [hzero, Nat.zero_and]
  exact absurd hbit (by decide)

end DumpCollector.Inotify
