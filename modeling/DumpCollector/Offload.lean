import DumpCollector.Entries
import Mathlib.Algebra.Group.Nat.Defs
import Mathlib.Data.List.TakeDrop

namespace DumpCollector.Offload

open Lib.Directory Entries

/-- The result of a call of select, with the flag of the socket in the set and errno. -/
structure Selected where
  retVal : Int
  isSet : Bool
  errno : Nat

/-- What one round of the loop gets: the result of select and, where the socket is ready,
that of write, which is absent where it returns -1, with errno after it. -/
structure Round where
  select : Selected
  write : Option Nat
  errno : Nat

/-- What the calls before the first write give: each of the plain ones fails with an errno,
or not. -/
structure Attempt where
  errno : Nat
  socket : Option Nat
  bind : Option Nat
  listen : Option Nat
  select : Selected
  accept : Option Nat
  good : Bool
  closed : Bool
  rounds : List Round

inductive Exn
  | runtimeError (what : String) (errno : Nat)
  | lengthError (what : String) (errno : Nat)
  | ifstreamFailure
  | openError (path : Option Path)
  | writeError (path : String)
  deriving DecidableEq

def EINTR : Nat := 4

def EAGAIN : Nat := 11

def EWOULDBLOCK : Nat := 11

def SUN_PATH : Nat := 108

inductive Outcome
  | waiting
  | returned
  | thrown (e : Exn)
  deriving DecidableEq

/-- The loop variable of writeOnUnixSocket, and the bytes that the socket has accepted. -/
structure Transfer where
  i : Nat
  accepted : List UInt8

section Write

def start : Transfer := ⟨0, []⟩

variable (buf : List UInt8)

/-- A write takes no more than it is given, and its result is stored in an int. -/
def numOfBytesWrote (r : Round) (t : Transfer) : Int :=
  match r.write with
  | none => -1
  | some n => ((min n (buf.length - t.i) : Nat) : Int).bmod (2 ^ 32)

def taken (r : Round) (t : Transfer) : List UInt8 := (buf.drop t.i).take (r.write.getD 0)

def writeRound (r : Round) (t : Transfer) : Option Exn × Transfer :=
  if r.select.retVal ≤ 0 then (some (.runtimeError "select() failed " r.select.errno), t)
  else if r.select.isSet = true then
    if numOfBytesWrote buf r t < 0 then
      if r.errno = EAGAIN ∨ r.errno = EWOULDBLOCK ∨ r.errno = EINTR then
        (none, ⟨t.i, t.accepted ++ taken buf r t⟩)
      else (some (.runtimeError "write() on socket failed " r.errno), ⟨t.i, t.accepted ++ taken buf r t⟩)
    else (none, ⟨t.i + (numOfBytesWrote buf r t).toNat, t.accepted ++ taken buf r t⟩)
  else (none, t)

def writeOnUnixSocket : List Round → Transfer → Outcome × Transfer
  | [], t => (if t.i < buf.length then .waiting else .returned, t)
  | r :: rounds, t =>
      if t.i < buf.length then
        match writeRound buf r t with
        | (some e, t) => (.thrown e, t)
        | (none, t) => writeOnUnixSocket rounds t
      else (.returned, t)

end Write

section Request

def failing (what : String) : Option Nat → Except Exn Unit
  | none => .ok ()
  | some errno => .error (.runtimeError what errno)

def socketInit (a : Attempt) (sockPath : String) : Except Exn Unit :=
  if SUN_PATH ≤ sockPath.utf8ByteSize then .error (.lengthError "UNIX socket path is too long " a.errno)
  else do
    failing "socket() failed " a.socket
    failing "socket bind failed " a.bind
    failing "listen() failed " a.listen

/-- What comes before the transfer; the result says whether there is one. The file is read
as a whole. -/
def connect (a : Attempt) (file : Option Path) (writePath : String) : Except Exn Bool := do
  socketInit a writePath
  if a.select.retVal ≤ 0 then .error (.runtimeError "select() failed " a.select.errno)
  else if a.select.isSet = true then do
    failing "accept() failed " a.accept
    if a.good = false then .error (.openError file)
    else if a.closed = false then .error .ifstreamFailure
    else .ok true
  else .ok false

def rethrown (file : Option Path) (writePath : String) : Exn → Exn
  | .ifstreamFailure => .openError file
  | _ => .writeError writePath

structure Requested where
  outcome : Outcome
  accepted : List UInt8
  socketFile : Bool

/-- The path of the socket is removed on every way out. -/
def requestOffload (a : Attempt) (file : Option Path) (content : List UInt8) (writePath : String) : Requested :=
  match connect a file writePath with
  | .error e => ⟨.thrown (rethrown file writePath e), [], false⟩
  | .ok false => ⟨.returned, [], false⟩
  | .ok true =>
      match writeOnUnixSocket content a.rounds start with
      | (.waiting, t) => ⟨.waiting, t.accepted, true⟩
      | (.returned, t) => ⟨.returned, t.accepted, false⟩
      | (.thrown e, t) => ⟨.thrown (rethrown file writePath e), t.accepted, false⟩

structure OffloadEntry where
  base : Entry
  offloaded : Bool

def initiateOffload (a : Attempt) (content : List UInt8) (uri : String) (e : OffloadEntry) : Requested × OffloadEntry :=
  let r := requestOffload a e.base.file content uri
  match r.outcome with
  | .returned => (r, { e with offloaded := true })
  | _ => (r, e)

end Request

section Prefix

def Ready (s : Selected) : Prop := 0 < s.retVal → s.isSet = true

structure Sound (r : Round) : Prop where
  ready : Ready r.select
  small : ∀ n, r.write = some n → n < 2 ^ 31

/-- The socket has accepted what comes before the loop variable. -/
structure Sent (buf : List UInt8) (t : Transfer) : Prop where
  inside : t.i ≤ buf.length
  accepted : t.accepted = buf.take t.i

variable {buf : List UInt8} {r : Round} {rounds : List Round} {t : Transfer}

theorem sent_start (buf : List UInt8) : Sent buf start := ⟨Nat.zero_le _, rfl⟩

theorem Sent.all_iff (h : Sent buf t) : t.accepted = buf ↔ ¬t.i < buf.length := by
  rw [h.accepted, List.take_eq_self_iff]
  exact Nat.not_lt.symm

theorem Sent.isPrefix_accepted (h : Sent buf t) : t.accepted <+: buf := by
  rw [h.accepted]
  exact List.take_prefix t.i buf

theorem Sent.append {n : Nat} (h : Sent buf t) :
    Sent buf ⟨t.i + min n (buf.length - t.i), t.accepted ++ (buf.drop t.i).take n⟩ := by
  constructor
  · have hle := Nat.min_le_right n (buf.length - t.i)
    have hinside := h.inside
    dsimp only
    omega
  · have hcut : (buf.drop t.i).take n = (buf.drop t.i).take (min n (buf.length - t.i)) := by
      rw [← List.length_drop, ← List.take_eq_take_min]
    rw [h.accepted, hcut, ← List.take_add]

theorem numOfBytesWrote_some {n : Nat} (hr : Sound r) (h : r.write = some n) :
    numOfBytesWrote buf r t = (min n (buf.length - t.i) : Nat) := by
  have hsmall := hr.small n h
  have hmin := Nat.min_le_left n (buf.length - t.i)
  simp only [numOfBytesWrote, h]
  apply Int.bmod_eq_of_le
  · omega
  · omega

/-- What a round can do: it throws and leaves all as it was, or the socket accepts some of
the bytes that follow. -/
theorem writeRound_cases (hr : Sound r) (buf : List UInt8) (t : Transfer) :
    (∃ e, writeRound buf r t = (some e, t)) ∨
      ∃ n, writeRound buf r t = (none, ⟨t.i + min n (buf.length - t.i), t.accepted ++ (buf.drop t.i).take n⟩) := by
  have hnothing : (⟨t.i, t.accepted ++ (buf.drop t.i).take 0⟩ : Transfer) = t := by
    rw [List.take_zero, List.append_nil]
  rw [writeRound, taken]
  split
  · exact .inl ⟨_, rfl⟩
  · rename_i hselected
    rw [if_pos (hr.ready (Int.lt_of_not_ge hselected))]
    cases hwrite : r.write with
    | none =>
        have hfailed : numOfBytesWrote buf r t < 0 := by
          simp only [numOfBytesWrote, hwrite]
          decide
        rw [if_pos hfailed, Option.getD_none]
        split
        · refine .inr ⟨0, ?_⟩
          rw [Nat.zero_min, Nat.add_zero]
        · exact .inl ⟨_, by rw [hnothing]⟩
    | some n =>
        rw [numOfBytesWrote_some hr hwrite, if_neg (by omega), Option.getD_some, Int.toNat_natCast]
        exact .inr ⟨n, rfl⟩

theorem writeOnUnixSocket_sent (hrounds : ∀ r ∈ rounds, Sound r) (h : Sent buf t) :
    Sent buf (writeOnUnixSocket buf rounds t).2 := by
  induction rounds generalizing t with
  | nil => exact h
  | cons r rounds ih =>
      rw [writeOnUnixSocket]
      split
      · rcases writeRound_cases (hrounds r List.mem_cons_self) buf t with ⟨e, hround⟩ | ⟨n, hround⟩
        · rw [hround]
          exact h
        · rw [hround]
          exact ih (fun r hr => hrounds r (List.mem_cons_of_mem _ hr)) h.append
      · exact h

theorem writeOnUnixSocket_returned_iff (hrounds : ∀ r ∈ rounds, Sound r) :
    (writeOnUnixSocket buf rounds t).1 = .returned ↔ ¬(writeOnUnixSocket buf rounds t).2.i < buf.length := by
  induction rounds generalizing t with
  | nil =>
      rw [writeOnUnixSocket]
      split <;> simp_all
  | cons r rounds ih =>
      rw [writeOnUnixSocket]
      split
      · rename_i hleft
        rcases writeRound_cases (hrounds r List.mem_cons_self) buf t with ⟨e, hround⟩ | ⟨n, hround⟩
        · rw [hround]
          simp [hleft]
        · rw [hround]
          exact ih fun r hr => hrounds r (List.mem_cons_of_mem _ hr)
      · rename_i hdone
        simp [hdone]

theorem returned_iff_accepted (hrounds : ∀ r ∈ rounds, Sound r) (buf : List UInt8) :
    (writeOnUnixSocket buf rounds start).1 = .returned ↔ (writeOnUnixSocket buf rounds start).2.accepted = buf :=
  (writeOnUnixSocket_returned_iff hrounds).trans (writeOnUnixSocket_sent hrounds (sent_start buf)).all_iff.symm

end Prefix

section Request

variable {a : Attempt} {content : List UInt8} {uri : String} {e : OffloadEntry}

structure Connected (a : Attempt) (writePath : String) : Prop where
  short : writePath.utf8ByteSize < SUN_PATH
  socket : a.socket = none
  bind : a.bind = none
  listen : a.listen = none
  select : 0 < a.select.retVal
  accept : a.accept = none
  good : a.good = true
  closed : a.closed = true

theorem bind_ok_iff {α β : Type} {x : Except Exn α} {f : α → Except Exn β} {b : β} :
    x >>= f = .ok b ↔ ∃ u, x = .ok u ∧ f u = .ok b := by
  cases x with
  | error e => exact ⟨fun h => (by cases h), fun ⟨u, h, _⟩ => (by cases h)⟩
  | ok u => exact ⟨fun h => ⟨u, rfl, h⟩, fun ⟨v, h, hv⟩ => (by cases h; exact hv)⟩

theorem failing_ok_iff {what : String} {o : Option Nat} {u : Unit} : failing what o = .ok u ↔ o = none := by
  cases o <;> simp [failing]

theorem socketInit_ok_iff {u : Unit} : socketInit a uri = .ok u ↔
    uri.utf8ByteSize < SUN_PATH ∧ a.socket = none ∧ a.bind = none ∧ a.listen = none := by
  rw [socketInit]
  split
  · rename_i hlong
    simp [Nat.not_lt_of_le hlong]
  · rename_i hshort
    simp [Nat.lt_of_not_le hshort, bind_ok_iff, failing_ok_iff]

theorem connect_ok_iff (hready : Ready a.select) (file : Option Path) {transfer : Bool} :
    connect a file uri = .ok transfer ↔ transfer = true ∧ Connected a uri := by
  rw [connect, bind_ok_iff]
  constructor
  · rintro ⟨u, hinit, h⟩
    obtain ⟨hshort, hsocket, hbind, hlisten⟩ := socketInit_ok_iff.mp hinit
    split at h
    · cases h
    · rename_i hselected
      rw [if_pos (hready (Int.lt_of_not_ge hselected)), bind_ok_iff] at h
      obtain ⟨v, haccept, h⟩ := h
      by_cases hgood : a.good = true
      · by_cases hclosed : a.closed = true
        · simp only [hgood, hclosed, Bool.true_eq_false, if_false, Except.ok.injEq] at h
          exact ⟨h.symm, hshort, hsocket, hbind, hlisten, Int.lt_of_not_ge hselected, failing_ok_iff.mp haccept,
            hgood, hclosed⟩
        · simp [hgood, hclosed] at h
      · simp [hgood] at h
  · rintro ⟨rfl, h⟩
    refine ⟨(), socketInit_ok_iff.mpr ⟨h.short, h.socket, h.bind, h.listen⟩, ?_⟩
    rw [if_neg (Int.not_le.mpr h.select), if_pos (hready h.select), bind_ok_iff]
    exact ⟨(), failing_ok_iff.mpr h.accept, by simp [h.good, h.closed]⟩

theorem requestOffload_connected (hready : Ready a.select) (file : Option Path) (content : List UInt8)
    (h : Connected a uri) :
    (requestOffload a file content uri).accepted = (writeOnUnixSocket content a.rounds start).2.accepted ∧
    ((requestOffload a file content uri).outcome = .returned ↔
      (writeOnUnixSocket content a.rounds start).1 = .returned) := by
  rw [requestOffload, (connect_ok_iff hready file).mpr ⟨rfl, h⟩]
  dsimp only
  rcases writeOnUnixSocket content a.rounds start with ⟨_ | _ | x, t⟩ <;> simp

theorem requestOffload_unconnected (hready : Ready a.select) (file : Option Path) (h : ¬Connected a uri) :
    (requestOffload a file content uri).accepted = [] ∧
    (requestOffload a file content uri).outcome ≠ .returned := by
  rw [requestOffload]
  cases hconnect : connect a file uri with
  | error x => simp
  | ok transfer => exact absurd ((connect_ok_iff hready file).mp hconnect).2 h

theorem initiateOffload_request (a : Attempt) (content : List UInt8) (uri : String) (e : OffloadEntry) :
    (initiateOffload a content uri e).1 = requestOffload a e.base.file content uri := by
  rw [initiateOffload]
  split <;> rfl

theorem initiateOffload_returned
    (h : (requestOffload a e.base.file content uri).outcome = .returned) :
    (initiateOffload a content uri e).2 = { e with offloaded := true } := by
  rw [initiateOffload]
  rw [h]

theorem initiateOffload_unfinished
    (h : (requestOffload a e.base.file content uri).outcome ≠ .returned) :
    (initiateOffload a content uri e).2 = e := by
  rw [initiateOffload]
  split
  · rename_i hreturned
    exact absurd hreturned h
  · rfl

/-- At every moment the socket has accepted a prefix of the file. The transfer returns
exactly once it has accepted the whole file, and offloaded is set in just that case. -/
theorem offload_complete (content : List UInt8) (e : OffloadEntry) (hready : Ready a.select)
    (hrounds : ∀ r ∈ a.rounds, Sound r) :
    (∀ rounds, rounds <+: a.rounds → (writeOnUnixSocket content rounds start).2.accepted <+: content) ∧
    ((writeOnUnixSocket content a.rounds start).1 = .returned ↔
      (writeOnUnixSocket content a.rounds start).2.accepted = content) ∧
    (initiateOffload a content uri e).1.accepted <+: content ∧
    (Connected a uri ∧ (writeOnUnixSocket content a.rounds start).1 = .returned →
      (initiateOffload a content uri e).1.accepted = content ∧
        (initiateOffload a content uri e).2 = { e with offloaded := true }) ∧
    (¬(Connected a uri ∧ (writeOnUnixSocket content a.rounds start).1 = .returned) →
      (initiateOffload a content uri e).2 = e) := by
  have hall := returned_iff_accepted hrounds content
  refine ⟨fun rounds hrest => ?_, hall, ?_, ?_, ?_⟩
  · apply Sent.isPrefix_accepted
    apply writeOnUnixSocket_sent
    · exact fun r hr => hrounds r (hrest.subset hr)
    · exact sent_start content
  · rw [initiateOffload_request]
    by_cases h : Connected a uri
    · rw [(requestOffload_connected hready e.base.file content h).1]
      exact (writeOnUnixSocket_sent hrounds (sent_start content)).isPrefix_accepted
    · rw [(requestOffload_unconnected hready e.base.file h).1]
      exact List.nil_prefix
  · rintro ⟨h, hreturned⟩
    obtain ⟨haccepted, houtcome⟩ := requestOffload_connected hready e.base.file content h
    refine ⟨?_, initiateOffload_returned (houtcome.mpr hreturned)⟩
    rw [initiateOffload_request, haccepted]
    exact hall.mp hreturned
  · intro hnot
    apply initiateOffload_unfinished
    by_cases h : Connected a uri
    · exact fun houtcome => hnot ⟨h, (requestOffload_connected hready e.base.file content h).2.mp houtcome⟩
    · exact (requestOffload_unconnected hready e.base.file h).2

def readable : Selected := ⟨1, true, 0⟩

def interrupted : Attempt where
  errno := 0
  socket := none
  bind := none
  listen := none
  select := readable
  accept := none
  good := true
  closed := true
  rounds := [⟨readable, none, EINTR⟩, ⟨readable, some 2, 0⟩, ⟨readable, some 1, 0⟩]

def offered : OffloadEntry := ⟨.new 1 5 3 (some ["1", "obmcdump_1_5.tar.xz"]) .Completed "" 0, false⟩

theorem offload_complete_interrupted :
    (initiateOffload interrupted [7, 8, 9] "/tmp/offload" offered).1.accepted = [7, 8, 9] ∧
    (initiateOffload interrupted [7, 8, 9] "/tmp/offload" offered).2 = { offered with offloaded := true } := by
  have hready : Ready interrupted.select := fun _ => rfl
  have hrounds : ∀ r ∈ interrupted.rounds, Sound r := by
    intro r hr
    rcases hr with _ | ⟨_, _ | ⟨_, _ | ⟨_, hr⟩⟩⟩
    · exact ⟨fun _ => rfl, fun n hn => by cases hn⟩
    · exact ⟨fun _ => rfl, fun n hn => by cases hn; decide⟩
    · exact ⟨fun _ => rfl, fun n hn => by cases hn; decide⟩
    · cases hr
  have hconnected : Connected interrupted "/tmp/offload" := by
    constructor
    all_goals decide
  exact (offload_complete [7, 8, 9] offered hready hrounds).2.2.2.1 ⟨hconnected, by decide +kernel⟩

end Request

end DumpCollector.Offload
