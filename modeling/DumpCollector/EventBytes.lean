import DumpCollector.Inotify
import DumpCollector.Lib.LittleEndian

namespace DumpCollector.EventBytes

open Lib.LittleEndian

def NAME_MAX : Nat := 255

/-- An event as the kernel keeps it. A name has no terminator in it and is no longer than
a file name can be; an event of the watched directory itself has none. -/
structure KernelEvent where
  wd : Nat
  mask : Nat
  cookie : Nat
  name : List UInt8
  wd_lt : wd < 256 ^ 4
  mask_lt : mask < 256 ^ 4
  cookie_lt : cookie < 256 ^ 4
  short : name.length ≤ NAME_MAX
  unterminated : ∀ b ∈ name, b ≠ 0

/-- The length field: the name with its terminator, filled up to a multiple of the header. -/
def KernelEvent.len (e : KernelEvent) : Nat := if e.name = [] then 0 else (e.name.length + 1 + 15) / 16 * 16

def KernelEvent.size (e : KernelEvent) : Nat := 16 + e.len

def KernelEvent.encode (e : KernelEvent) : List UInt8 :=
  toBytes 4 e.wd ++ (toBytes 4 e.mask ++ (toBytes 4 e.cookie ++ (toBytes 4 e.len ++
    (e.name ++ List.replicate (e.len - e.name.length) 0))))

def whole : Nat → List KernelEvent → List KernelEvent × List KernelEvent
  | _, [] => ([], [])
  | room, e :: rest =>
      if e.size ≤ room then (e :: (whole (room - e.size) rest).1, (whole (room - e.size) rest).2)
      else ([], e :: rest)

/-- The system call read on the descriptor: it fails if not even the first event fits, and
leaves the queue as it is. -/
def read (count : Nat) (queue : List KernelEvent) : Option (List UInt8 × List KernelEvent) :=
  match whole count queue with
  | ([], _) => none
  | (events, rest) => some ((events.map KernelEvent.encode).flatten, rest)

/-- What the loop reads of the structure at an offset; the name ends at the first zero. -/
structure Parsed where
  offset : Nat
  mask : Nat
  name : List UInt8

def parsedAt (buffer : List UInt8) (offset : Nat) : Parsed where
  offset := offset
  mask := readAt 4 buffer (offset + 4)
  name := (buffer.drop (offset + 16)).takeWhile (· ≠ 0)

def parse (buffer : List UInt8) (bytes offset : Nat) : List Parsed :=
  if offset < bytes then
    parsedAt buffer offset :: parse buffer bytes (offset + (16 + readAt 4 buffer (offset + 12)))
  else []
termination_by bytes - offset

def maxBytes : Nat := 16 + NAME_MAX + 1

/-- The buffer is cleared before the read, which is given one byte less than its size. -/
def callback (queue : List KernelEvent) : List Parsed × List KernelEvent :=
  match read (maxBytes - 1) queue with
  | none => ([], queue)
  | some (bytes, rest) =>
      (parse (bytes ++ List.replicate (maxBytes - bytes.length) 0) bytes.length 0, rest)

def remaining (queue : List KernelEvent) : Nat → List KernelEvent
  | 0 => queue
  | n + 1 => (callback (remaining queue n)).2

section Parse

variable {e : KernelEvent} {events rest queue : List KernelEvent} {room : Nat}

theorem length_le_len (e : KernelEvent) : e.name.length ≤ e.len := by
  rw [KernelEvent.len]
  split
  · rename_i h
    rw [h]
    exact le_rfl
  · omega

theorem len_le (e : KernelEvent) : e.len ≤ 256 := by
  have hshort := e.short
  rw [NAME_MAX] at hshort
  rw [KernelEvent.len]
  split <;> omega

theorem length_encode (e : KernelEvent) : e.encode.length = e.size := by
  have hname := length_le_len e
  simp only [KernelEvent.encode, List.length_append, length_toBytes, List.length_replicate, KernelEvent.size]
  omega

structure Reads (data : List UInt8) (p : Parsed) (e : KernelEvent) : Prop where
  bytes : (data.drop p.offset).take e.size = e.encode
  mask : p.mask = e.mask
  name : e.name ≠ [] → p.name = e.name

theorem readAt_len {buffer tail : List UInt8} {offset : Nat} (h : buffer.drop offset = e.encode ++ tail) :
    readAt 4 buffer (offset + 12) = e.len := by
  have hlen := len_le e
  have hfields : buffer.drop offset = (toBytes 4 e.wd ++ (toBytes 4 e.mask ++ toBytes 4 e.cookie)) ++
      (toBytes 4 e.len ++ (e.name ++ List.replicate (e.len - e.name.length) 0 ++ tail)) := by
    rw [h, KernelEvent.encode]
    simp only [List.append_assoc]
  exact readAt_toBytes (by omega) hfields (by simp)

theorem takeWhile_name {name : List UInt8} (h : ∀ b ∈ name, b ≠ 0) (tail : List UInt8) :
    (name ++ 0 :: tail).takeWhile (· ≠ 0) = name := by
  induction name with
  | nil => simp
  | cons b name ih =>
      have hb := h b List.mem_cons_self
      rw [List.cons_append, List.takeWhile_cons_of_pos (by simpa using hb),
        ih fun c hc => h c (List.mem_cons_of_mem b hc)]

theorem parsedAt_reads {data buffer more tail : List UInt8} {offset : Nat}
    (hdata : data.drop offset = e.encode ++ more) (hbuffer : buffer.drop offset = e.encode ++ tail) :
    Reads data (parsedAt buffer offset) e where
  bytes := by
    change (data.drop offset).take e.size = e.encode
    rw [hdata, ← length_encode, List.take_left]
  mask := by
    have hfields : buffer.drop offset = toBytes 4 e.wd ++ (toBytes 4 e.mask ++ (toBytes 4 e.cookie ++
        (toBytes 4 e.len ++ (e.name ++ List.replicate (e.len - e.name.length) 0)) ++ tail)) := by
      rw [hbuffer, KernelEvent.encode]
      simp only [List.append_assoc]
    exact readAt_toBytes e.mask_lt hfields (by simp)
  name := by
    intro hne
    have hfields : e.encode = (toBytes 4 e.wd ++ (toBytes 4 e.mask ++ (toBytes 4 e.cookie ++ toBytes 4 e.len))) ++
        (e.name ++ List.replicate (e.len - e.name.length) 0) := by
      simp only [KernelEvent.encode, List.append_assoc]
    have hpad : 0 < e.len - e.name.length := by
      rw [KernelEvent.len, if_neg hne]
      omega
    obtain ⟨n, hn⟩ := Nat.exists_eq_succ_of_ne_zero hpad.ne'
    change (buffer.drop (offset + 16)).takeWhile (· ≠ 0) = e.name
    rw [← List.drop_drop, hbuffer, hfields, List.append_assoc, List.drop_left' (by simp), hn, List.replicate_succ,
      List.append_assoc, List.cons_append]
    exact takeWhile_name e.unterminated _

def offsets : Nat → List KernelEvent → List Nat
  | _, [] => []
  | offset, e :: es => offset :: offsets (offset + e.size) es

theorem parse_events {data zeros : List UInt8} {offset : Nat} (hle : offset ≤ data.length)
    (h : data.drop offset = (events.map KernelEvent.encode).flatten) :
    (parse (data ++ zeros) data.length offset).map Parsed.offset = offsets offset events ∧
      List.Forall₂ (Reads data) (parse (data ++ zeros) data.length offset) events := by
  have hlength := congrArg List.length h
  rw [List.length_drop] at hlength
  induction events generalizing offset with
  | nil =>
      rw [parse, if_neg (by simpa [Nat.sub_eq_zero_iff_le] using hlength)]
      exact ⟨rfl, .nil⟩
  | cons e es ih =>
      rw [List.map_cons, List.flatten_cons] at h
      rw [List.map_cons, List.flatten_cons, List.length_append, length_encode] at hlength
      have hbuffer : (data ++ zeros).drop offset =
          e.encode ++ ((es.map KernelEvent.encode).flatten ++ zeros) := by
        rw [List.drop_append_of_le_length hle, h, List.append_assoc]
      have hrest : data.drop (offset + e.size) = (es.map KernelEvent.encode).flatten := by
        rw [← List.drop_drop, h, ← length_encode, List.drop_left]
      have hsize : 16 ≤ e.size := by
        rw [KernelEvent.size]
        omega
      obtain ⟨hoffsets, hreads⟩ := ih (by omega) hrest (by omega)
      rw [parse, if_pos (by omega), readAt_len hbuffer]
      exact ⟨congrArg (offset :: ·) hoffsets, .cons (parsedAt_reads h hbuffer) hreads⟩

end Parse

section Queue

variable {e : KernelEvent} {queue : List KernelEvent} {room : Nat}

theorem whole_append (room : Nat) (queue : List KernelEvent) :
    (whole room queue).1 ++ (whole room queue).2 = queue := by
  induction queue generalizing room with
  | nil => rfl
  | cons e rest ih =>
      rw [whole]
      split
      · exact congrArg (e :: ·) (ih _)
      · rfl

theorem whole_nonempty (h : e.size ≤ room) : (whole room (e :: queue)).1 ≠ [] := by
  rw [whole, if_pos h]
  exact List.cons_ne_nil _ _

theorem mem_whole (hmem : e ∈ queue) (h : room < e.size) : e ∈ (whole room queue).2 := by
  induction queue generalizing room with
  | nil => cases hmem
  | cons f rest ih =>
      rw [whole]
      split
      · rename_i hfits
        rcases List.mem_cons.mp hmem with rfl | hmem
        · omega
        · exact ih hmem (by omega)
      · exact hmem

/-- All structures that a callback reads are the next events, at the offsets at which their
bytes begin in what was read. -/
def ParsedTruly (queue : List KernelEvent) : Prop :=
  ∃ events, queue = events ++ (callback queue).2 ∧
    (callback queue).1.map Parsed.offset = offsets 0 events ∧
      List.Forall₂ (Reads (events.map KernelEvent.encode).flatten) (callback queue).1 events

theorem callback_cases (queue : List KernelEvent) :
    (whole (maxBytes - 1) queue).1 = [] ∧ callback queue = ([], queue) ∨
      (whole (maxBytes - 1) queue).1 ≠ [] ∧ callback queue =
        (parse ((((whole (maxBytes - 1) queue).1.map KernelEvent.encode).flatten) ++
          List.replicate (maxBytes - ((whole (maxBytes - 1) queue).1.map KernelEvent.encode).flatten.length) 0)
            (((whole (maxBytes - 1) queue).1.map KernelEvent.encode).flatten).length 0,
          (whole (maxBytes - 1) queue).2) := by
  rw [callback, read]
  rcases whole (maxBytes - 1) queue with ⟨_ | ⟨e, events⟩, rest⟩
  · exact .inl ⟨rfl, rfl⟩
  · exact .inr ⟨List.cons_ne_nil _ _, rfl⟩

theorem callback_reads (queue : List KernelEvent) :
    (callback queue).1.map Parsed.offset = offsets 0 (whole (maxBytes - 1) queue).1 ∧
      List.Forall₂ (Reads ((whole (maxBytes - 1) queue).1.map KernelEvent.encode).flatten) (callback queue).1
        (whole (maxBytes - 1) queue).1 := by
  rcases callback_cases queue with ⟨hnone, h⟩ | ⟨-, h⟩
  · rw [h, hnone]
    exact ⟨rfl, .nil⟩
  · rw [h]
    exact parse_events (Nat.zero_le _) rfl

theorem callback_queue (queue : List KernelEvent) : (callback queue).2 = (whole (maxBytes - 1) queue).2 := by
  rcases callback_cases queue with ⟨hnone, h⟩ | ⟨-, h⟩
  · have happend := whole_append (maxBytes - 1) queue
    rw [hnone, List.nil_append] at happend
    rw [h, happend]
  · rw [h]

theorem callback_parsedTruly (queue : List KernelEvent) : ParsedTruly queue := by
  refine ⟨(whole (maxBytes - 1) queue).1, ?_, callback_reads queue⟩
  rw [callback_queue, whole_append]

/-- A name of 240 bytes is filled up to 256, and with the header there is one byte too many. -/
theorem size_le_iff (e : KernelEvent) : e.size ≤ maxBytes - 1 ↔ e.name.length < 240 := by
  have hname : e.name = [] ↔ e.name.length = 0 := List.length_eq_zero_iff.symm
  rw [maxBytes, NAME_MAX, KernelEvent.size, KernelEvent.len]
  simp only [hname]
  split <;> omega

theorem mem_remaining (hmem : e ∈ queue) (h : 240 ≤ e.name.length) (n : Nat) : e ∈ remaining queue n := by
  have hsize := size_le_iff e
  induction n with
  | zero => exact hmem
  | succ n ih =>
      rw [remaining, callback_queue]
      exact mem_whole ih (by omega)

theorem remaining_succ (queue : List KernelEvent) (n : Nat) :
    remaining queue (n + 1) = remaining (callback queue).2 n := by
  induction n with
  | zero => rfl
  | succ n ih => rw [remaining, ih, remaining]

theorem length_callback (hne : queue ≠ []) (h : ∀ e ∈ queue, e.name.length < 240) :
    (callback queue).2.length < queue.length := by
  obtain ⟨e, rest, rfl⟩ := List.exists_cons_of_ne_nil hne
  have hnonempty := @whole_nonempty e rest _ ((size_le_iff e).mpr (h e List.mem_cons_self))
  have hlength := congrArg List.length (whole_append (maxBytes - 1) (e :: rest))
  rw [List.length_append] at hlength
  have hpos := List.length_pos_iff.mpr hnonempty
  rw [callback_queue]
  omega

theorem consumed_of_short (h : ∀ e ∈ queue, e.name.length < 240) : ∃ n, remaining queue n = [] := by
  induction hlength : queue.length using Nat.strong_induction_on generalizing queue with
  | _ length ih =>
      by_cases hne : queue = []
      · exact ⟨0, hne⟩
      · have hless := length_callback hne h
        have hshort : ∀ e ∈ (callback queue).2, e.name.length < 240 := by
          intro e he
          refine h e ?_
          rw [callback_queue] at he
          rw [← whole_append (maxBytes - 1) queue]
          exact List.mem_append_right _ he
        obtain ⟨n, hn⟩ := ih _ (hlength ▸ hless) hshort rfl
        exact ⟨n + 1, (remaining_succ queue n).trans hn⟩

/-- The whole queue is read, and every event where its bytes are, exactly if no name has 240
bytes or more. -/
theorem consumed_iff (queue : List KernelEvent) :
    ((∃ n, remaining queue n = []) ∧ ∀ n, ParsedTruly (remaining queue n)) ↔ ∀ e ∈ queue, e.name.length < 240 := by
  constructor
  · rintro ⟨⟨n, hn⟩, -⟩ e he
    by_contra hlong
    have hmem := mem_remaining he (by omega) n
    rw [hn] at hmem
    cases hmem
  · exact fun h => ⟨consumed_of_short h, fun n => callback_parsedTruly _⟩

private def longName : KernelEvent where
  wd := 1
  mask := 8
  cookie := 0
  name := List.replicate 240 97
  wd_lt := by decide
  mask_lt := by decide
  cookie_lt := by decide
  short := by
    rw [List.length_replicate]
    decide
  unterminated b hb := by
    rw [List.eq_of_mem_replicate hb]
    decide

/-- A file whose name has 240 bytes is never reported, nor is anything that comes after it. -/
theorem longName_never_read : ¬ ∃ n, remaining [longName] n = [] := by
  rintro ⟨n, hn⟩
  have hlong : 240 ≤ longName.name.length := Nat.le_of_eq List.length_replicate.symm
  have hmem := mem_remaining (List.mem_singleton.mpr rfl) hlong n
  rw [hn] at hmem
  cases hmem

end Queue

section Watch

open Inotify

def Encodes (e : KernelEvent) (event : InotifyEvent) : Prop :=
  e.mask = event.mask ∧ e.name = event.name.toUTF8.data.toList

theorem size_of_encodes {e : KernelEvent} {event : InotifyEvent} (h : Encodes e event) : e.size = event.bytes := by
  have hlength : e.name.length = event.name.utf8ByteSize := by
    rw [h.2]
    rfl
  have hempty : e.name = [] ↔ event.name = "" := by
    rw [← List.length_eq_zero_iff, hlength]
    exact String.utf8ByteSize_eq_zero_iff
  rw [KernelEvent.size, KernelEvent.len, InotifyEvent.bytes, hlength]
  by_cases hname : event.name = ""
  · rw [if_pos hname, if_pos (hempty.mpr hname)]
  · rw [if_neg hname, if_neg (mt hempty.mp hname)]

theorem whole_encodes {queue : List KernelEvent} {events : List InotifyEvent}
    (h : List.Forall₂ Encodes queue events) (room : Nat) :
    List.Forall₂ Encodes (whole room queue).1 (fitting room events).1 ∧
      List.Forall₂ Encodes (whole room queue).2 (fitting room events).2 := by
  induction h generalizing room with
  | nil => exact ⟨.nil, .nil⟩
  | cons hhead htail ih =>
      rw [whole, fitting, size_of_encodes hhead]
      split
      · exact ⟨.cons hhead (ih _).1, (ih _).2⟩
      · exact ⟨.nil, .cons hhead htail⟩

def Sees (p : Parsed) (event : InotifyEvent) : Prop :=
  p.mask = event.mask ∧ (event.name ≠ "" → p.name = event.name.toUTF8.data.toList)

theorem sees_of_encodes {e : KernelEvent} {event : InotifyEvent} {data : List UInt8} {p : Parsed}
    (h : Encodes e event) (hreads : Reads data p e) : Sees p event := by
  refine ⟨hreads.mask.trans h.1, fun hname => (hreads.name fun hnil => hname ?_).trans h.2⟩
  have hzero := congrArg List.length hnil
  rw [h.2] at hzero
  exact String.utf8ByteSize_eq_zero_iff.mp hzero

theorem sees_of_reads {data : List UInt8} {ps : List Parsed} {queue : List KernelEvent} {events : List InotifyEvent}
    (hreads : List.Forall₂ (Reads data) ps queue) (h : List.Forall₂ Encodes queue events) :
    List.Forall₂ Sees ps events := by
  induction hreads generalizing events with
  | nil =>
      cases h
      exact .nil
  | cons hhead htail ih =>
      cases h with
      | cons hencodes hrest => exact .cons (sees_of_encodes hencodes hhead) (ih hrest)

/-- The callback of the watch model takes the events off the queue that this one reads, and
sees their masks and names. -/
theorem callback_encodes (w : Watch) {queue : List KernelEvent} (h : List.Forall₂ Encodes queue w.queue) :
    List.Forall₂ Encodes (callback queue).2 w.callback.1.queue ∧
      List.Forall₂ Sees (callback queue).1 (fitting (Inotify.maxBytes - 1) w.queue).1 := by
  have hwhole := whole_encodes h (maxBytes - 1)
  rw [callback_queue]
  exact ⟨hwhole.2, sees_of_reads (callback_reads queue).2 hwhole.1⟩

end Watch

end DumpCollector.EventBytes
