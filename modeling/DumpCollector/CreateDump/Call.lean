import Mathlib.Data.List.Forall2
import Mathlib.Data.List.Infix
import Mathlib.Data.List.TakeWhile

namespace DumpCollector.CreateDump.Call

abbrev Message := List UInt8

def BUFFER_SIZE : Nat := 255

def END_CMD : Message := [0x45, 0x4e, 0x44]

/-- The messages that the server still sends before it closes the connection, and what the
client has shown. -/
structure Client where
  incoming : List Message
  shown : List Message

/-- A read returns one message, without what does not fit into the buffer; it returns
nothing once the connection is closed. -/
def read : List Message → Message × List Message
  | [] => ([], [])
  | message :: rest => (message.take BUFFER_SIZE, rest)

/-- The whole buffer is taken for the response. -/
def response (data : Message) : Message := data ++ List.replicate (BUFFER_SIZE - data.length) 0

def loop : Nat → Client → Option Client
  | 0, _ => none
  | n + 1, c =>
      let (data, rest) := read c.incoming
      if END_CMD <:+: response data then some { c with incoming := rest }
      else loop n ⟨rest, c.shown ++ [response data]⟩

def preceding (messages : List Message) : List Message := messages.takeWhile (· ≠ END_CMD)

def following (messages : List Message) : List Message := (messages.dropWhile (· ≠ END_CMD)).tail

/-- The loop ends, at the message END or with the connection, and has shown what came before
in full. -/
def Served (c : Client) : Prop :=
  ∃ n t displayed, loop n c = some t ∧ t.shown = c.shown ++ displayed ∧ t.incoming = following c.incoming ∧
    List.Forall₂ (· <+: ·) (preceding c.incoming) displayed

section Responses

variable {message : Message}

def shownAs (message : Message) : Message := response (message.take BUFFER_SIZE)

def Stops (message : Message) : Prop := END_CMD <:+: shownAs message

instance decidableStops (message : Message) : Decidable (Stops message) :=
  inferInstanceAs (Decidable (END_CMD <:+: shownAs message))

theorem stops_iff : Stops message ↔ END_CMD <:+: message.take BUFFER_SIZE := by
  have hzero : (0 : UInt8) ∉ END_CMD := by decide
  have hletter : ∀ c ∈ END_CMD, c ≠ 0 := fun c hc h => hzero (h ▸ hc)
  -- the bytes that fill the buffer are none of the letters of the command
  have hfill : ∀ l : Message, ∀ n, (∀ c ∈ l, c ≠ 0) → l <:+: List.replicate n 0 → l = [] := fun l n hl hwithin => by
    refine List.eq_nil_iff_forall_not_mem.mpr fun c hc => hl c hc ?_
    exact List.eq_of_mem_replicate (hwithin.subset hc)
  rw [Stops, shownAs, response, List.infix_append_iff]
  constructor
  · rintro (hdata | hzeros | ⟨l₁, l₂, heq, hend, hbegin⟩)
    · exact hdata
    · exact absurd (hfill _ _ hletter hzeros) (by decide)
    · have hl₂ : l₂ = [] := hfill l₂ _ (fun c hc => hletter c (heq ▸ List.mem_append_right l₁ hc)) hbegin.isInfix
      rw [hl₂, List.append_nil] at heq
      rw [heq]
      exact hend.isInfix
  · exact Or.inl

theorem not_stops_nil : ¬ Stops [] := by
  rw [stops_iff]
  decide

theorem prefix_shownAs : message <+: shownAs message ↔ message.length ≤ BUFFER_SIZE := by
  constructor
  · intro h
    have hlength := h.length_le
    rw [shownAs, response, List.length_append, List.length_replicate, List.length_take] at hlength
    omega
  · intro h
    rw [shownAs, List.take_of_length_le h]
    exact List.prefix_append _ _

end Responses

section Loop

theorem loop_nil (n : Nat) (shown : List Message) : loop n ⟨[], shown⟩ = none := by
  induction n generalizing shown with
  | zero => rfl
  | succ n ih =>
      rw [loop, read]
      exact (if_neg not_stops_nil).trans (ih _)

theorem loop_cons (n : Nat) (message : Message) (rest shown : List Message) :
    loop (n + 1) ⟨message :: rest, shown⟩ =
      if Stops message then some ⟨rest, shown⟩ else loop n ⟨rest, shown ++ [shownAs message]⟩ := rfl

theorem loop_of_stops {message : Message} (hstops : Stops message) (rest : List Message) {pre : List Message}
    (hpre : ∀ m ∈ pre, ¬ Stops m) (shown : List Message) :
    loop (pre.length + 1) ⟨pre ++ message :: rest, shown⟩ = some ⟨rest, shown ++ pre.map shownAs⟩ := by
  induction pre generalizing shown with
  | nil =>
      rw [List.nil_append, loop_cons, if_pos hstops]
      simp
  | cons m pre ih =>
      rw [List.cons_append, List.length_cons, loop_cons, if_neg (hpre m List.mem_cons_self),
        ih (fun m' hm' => hpre m' (List.mem_cons_of_mem m hm'))]
      simp

/-- The loop ends with a message that it takes for the end, after it has shown all before it. -/
theorem loop_ends {c t : Client} : (∃ n, loop n c = some t) ↔
    ∃ pre message, c.incoming = pre ++ message :: t.incoming ∧ (∀ m ∈ pre, ¬ Stops m) ∧ Stops message ∧
      t.shown = c.shown ++ pre.map shownAs := by
  constructor
  · rintro ⟨n, h⟩
    induction n generalizing c with
    | zero => cases h
    | succ n ih =>
        obtain ⟨incoming, shown⟩ := c
        cases incoming with
        | nil =>
            rw [loop_nil] at h
            cases h
        | cons message rest =>
            rw [loop_cons] at h
            split at h
            · rename_i hstops
              cases h
              exact ⟨[], message, rfl, fun m hm => absurd hm List.not_mem_nil, hstops, by simp⟩
            · rename_i hgoes
              obtain ⟨pre, last, hincoming, hpre, hlast, hshown⟩ := ih h
              refine ⟨message :: pre, last, congrArg (message :: ·) hincoming, fun m hm => ?_, hlast, ?_⟩
              · rcases List.mem_cons.mp hm with rfl | hm
                · exact hgoes
                · exact hpre m hm
              · rw [hshown]
                simp
  · rintro ⟨pre, message, hincoming, hpre, hstops, hshown⟩
    refine ⟨pre.length + 1, ?_⟩
    have hloop := loop_of_stops hstops t.incoming hpre c.shown
    rw [← hincoming, ← hshown] at hloop
    exact hloop

end Loop

section Served

theorem incoming_eq {messages : List Message} (h : END_CMD ∈ messages) :
    messages = preceding messages ++ END_CMD :: following messages := by
  induction messages with
  | nil => cases h
  | cons m ms ih =>
      rw [preceding, following]
      by_cases hm : m = END_CMD
      · rw [List.takeWhile_cons_of_neg (by simpa using hm), List.dropWhile_cons_of_neg (by simpa using hm), hm]
        rfl
      · rw [List.takeWhile_cons_of_pos (by simpa using hm), List.dropWhile_cons_of_pos (by simpa using hm)]
        exact congrArg (m :: ·) (ih ((List.mem_cons.mp h).resolve_left (Ne.symm hm)))

theorem served_iff (c : Client) :
    Served c ↔ END_CMD ∈ c.incoming ∧
      ∀ message ∈ preceding c.incoming, message.length ≤ BUFFER_SIZE ∧ ¬ END_CMD <:+: message := by
  constructor
  · rintro ⟨n, t, displayed, hloop, hshown, hfollowing, hfull⟩
    obtain ⟨pre, message, hincoming, hpre, hstops, hshown'⟩ := loop_ends.mp ⟨n, hloop⟩
    obtain rfl : displayed = pre.map shownAs := List.append_cancel_left (hshown.symm.trans hshown')
    have hlength : (preceding c.incoming).length = pre.length := by
      rw [hfull.length_eq, List.length_map]
    have hbegin : preceding c.incoming = pre := by
      refine List.IsPrefix.eq_of_length ?_ hlength
      refine List.prefix_of_prefix_length_le (List.takeWhile_prefix _) ?_ (Nat.le_of_eq hlength)
      rw [hincoming]
      exact List.prefix_append _ _
    rw [hbegin] at hfull ⊢
    have hend : END_CMD ∈ c.incoming := by
      by_contra hno
      have hall : preceding c.incoming = c.incoming :=
        List.takeWhile_eq_self_iff.mpr fun m hm => by
          simp only [ne_eq, decide_eq_true_eq]
          rintro rfl
          exact hno hm
      have hshort := congrArg List.length (hbegin.symm.trans hall)
      rw [hincoming, List.length_append, List.length_cons] at hshort
      omega
    refine ⟨hend, fun m hm => ?_⟩
    rw [List.forall₂_map_right_iff] at hfull
    have hlong := prefix_shownAs.mp (List.forall₂_same.mp hfull m hm)
    refine ⟨hlong, fun hwithin => hpre m hm ?_⟩
    rw [stops_iff, List.take_of_length_le hlong]
    exact hwithin
  · rintro ⟨hend, hall⟩
    have hstops : Stops END_CMD := by
      rw [stops_iff]
      decide
    have hpre : ∀ m ∈ preceding c.incoming, ¬ Stops m := fun m hm => by
      rw [stops_iff, List.take_of_length_le (hall m hm).1]
      exact (hall m hm).2
    obtain ⟨n, hloop⟩ :=
      loop_ends (c := c) (t := ⟨following c.incoming, c.shown ++ (preceding c.incoming).map shownAs⟩).mpr
      ⟨preceding c.incoming, END_CMD, incoming_eq hend, hpre, hstops, rfl⟩
    refine ⟨n, _, _, hloop, rfl, rfl, ?_⟩
    rw [List.forall₂_map_right_iff]
    exact List.forall₂_same.mpr fun m hm => prefix_shownAs.mpr (hall m hm).1

end Served

section Endings

private def backend : Message := [0x42, 0x41, 0x43, 0x4b, 0x45, 0x4e, 0x44]

/-- The client does not end with the connection, and it ends before a message that contains
the letters of the command, without having shown it. -/
theorem close_and_letters_not_served : ¬ Served ⟨[], []⟩ ∧ ¬ Served ⟨[backend, END_CMD], []⟩ := by
  constructor
  · rintro ⟨n, t, displayed, hloop, -⟩
    rw [loop_nil] at hloop
    cases hloop
  · rintro ⟨n, t, displayed, hloop, hshown, -, hfull⟩
    have hstops : Stops backend := by
      rw [stops_iff]
      decide
    have hpreceding : preceding [backend, END_CMD] = [backend] := by decide
    have hends : t.shown = [] := by
      cases n with
      | zero => cases hloop
      | succ n =>
          rw [loop_cons, if_pos hstops] at hloop
          cases hloop
          rfl
    have hnothing : displayed = [] := by rwa [hends, List.nil_append, eq_comm] at hshown
    have hlength := hfull.length_eq
    rw [hpreceding, hnothing] at hlength
    cases hlength

end Endings

end DumpCollector.CreateDump.Call
