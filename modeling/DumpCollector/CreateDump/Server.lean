import DumpCollector.CreateDump.Call
import DumpCollector.Lib.Words

namespace DumpCollector.CreateDump.Server

open Lib.Words Call

def text (s : String) : Message := s.toList.map fun c => UInt8.ofNat c.toNat

def CREATE_DUMP_CMD : Message := text "CREATE_DUMP"

def SUPPORTED_DUMP_TYPES : List Message := [text "all", text "BMC", text "EROT", text "FPGA", text "SelfTest"]

def DEFAULT_DUMP_TYPE : Message := text "BMC"

def isspace (b : UInt8) : Bool := b = 0x20 || (0x09 ≤ b && b ≤ 0x0d)

def isalnum (b : UInt8) : Bool :=
  (0x30 ≤ b && b ≤ 0x39) || (0x41 ≤ b && b ≤ 0x5a) || (0x61 ≤ b && b ≤ 0x7a)

inductive Action
  | processDumpRequest (type : Message)
  | sendMsg (message : Message)
  deriving DecidableEq

def supported (token : Message) : Option Message :=
  SUPPORTED_DUMP_TYPES.find? fun d => d = token.filter isalnum

def answer : List Message → List Action
  | command :: type :: _ =>
      if command = CREATE_DUMP_CMD then
        match supported type with
        | some d => [.processDumpRequest d]
        | none => [.sendMsg (text "Invalid dump type requested")]
      else []
  | [command] => if command = CREATE_DUMP_CMD then [.processDumpRequest DEFAULT_DUMP_TYPE] else []
  | [] => []

/-- The buffer is as long as it is, whatever was read into it. -/
def handler (message : Message) : List Action :=
  answer (tokens isspace (shownAs message)) ++ [.sendMsg END_CMD]

def command (type : Message) : Message :=
  if type = [] then CREATE_DUMP_CMD else CREATE_DUMP_CMD ++ text " " ++ type

/-- The message, split at white space, asks for a dump of the type. -/
def Asks (message type : Message) : Prop :=
  (tokens isspace message = [CREATE_DUMP_CMD] ∧ type = DEFAULT_DUMP_TYPE) ∨
    ∃ rest, tokens isspace message = CREATE_DUMP_CMD :: type :: rest ∧ type ∈ SUPPORTED_DUMP_TYPES

def Understood (message : Message) : Prop :=
  ∀ type, .processDumpRequest type ∈ handler message ↔ Asks message type

/-- The command is the last token, and the rest of the buffer comes after it. -/
def Padded (message : Message) : Prop := tokens isspace message = [CREATE_DUMP_CMD] ∧ message.length < BUFFER_SIZE

/-- The second token is a type but for characters that are dropped. -/
def Disguised (message : Message) : Prop :=
  ∃ token rest, tokens isspace message = CREATE_DUMP_CMD :: token :: rest ∧ token ∉ SUPPORTED_DUMP_TYPES ∧
    token.filter isalnum ∈ SUPPORTED_DUMP_TYPES

section Answers

variable {message type token : Message} {rest : List Message}

theorem supported_eq_some :
    supported token = some type ↔ token.filter isalnum = type ∧ type ∈ SUPPORTED_DUMP_TYPES := by
  rw [supported]
  constructor
  · intro h
    have hfound := List.find?_some h
    exact ⟨(of_decide_eq_true hfound).symm, List.mem_of_find?_eq_some h⟩
  · rintro ⟨rfl, hmem⟩
    cases h : SUPPORTED_DUMP_TYPES.find? fun d => d = token.filter isalnum with
    | none => simpa using List.find?_eq_none.mp h _ hmem
    | some d =>
        have hfound := List.find?_some h
        rw [of_decide_eq_true hfound]

theorem supported_self (h : type ∈ SUPPORTED_DUMP_TYPES) : type.filter isalnum = type := by
  simp only [SUPPORTED_DUMP_TYPES, List.mem_cons, List.not_mem_nil, or_false] at h
  rcases h with rfl | rfl | rfl | rfl | rfl
  all_goals decide

theorem mem_handler : .processDumpRequest type ∈ handler message ↔
    .processDumpRequest type ∈ answer (tokens isspace (shownAs message)) := by
  simp [handler]

theorem mem_answer_pair : .processDumpRequest type ∈ answer (CREATE_DUMP_CMD :: token :: rest) ↔
    supported token = some type := by
  rw [answer, if_pos rfl]
  cases supported token <;> simp [eq_comm]

theorem mem_answer_single : .processDumpRequest type ∈ answer [CREATE_DUMP_CMD] ↔ type = DEFAULT_DUMP_TYPE := by
  rw [answer, if_pos rfl]
  simp

theorem answer_other {first : Message} (h : first ≠ CREATE_DUMP_CMD) : answer (first :: rest) = [] := by
  cases rest <;> simp [answer, h]

end Answers

section Decisions

variable {message type first token shownToken : Message} {rest shownRest : List Message}

theorem shownAs_eq (h : message.length ≤ BUFFER_SIZE) :
    shownAs message = message ++ List.replicate (BUFFER_SIZE - message.length) 0 := by
  rw [shownAs, List.take_of_length_le h, response]

theorem isspace_replicate (n : Nat) : ∀ b ∈ List.replicate n (0 : UInt8), isspace b = false := by
  intro b hb
  rw [List.eq_of_mem_replicate hb]
  rfl

theorem filter_append_replicate (token : Message) (n : Nat) :
    (token ++ List.replicate n 0).filter isalnum = token.filter isalnum := by
  rw [List.filter_append, List.filter_replicate_of_neg (by decide), List.append_nil]

theorem not_padded_pair (h : tokens isspace message = first :: token :: rest) : ¬Padded message := by
  rintro ⟨hsingle, -⟩
  rw [h] at hsingle
  simp at hsingle

theorem not_disguised_short (h : (tokens isspace message).length ≤ 1) : ¬Disguised message := by
  rintro ⟨token, rest, htokens, -⟩
  rw [htokens] at h
  simp at h

theorem not_disguised_other (h : tokens isspace message = first :: rest) (hfirst : first ≠ CREATE_DUMP_CMD) :
    ¬Disguised message := by
  rintro ⟨token, rest, htokens, -⟩
  rw [h] at htokens
  exact hfirst (List.cons.inj htokens).1

theorem not_asks_other (h : tokens isspace message = first :: rest) (hfirst : first ≠ CREATE_DUMP_CMD) :
    ¬Asks message type := by
  rintro (⟨htokens, -⟩ | ⟨rest, htokens, -⟩)
  · rw [h] at htokens
    exact hfirst (List.cons.inj htokens).1
  · rw [h] at htokens
    exact hfirst (List.cons.inj htokens).1

theorem asks_pair_iff (h : tokens isspace message = CREATE_DUMP_CMD :: token :: rest) :
    Asks message type ↔ token = type ∧ type ∈ SUPPORTED_DUMP_TYPES := by
  rw [Asks, h]
  constructor
  · rintro (⟨hsingle, -⟩ | ⟨rest, hpair, htype⟩)
    · simp at hsingle
    · simp only [List.cons.injEq, true_and] at hpair
      exact ⟨hpair.1, htype⟩
  · rintro ⟨rfl, htype⟩
    exact .inr ⟨rest, rfl, htype⟩

theorem asks_single_iff (h : tokens isspace message = [CREATE_DUMP_CMD]) :
    Asks message type ↔ type = DEFAULT_DUMP_TYPE := by
  rw [Asks, h]
  simp

theorem understood_other (hshown : tokens isspace (shownAs message) = first :: shownRest)
    (hmessage : tokens isspace message = first :: rest) (hfirst : first ≠ CREATE_DUMP_CMD) :
    Understood message ↔ ¬Padded message ∧ ¬Disguised message := by
  refine iff_of_true (fun type => ?_) ⟨?_, not_disguised_other hmessage hfirst⟩
  · rw [mem_handler, hshown, answer_other hfirst]
    exact iff_of_false List.not_mem_nil (not_asks_other hmessage hfirst)
  · rintro ⟨hsingle, -⟩
    rw [hmessage] at hsingle
    exact hfirst (List.cons.inj hsingle).1

theorem understood_pair (hshown : tokens isspace (shownAs message) = CREATE_DUMP_CMD :: shownToken :: shownRest)
    (hmessage : tokens isspace message = CREATE_DUMP_CMD :: token :: rest)
    (hfilter : shownToken.filter isalnum = token.filter isalnum) :
    Understood message ↔ ¬Padded message ∧ ¬Disguised message := by
  have hunderstood : Understood message ↔ ∀ type, (token.filter isalnum = type ∧ type ∈ SUPPORTED_DUMP_TYPES) ↔
      (token = type ∧ type ∈ SUPPORTED_DUMP_TYPES) := by
    rw [Understood]
    refine forall_congr' fun type => ?_
    rw [mem_handler, hshown, mem_answer_pair, supported_eq_some, hfilter, asks_pair_iff hmessage]
  rw [hunderstood]
  constructor
  · intro h
    refine ⟨not_padded_pair hmessage, ?_⟩
    rintro ⟨token', rest', htokens, hunknown, hknown⟩
    rw [hmessage, List.cons.injEq, List.cons.injEq] at htokens
    obtain ⟨-, rfl, -⟩ := htokens
    have hsame := ((h (token.filter isalnum)).mp ⟨rfl, hknown⟩).1
    exact hunknown (hsame ▸ hknown)
  · rintro ⟨-, hplain⟩ type
    constructor
    · rintro ⟨rfl, hknown⟩
      by_cases htoken : token ∈ SUPPORTED_DUMP_TYPES
      · exact ⟨(supported_self htoken).symm, hknown⟩
      · exact absurd ⟨token, rest, hmessage, htoken, hknown⟩ hplain
    · rintro ⟨rfl, hknown⟩
      exact ⟨supported_self hknown, hknown⟩

theorem understood_full (hshown : shownAs message = message) (hfull : ¬message.length < BUFFER_SIZE) :
    Understood message ↔ ¬Padded message ∧ ¬Disguised message := by
  have hnotPadded : ¬Padded message := fun h => hfull h.2
  have hsame : tokens isspace (shownAs message) = tokens isspace message := congrArg (tokens isspace) hshown
  rcases hmessage : tokens isspace message with _ | ⟨first, _ | ⟨token, rest⟩⟩
  · refine iff_of_true (fun type => ?_) ⟨hnotPadded, not_disguised_short (by rw [hmessage]; exact Nat.zero_le 1)⟩
    rw [mem_handler, hsame, hmessage, Asks, hmessage]
    simp [answer]
  · by_cases hfirst : first = CREATE_DUMP_CMD
    · subst hfirst
      refine iff_of_true (fun type => ?_) ⟨hnotPadded, not_disguised_short (by rw [hmessage]; exact Nat.le_refl 1)⟩
      rw [mem_handler, hsame, hmessage, mem_answer_single, asks_single_iff hmessage]
    · exact understood_other (hsame.trans hmessage) hmessage hfirst
  · by_cases hfirst : first = CREATE_DUMP_CMD
    · subst hfirst
      exact understood_pair (hsame.trans hmessage) hmessage rfl
    · exact understood_other (hsame.trans hmessage) hmessage hfirst

theorem understood_unprocessed (hshort : message.length < BUFFER_SIZE)
    (hlength : (tokens isspace message).length ≤ 1) (hnone : ∀ type, ¬.processDumpRequest type ∈ handler message) :
    Understood message ↔ ¬Padded message ∧ ¬Disguised message := by
  by_cases hpadded : Padded message
  · refine iff_of_false (fun h => ?_) fun h => h.1 hpadded
    exact hnone DEFAULT_DUMP_TYPE ((h DEFAULT_DUMP_TYPE).mpr (.inl ⟨hpadded.1, rfl⟩))
  · refine iff_of_true (fun type => iff_of_false (hnone type) ?_) ⟨hpadded, not_disguised_short hlength⟩
    rintro (⟨hsingle, -⟩ | ⟨rest, hpair, -⟩)
    · exact hpadded ⟨hsingle, hshort⟩
    · rw [hpair] at hlength
      simp at hlength

theorem understood_short {zeros last : Message} {front : List Message} (hshort : message.length < BUFFER_SIZE)
    (hzeros : ∃ n, zeros = List.replicate n 0) (hne : zeros ≠ [])
    (hmessage : tokens isspace message = front ++ (if last = [] then [] else [last]))
    (hshown : tokens isspace (shownAs message) = front ++ [last ++ zeros]) :
    Understood message ↔ ¬Padded message ∧ ¬Disguised message := by
  obtain ⟨n, rfl⟩ := hzeros
  have hmem : (0 : UInt8) ∈ List.replicate n 0 := List.mem_replicate.mpr ⟨fun hn => hne (by rw [hn]; rfl), rfl⟩
  rcases front with _ | ⟨first, _ | ⟨token, front⟩⟩
  · have hother : last ++ List.replicate n 0 ≠ CREATE_DUMP_CMD := by
      intro h
      have hzero : (0 : UInt8) ∈ CREATE_DUMP_CMD := h ▸ List.mem_append_right last hmem
      exact absurd hzero (by decide)
    apply understood_unprocessed hshort
    · rw [hmessage, List.nil_append]
      split <;> simp
    · intro type
      rw [mem_handler, hshown, List.nil_append, answer_other hother]
      exact List.not_mem_nil
  · by_cases hfirst : first = CREATE_DUMP_CMD
    · subst hfirst
      by_cases hlast : last = []
      · subst hlast
        apply understood_unprocessed hshort
        · rw [hmessage]
          exact Nat.le_refl 1
        · -- the second token is made of nothing but the bytes behind the message
          intro type
          rw [mem_handler, hshown, List.singleton_append, mem_answer_pair, supported_eq_some, filter_append_replicate]
          rintro ⟨rfl, htype⟩
          exact absurd htype (by decide)
      · rw [if_neg hlast] at hmessage
        exact understood_pair hshown hmessage (filter_append_replicate last n)
    · exact understood_other hshown hmessage hfirst
  · by_cases hfirst : first = CREATE_DUMP_CMD
    · subst hfirst
      exact understood_pair hshown hmessage rfl
    · exact understood_other hshown hmessage hfirst

/-- The handler sees the request that the text of the message makes, but where the command
alone does not fill the buffer, and where a token is a type without its other characters. -/
theorem understood_iff (hlength : message.length ≤ BUFFER_SIZE) :
    Understood message ↔ ¬Padded message ∧ ¬Disguised message := by
  obtain ⟨front, last, hmessage, happend⟩ := tokens_last isspace message
  by_cases hshort : message.length < BUFFER_SIZE
  · have hne : List.replicate (BUFFER_SIZE - message.length) (0 : UInt8) ≠ [] := by
      rw [Ne, List.replicate_eq_nil_iff]
      omega
    refine understood_short hshort ⟨_, rfl⟩ hne hmessage ?_
    rw [shownAs_eq hlength]
    exact happend _ hne (isspace_replicate _)
  · have hfill : BUFFER_SIZE - message.length = 0 := by omega
    refine understood_full ?_ hshort
    rw [shownAs_eq hlength, hfill, List.replicate_zero, List.append_nil]

end Decisions

section Commands

/-- A command that names a type is understood, but the command for the default type is not. -/
theorem handler_understood_iff (message : Message) (hlength : message.length ≤ BUFFER_SIZE) :
    (Understood message ↔ ¬Padded message ∧ ¬Disguised message) ∧
    (∀ type ∈ SUPPORTED_DUMP_TYPES, .processDumpRequest type ∈ handler (command type)) ∧
    ¬.processDumpRequest DEFAULT_DUMP_TYPE ∈ handler (command []) := by
  refine ⟨understood_iff hlength, fun type htype => ?_, by decide +kernel⟩
  simp only [SUPPORTED_DUMP_TYPES, List.mem_cons, List.not_mem_nil, or_false] at htype
  rcases htype with rfl | rfl | rfl | rfl | rfl
  all_goals decide +kernel

theorem handler_understood_erot : Understood (text "CREATE_DUMP EROT") := by
  have htokens : tokens isspace (text "CREATE_DUMP EROT") = [CREATE_DUMP_CMD, text "EROT"] := by decide +kernel
  refine (handler_understood_iff (text "CREATE_DUMP EROT") (by decide +kernel)).1.mpr ⟨fun h => ?_, fun h => ?_⟩
  · rw [Padded, htokens] at h
    cases h.1
  · obtain ⟨token, rest, hsplit, hno, -⟩ := h
    rw [htokens] at hsplit
    cases hsplit
    exact hno (by decide +kernel)

/-- The command without a type is answered as if it were none. -/
theorem default_command_ignored :
    handler (command []) = [.sendMsg END_CMD] ∧
    ¬∀ message : Message, message.length ≤ BUFFER_SIZE → (0 : UInt8) ∉ message → Understood message := by
  have hignored : handler (command []) = [.sendMsg END_CMD] := by decide +kernel
  refine ⟨hignored, fun h => ?_⟩
  have hunderstood := h (command []) (by decide +kernel) (by decide +kernel)
  have htokens : tokens isspace (command []) = [CREATE_DUMP_CMD] := by decide +kernel
  have hprocessed := (hunderstood DEFAULT_DUMP_TYPE).mpr (.inl ⟨htokens, rfl⟩)
  rw [hignored] at hprocessed
  simp at hprocessed

end Commands

end DumpCollector.CreateDump.Server
