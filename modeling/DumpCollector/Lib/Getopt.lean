import DumpCollector.Lib.Words

namespace DumpCollector.Lib.Getopt

open Words

/-- The options of a program: whether a letter takes an argument, and what a long name, or the
beginning of one, stands for. -/
structure Spec where
  takesArgument : Char → Option Bool
  complete : Word → Option (Word × Bool)
  letters : takesArgument '-' = none
  names : ∀ w name b, complete w = some (name, b) → '=' ∉ name ∧ name ≠ [] ∧ complete name = some (name, b)

section Tables

variable (table : List (Word × Bool)) (abbreviated : Word → Option Word)

/-- A name of the table, or the one that the beginning of a name is completed to. -/
def completion (w : Word) : Option (Word × Bool) :=
  (table.find? (·.1 = w)).or ((abbreviated w).bind fun name => table.find? (·.1 = name))

variable {table}

theorem mem_of_completion {w : Word} {x : Word × Bool} (h : completion table abbreviated w = some x) : x ∈ table := by
  rcases Option.or_eq_some_iff.mp h with hw | ⟨-, hw⟩
  · exact List.mem_of_find?_eq_some hw
  · obtain ⟨w', -, hw'⟩ := Option.bind_eq_some_iff.mp hw
    exact List.mem_of_find?_eq_some hw'

theorem completion_names (htable : ∀ x ∈ table, '=' ∉ x.1 ∧ x.1 ≠ []) (w name : Word) (b : Bool)
    (h : completion table abbreviated w = some (name, b)) :
    '=' ∉ name ∧ name ≠ [] ∧ completion table abbreviated name = some (name, b) := by
  have hfound : table.find? (·.1 = name) = some (name, b) := by
    have hfind : ∃ w', table.find? (·.1 = w') = some (name, b) := by
      rcases Option.or_eq_some_iff.mp h with hw | ⟨-, hw⟩
      · exact ⟨w, hw⟩
      · obtain ⟨w', -, hw'⟩ := Option.bind_eq_some_iff.mp hw
        exact ⟨w', hw'⟩
    obtain ⟨w', hw'⟩ := hfind
    have heq : name = w' := by simpa using List.find?_some hw'
    rw [← heq] at hw'
    exact hw'
  obtain ⟨hequals, hne⟩ := htable _ (List.mem_of_find?_eq_some hfound)
  exact ⟨hequals, hne, by rw [completion, hfound, Option.some_or]⟩

end Tables

def lettersOnly (letters : List Char) (h : letters.contains '-' = false) : Spec where
  takesArgument c := if letters.contains c then some true else none
  complete _ := none
  letters := by rw [h]; rfl
  names := fun _ _ _ h => by cases h

theorem lettersOnly_takes {letters : List Char} (h : letters.contains '-' = false) {c : Char} (hc : c ∈ letters) :
    (lettersOnly letters h).takesArgument c = some true := if_pos (List.contains_iff_mem.mpr hc)

/-- What the arguments of a program are taken apart into. -/
inductive Item
  | short (letter : Char) (arg : Option Word)
  | long (name : Word) (arg : Option Word)
  | refused
  deriving DecidableEq

def dashes : Word := ['-', '-']

/-- The words for an option: its argument, if it takes one, is a word of its own. -/
def Item.words : Item → List Word
  | .short letter arg => ['-', letter] :: arg.toList
  | .long name arg => (dashes ++ name) :: arg.toList
  | .refused => []

abbrev Pending := Option (Word → Item)

variable (spec : Spec)

/-- The letters of one word. The rest of the word is the argument of the first one that takes any. -/
def cluster : Word → List Item × Pending
  | [] => ([], none)
  | c :: cs =>
      match spec.takesArgument c with
      | none => (.refused :: (cluster cs).1, (cluster cs).2)
      | some false => (.short c none :: (cluster cs).1, (cluster cs).2)
      | some true => if cs = [] then ([], some fun a => .short c (some a)) else ([.short c (some cs)], none)

def attached (word : Word) : Option Word :=
  match word.dropWhile (· ≠ '=') with
  | [] => none
  | _ :: arg => some arg

def longOption (word : Word) : List Item × Pending :=
  match spec.complete (word.takeWhile (· ≠ '=')), attached word with
  | some (name, false), none => ([.long name none], none)
  | some (name, true), some arg => ([.long name (some arg)], none)
  | some (name, true), none => ([], some fun a => .long name (some a))
  | _, _ => ([.refused], none)

/-- What a word stands for that is no argument of an option, if it is an option at all. -/
def option : Word → Option (List Item × Pending)
  | '-' :: '-' :: word => some (longOption spec word)
  | '-' :: c :: cs => some (cluster spec (c :: cs))
  | _ => none

/-- The options of some arguments, and the words that are none, which may stand in between. -/
def scan : Pending → List Word → List Item × List Word
  | none, [] => ([], [])
  | some _, [] => ([.refused], [])
  | some item, a :: rest => (item a :: (scan none rest).1, (scan none rest).2)
  | none, a :: rest =>
      if a = dashes then ([], rest)
      else match option spec a with
        | some (items, pending) => (items ++ (scan pending rest).1, (scan pending rest).2)
        | none => ((scan none rest).1, a :: (scan none rest).2)

/-- The arguments in their normal form, if none of the options is refused. -/
def getopt (args : List Word) : Option (List Word) :=
  let scanned := scan spec none args
  if .refused ∈ scanned.1 then none else some (scanned.1.flatMap Item.words ++ dashes :: scanned.2)

def Item.Valid : Item → Prop
  | .short letter arg => spec.takesArgument letter = some arg.isSome
  | .long name arg => '=' ∉ name ∧ name ≠ [] ∧ spec.complete name = some (name, arg.isSome)
  | .refused => False

variable {spec}

section Normal

variable {item : Item} {items : List Item} {rest : List Word}

theorem scan_argument (item : Word → Item) (a : Word) (rest : List Word) :
    scan spec (some item) (a :: rest) = (item a :: (scan spec none rest).1, (scan spec none rest).2) := rfl

theorem letter_ne_dash {c : Char} {b : Bool} (h : spec.takesArgument c = some b) : c ≠ '-' := by
  rintro rfl
  rw [spec.letters] at h
  cases h

theorem scan_short {c : Char} (arg : Option Word) (h : spec.takesArgument c = some arg.isSome) (rest : List Word) :
    scan spec none (['-', c] :: (arg.toList ++ rest)) =
      (.short c arg :: (scan spec none rest).1, (scan spec none rest).2) := by
  have hne := letter_ne_dash h
  have hdashes : (['-', c] : Word) ≠ dashes := by simpa [dashes] using hne
  have hoption : option spec ['-', c] = some (cluster spec [c]) := by
    rw [option]
    exact hne
  rw [scan, if_neg hdashes, hoption]
  cases arg with
  | none =>
      rw [Option.isSome_none] at h
      simp [cluster, h]
  | some a =>
      rw [Option.isSome_some] at h
      simp [cluster, h, scan_argument]

theorem scan_long {name : Word} (arg : Option Word) (h : (Item.long name arg).Valid spec) (rest : List Word) :
    scan spec none ((dashes ++ name) :: (arg.toList ++ rest)) =
      (.long name arg :: (scan spec none rest).1, (scan spec none rest).2) := by
  obtain ⟨hequals, hne, hcomplete⟩ := h
  have hdashes : dashes ++ name ≠ dashes := by simpa using hne
  have hwhole : name.takeWhile (· ≠ '=') = name := by
    rw [List.takeWhile_eq_self_iff]
    intro c hc
    simpa using fun heq : c = '=' => hequals (heq ▸ hc)
  have hnothing : attached name = none := by
    rw [attached, List.dropWhile_eq_nil_iff.mpr]
    intro c hc
    simpa using fun heq : c = '=' => hequals (heq ▸ hc)
  have hoption : option spec (dashes ++ name) = some (longOption spec name) := rfl
  rw [scan, if_neg hdashes, hoption, longOption, hwhole, hnothing, hcomplete]
  cases arg with
  | none => rfl
  | some a => rfl

theorem scan_item (h : item.Valid spec) (rest : List Word) :
    scan spec none (item.words ++ rest) = (item :: (scan spec none rest).1, (scan spec none rest).2) := by
  cases item with
  | short c arg => exact scan_short arg h rest
  | long name arg => exact scan_long arg h rest
  | refused => exact absurd h not_false

theorem scan_words_only (h : ∀ item ∈ items, item.Valid spec) :
    scan spec none (items.flatMap Item.words) = (items, []) := by
  induction items with
  | nil => rfl
  | cons item items ih =>
      rw [List.flatMap_cons, scan_item (h item List.mem_cons_self), ih fun x hx => h x (List.mem_cons_of_mem _ hx)]

end Normal

section Validity

/-- An option that waits for its argument is one of the program with any. -/
def Awaits (spec : Spec) (pending : Pending) : Prop := ∀ item ∈ pending, ∀ a, (item a).Valid spec

theorem awaits_none : Awaits spec none := nofun

def Scanned (spec : Spec) (items : List Item) : Prop := ∀ item ∈ items, item = .refused ∨ item.Valid spec

theorem cluster_valid (word : Word) : Scanned spec (cluster spec word).1 ∧ Awaits spec (cluster spec word).2 := by
  induction word with
  | nil => exact ⟨nofun, nofun⟩
  | cons c cs ih =>
      rw [cluster]
      split
      · refine ⟨fun item hitem => ?_, ih.2⟩
        rcases List.mem_cons.mp hitem with rfl | hitem
        · exact .inl rfl
        · exact ih.1 item hitem
      · rename_i hnone
        refine ⟨fun item hitem => ?_, ih.2⟩
        rcases List.mem_cons.mp hitem with rfl | hitem
        · exact .inr hnone
        · exact ih.1 item hitem
      · rename_i hsome
        split
        · refine ⟨nofun, fun item hitem a => ?_⟩
          cases hitem
          exact hsome
        · refine ⟨fun item hitem => ?_, nofun⟩
          rw [List.mem_singleton.mp hitem]
          exact .inr hsome

theorem longOption_valid (word : Word) :
    Scanned spec (longOption spec word).1 ∧ Awaits spec (longOption spec word).2 := by
  rw [longOption]
  split
  · rename_i name hcomplete _
    refine ⟨fun item hitem => ?_, nofun⟩
    rw [List.mem_singleton.mp hitem]
    exact .inr (spec.names _ _ _ hcomplete)
  · rename_i name arg hcomplete _
    refine ⟨fun item hitem => ?_, nofun⟩
    rw [List.mem_singleton.mp hitem]
    exact .inr (spec.names _ _ _ hcomplete)
  · rename_i name hcomplete _
    refine ⟨nofun, fun item hitem a => ?_⟩
    cases hitem
    exact spec.names _ _ _ hcomplete
  · refine ⟨fun item hitem => ?_, nofun⟩
    rw [List.mem_singleton.mp hitem]
    exact .inl rfl

theorem option_valid {word : Word} {items : List Item} {pending : Pending}
    (h : option spec word = some (items, pending)) : Scanned spec items ∧ Awaits spec pending := by
  rw [option.eq_def] at h
  split at h
  · rename_i name
    have hvalid : Scanned spec (longOption spec name).1 ∧ Awaits spec (longOption spec name).2 := longOption_valid name
    rw [Option.some.inj h] at hvalid
    exact hvalid
  · rename_i c cs _
    have hvalid : Scanned spec (cluster spec (c :: cs)).1 ∧ Awaits spec (cluster spec (c :: cs)).2 := cluster_valid _
    rw [Option.some.inj h] at hvalid
    exact hvalid
  · cases h

theorem scan_valid {pending : Pending} (hpending : Awaits spec pending) (args : List Word) :
    Scanned spec (scan spec pending args).1 := by
  induction args generalizing pending with
  | nil =>
      cases pending with
      | none => exact nofun
      | some item =>
          intro x hx
          exact .inl (List.mem_singleton.mp hx)
  | cons a rest ih =>
      cases pending with
      | some item =>
          rw [scan_argument]
          intro x hx
          rcases List.mem_cons.mp hx with rfl | hx
          · exact .inr (hpending item rfl a)
          · exact ih awaits_none x hx
      | none =>
          rw [scan]
          split
          · exact nofun
          · split
            · rename_i items pending hoption
              obtain ⟨hitems, hpending'⟩ := option_valid hoption
              intro x hx
              rcases List.mem_append.mp hx with hx | hx
              · exact hitems x hx
              · exact ih hpending' x hx
            · exact ih awaits_none

theorem getopt_eq_some {args words : List Word} : getopt spec args = some words ↔
    ∃ items rest, scan spec none args = (items, rest) ∧ (∀ item ∈ items, item.Valid spec) ∧
      words = items.flatMap Item.words ++ dashes :: rest := by
  have hscanned : Scanned spec (scan spec none args).1 := scan_valid awaits_none args
  rw [getopt]
  split
  · rename_i hrefused
    constructor
    · exact nofun
    · rintro ⟨items, rest, hscan, hvalid, -⟩
      rw [hscan] at hrefused
      exact absurd (hvalid _ hrefused) not_false
  · rename_i hrefused
    have hvalid : ∀ item ∈ (scan spec none args).1, item.Valid spec := by
      intro item hitem
      rcases hscanned item hitem with rfl | hitem
      · exact absurd hitem hrefused
      · exact hitem
    rw [Option.some.injEq]
    constructor
    · rintro rfl
      exact ⟨_, _, rfl, hvalid, rfl⟩
    · rintro ⟨items, rest, hscan, -, rfl⟩
      rw [hscan]

end Validity

end DumpCollector.Lib.Getopt
