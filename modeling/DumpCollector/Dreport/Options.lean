import DumpCollector.Dreport.Args
import DumpCollector.Lib.Getopt

namespace DumpCollector.Dreport.Options

open Lib.Words Lib.Getopt Args

structure Settings where
  name : Word
  dump_dir : Word
  dump_id : Word
  dump_type : Word
  dump_size : Word
  optional_path : Word
  plugin_args : List Word
  compression_type : Word
  verbose : Bool
  quiet : Bool
  deriving DecidableEq

def initial : Settings where
  name := []
  dump_dir := "/tmp".toList
  dump_id := "00000000".toList
  dump_type := "user".toList
  dump_size := "unlimited".toList
  optional_path := []
  plugin_args := []
  compression_type := "xz".toList
  verbose := false
  quiet := false

inductive Exit
  | invalidOptions
  | help
  | unknownArgument
  deriving DecidableEq

section Script

def takesArgument (c : Char) : Option Bool :=
  if c ∈ "nditspac".toList then some true else if c ∈ "vVqh".toList then some false else none

def longNames : List (Word × Bool) :=
  [("name".toList, true), ("dir".toList, true), ("dumpid".toList, true), ("type".toList, true), ("size".toList, true),
    ("path".toList, true), ("args".toList, true), ("compression".toList, true), ("verbose".toList, false),
    ("version".toList, false), ("quiet".toList, false), ("help".toList, false)]

/-- How getopt completes the beginning of a long name is up to it. -/
def spec (abbreviated : Word → Option Word) : Spec where
  takesArgument := takesArgument
  complete := completion longNames abbreviated
  letters := by decide
  names := completion_names abbreviated (by decide)

inductive Branch
  | name | dir | dumpid | type | size | path | args | compression | verbose | version | quiet | help
  deriving DecidableEq

/-- Two of the long names are spelt in the script with a dash that is none. -/
def patterns : Branch → List Word
  | .name => ["-n".toList, "--name".toList]
  | .dir => ["-d".toList, "--dir".toList]
  | .dumpid => ["-i".toList, "--dumpid".toList]
  | .type => ["-t".toList, "--type".toList]
  | .size => ["-s".toList, "--size".toList]
  | .path => ["-p".toList, "--path".toList]
  | .args => ["-a".toList, "--args".toList]
  | .compression => ["-c".toList, "--compression".toList]
  | .verbose => ["-v".toList, "—-verbose".toList]
  | .version => ["-V".toList, "--version".toList]
  | .quiet => ["-q".toList, "—-quiet".toList]
  | .help => ["-h".toList, "--help".toList]

def branches : List Branch :=
  [.name, .dir, .dumpid, .type, .size, .path, .args, .compression, .verbose, .version, .quiet, .help]

def branchOf (key : Word) : Option Branch := branches.find? fun branch => key ∈ patterns branch

/-- A branch that takes the second word shifts by two. -/
def Branch.shiftsTwo : Branch → Bool
  | .name | .dir | .dumpid | .type | .size | .path | .args | .compression => true
  | .verbose | .version | .quiet | .help => false

variable (names : Pathnames)

def Branch.set (branch : Branch) (value : Word) (o : Settings) : Except Exit Settings :=
  match branch with
  | .name => .ok { o with name := value }
  | .dir => .ok { o with dump_dir := value }
  | .dumpid => .ok { o with dump_id := value }
  | .type => .ok { o with dump_type := value }
  | .size => .ok { o with dump_size := value }
  | .path => .ok { o with optional_path := value }
  | .args => .ok { o with
      plugin_args := if '=' ∈ value then o.plugin_args ++ [optionValue names value] else o.plugin_args }
  | .compression => .ok { o with compression_type := value }
  | .verbose => .ok { o with verbose := true }
  | .version => .ok o
  | .quiet => .ok { o with quiet := true }
  | .help => .error .help

/-- The loop over the words that getopt has arranged. It stops at the last one. -/
def readWords : List Word → Settings → Except Exit Settings
  | key :: value :: rest, o =>
      match branchOf key with
      | none => .error .unknownArgument
      | some branch => do
          let o ← branch.set names value o
          if branch.shiftsTwo then readWords rest o else readWords (value :: rest) o
  | _, o => .ok o

def options (abbreviated : Word → Option Word) (argv : List Word) : Except Exit Settings :=
  match getopt (spec abbreviated) argv with
  | none => .error .invalidOptions
  | some words => readWords names words initial

end Script

section Items

def key : Item → Word
  | .short letter _ => ['-', letter]
  | .long name _ => dashes ++ name
  | .refused => []

def argument : Item → Word
  | .short _ arg | .long _ arg => arg.getD []
  | .refused => []

def given (branch : Branch) (items : List Item) : List Word :=
  items.filterMap fun item => if branchOf (key item) = some branch then some (argument item) else none

def last (branch : Branch) (items : List Item) (old : Word) : Word := (given branch items).getLast?.getD old

/-- What some options come to: of those of one kind the last one counts, but the additional
arguments are all kept. -/
def settle (names : Pathnames) (items : List Item) (o : Settings) : Settings where
  name := last .name items o.name
  dump_dir := last .dir items o.dump_dir
  dump_id := last .dumpid items o.dump_id
  dump_type := last .type items o.dump_type
  dump_size := last .size items o.dump_size
  optional_path := last .path items o.optional_path
  plugin_args := o.plugin_args ++ pluginArgs names (given .args items)
  compression_type := last .compression items o.compression_type
  verbose := o.verbose || !(given .verbose items).isEmpty
  quiet := o.quiet || !(given .quiet items).isEmpty

def Accepted (item : Item) : Prop := ∃ branch, branchOf (key item) = some branch ∧ branch ≠ .help

variable {names : Pathnames} {item : Item} {items : List Item} {branch branch' : Branch} {o : Settings}

theorem given_cons (h : branchOf (key item) = some branch) (branch' : Branch) : given branch' (item :: items) =
    if branch = branch' then argument item :: given branch' items else given branch' items := by
  by_cases heq : branch = branch'
  · subst heq
    simp [given, h]
  · simp [given, h, heq]

theorem settle_nil (names : Pathnames) (o : Settings) : settle names [] o = o := by
  simp [settle, last, given, pluginArgs]

theorem settle_cons (names : Pathnames) (items : List Item) (o : Settings) (h : branchOf (key item) = some branch)
    (hne : branch ≠ .help) :
    ∃ o', branch.set names (argument item) o = .ok o' ∧ settle names (item :: items) o = settle names items o' := by
  cases branch with
  | help => exact absurd rfl hne
  | name | dir | dumpid | type | size | path | compression | version | verbose | quiet =>
      refine ⟨_, rfl, ?_⟩
      simp [settle, last, given_cons h, List.getLast?_cons]
  | args =>
      refine ⟨_, rfl, ?_⟩
      by_cases hequals : '=' ∈ argument item
      · simp [settle, last, given_cons h, pluginArgs, hequals]
      · simp [settle, last, given_cons h, pluginArgs, hequals]

end Items

section Reading

variable {names : Pathnames} {abbreviated : Word → Option Word} {item : Item} {items : List Item} {branch : Branch}

theorem mem_patterns {word : Word} (h : branchOf word = some branch) : word ∈ patterns branch := by
  simpa using List.find?_some h

theorem shiftsTwo_letter {c : Char} {b : Bool} (hc : takesArgument c = some b) (h : branchOf ['-', c] = some branch) :
    b = branch.shiftsTwo := by
  have hword := mem_patterns h
  cases branch with
  | name | dir | dumpid | type | size | path | args | compression | verbose | version | quiet | help =>
      simp [patterns] at hword
      subst hword
      exact (Option.some.inj hc).symm

theorem shiftsTwo_name {name : Word} {b : Bool} (hname : (name, b) ∈ longNames)
    (h : branchOf (dashes ++ name) = some branch) : b = branch.shiftsTwo := by
  have hword := mem_patterns h
  cases branch with
  | name | dir | dumpid | type | size | path | args | compression | version | help =>
      simp [patterns, dashes] at hword
      subst hword
      simpa [longNames, Branch.shiftsTwo] using hname
  | verbose | quiet => simp [patterns, dashes] at hword

theorem words_eq (hvalid : item.Valid (spec abbreviated)) (h : branchOf (key item) = some branch) :
    item.words = if branch.shiftsTwo then [key item, argument item] else [key item] := by
  cases item with
  | refused => exact absurd hvalid not_false
  | short c arg =>
      rw [← shiftsTwo_letter hvalid h]
      cases arg <;> rfl
  | long name arg =>
      rw [← shiftsTwo_name (mem_of_completion _ hvalid.2.2) h]
      cases arg <;> rfl

theorem set_flag (h : branch.shiftsTwo = false) (v w : Word) (o : Settings) :
    branch.set names v o = branch.set names w o := by
  cases branch with
  | verbose | version | quiet | help => rfl
  | name | dir | dumpid | type | size | path | args | compression => cases h

theorem readWords_item (hvalid : item.Valid (spec abbreviated)) (h : branchOf (key item) = some branch) (v : Word)
    (vs : List Word) (o : Settings) : readWords names (item.words ++ v :: vs) o =
      (branch.set names (argument item) o >>= fun o => readWords names (v :: vs) o) := by
  rw [words_eq hvalid h]
  cases hshifts : branch.shiftsTwo with
  | true =>
      simp only [if_true, List.cons_append, List.nil_append]
      rw [readWords, h]
      simp only [hshifts, if_true]
  | false =>
      simp only [Bool.false_eq_true, if_false, List.cons_append, List.nil_append]
      rw [readWords, h]
      simp only [hshifts, Bool.false_eq_true, if_false, set_flag hshifts v (argument item)]

theorem readWords_unknown {word : Word} (h : branchOf word = none) (v : Word) (vs : List Word) (o : Settings) :
    readWords names (word :: v :: vs) o = .error .unknownArgument := by
  rw [readWords, h]

theorem words_behind (items : List Item) (rest : List Word) :
    ∃ v vs, items.flatMap Item.words ++ dashes :: rest = v :: vs := by
  cases h : items.flatMap Item.words with
  | nil => exact ⟨dashes, rest, rfl⟩
  | cons v vs => exact ⟨v, vs ++ dashes :: rest, rfl⟩

/-- By induction on the options. -/
theorem readWords_accepted (hitems : ∀ item ∈ items, item.Valid (spec abbreviated) ∧ Accepted item) (rest : List Word)
    (o : Settings) : readWords names (items.flatMap Item.words ++ dashes :: rest) o =
      readWords names (dashes :: rest) (settle names items o) := by
  induction items generalizing o with
  | nil =>
      rw [settle_nil]
      rfl
  | cons item items ih =>
      obtain ⟨hvalid, branch, hbranch, hne⟩ := hitems item List.mem_cons_self
      obtain ⟨o', hset, hsettle⟩ := settle_cons names items o hbranch hne
      obtain ⟨v, vs, hwords⟩ := words_behind items rest
      rw [List.flatMap_cons, List.append_assoc, hwords, readWords_item hvalid hbranch, hset, hsettle,
        ← ih (fun x hx => hitems x (List.mem_cons_of_mem _ hx)), ← hwords]
      rfl

theorem readWords_not_accepted (names : Pathnames) (hitems : ∀ item ∈ items, item.Valid (spec abbreviated))
    (hno : ∃ item ∈ items, ¬ Accepted item) (rest : List Word) (o : Settings) :
    ∃ e, readWords names (items.flatMap Item.words ++ dashes :: rest) o = .error e := by
  induction items generalizing o with
  | nil =>
      obtain ⟨item, hitem, -⟩ := hno
      cases hitem
  | cons item items ih =>
      obtain ⟨v, vs, hwords⟩ := words_behind items rest
      rw [List.flatMap_cons, List.append_assoc, hwords]
      cases hbranch : branchOf (key item) with
      | none =>
          have hword : ∃ more, item.words = key item :: more := by
            cases item with
            | short c arg => exact ⟨_, rfl⟩
            | long name arg => exact ⟨_, rfl⟩
            | refused => exact absurd (hitems _ List.mem_cons_self) not_false
          obtain ⟨more, hmore⟩ := hword
          refine ⟨.unknownArgument, ?_⟩
          rw [hmore]
          cases more with
          | nil => exact readWords_unknown hbranch v vs o
          | cons w ws => exact readWords_unknown hbranch w _ o
      | some branch =>
          rw [readWords_item (hitems item List.mem_cons_self) hbranch]
          by_cases hne : branch = .help
          · subst hne
            exact ⟨.help, rfl⟩
          · obtain ⟨o', hset, -⟩ := settle_cons names items o hbranch hne
            rw [hset, ← hwords]
            obtain ⟨x, hx, hxno⟩ := hno
            rcases List.mem_cons.mp hx with rfl | hx
            · exact absurd ⟨branch, hbranch, hne⟩ hxno
            · exact ih (fun y hy => hitems y (List.mem_cons_of_mem _ hy)) ⟨x, hx, hxno⟩ o'

theorem readWords_rest (rest : List Word) (o o' : Settings) :
    readWords names (dashes :: rest) o = .ok o' ↔ rest = [] ∧ o' = o := by
  cases rest with
  | nil =>
      rw [readWords]
      · simp [eq_comm]
      · exact nofun
  | cons r rs =>
      rw [readWords_unknown (by decide)]
      simp

/-- The main function is reached with the options that the arguments stand for, by themselves or
together, and in no other case: the last of a kind counts, except that the additional
arguments add up. -/
theorem options_eq_ok (names : Pathnames) (abbreviated : Word → Option Word) (argv : List Word) (o : Settings) :
    options names abbreviated argv = .ok o ↔ ∃ items, scan (spec abbreviated) none argv = (items, []) ∧
      (∀ item ∈ items, item.Valid (spec abbreviated) ∧ Accepted item) ∧ o = settle names items initial := by
  rw [options]
  cases hgetopt : getopt (spec abbreviated) argv with
  | none =>
      refine ⟨nofun, ?_⟩
      rintro ⟨items, hscan, hitems, -⟩
      have hsome := getopt_eq_some.mpr ⟨items, [], hscan, fun item hitem => (hitems item hitem).1, rfl⟩
      cases hgetopt.symm.trans hsome
  | some words =>
      obtain ⟨items, rest, hscan, hvalid, rfl⟩ := getopt_eq_some.mp hgetopt
      dsimp only
      by_cases haccepted : ∀ item ∈ items, Accepted item
      · rw [readWords_accepted (fun item hitem => ⟨hvalid item hitem, haccepted item hitem⟩), readWords_rest]
        constructor
        · rintro ⟨rfl, rfl⟩
          exact ⟨items, hscan, fun item hitem => ⟨hvalid item hitem, haccepted item hitem⟩, rfl⟩
        · rintro ⟨items', hscan', -, rfl⟩
          obtain ⟨rfl, rfl⟩ := Prod.mk.inj (hscan.symm.trans hscan')
          exact ⟨rfl, rfl⟩
      · simp only [not_forall] at haccepted
        obtain ⟨item, hitem, hno⟩ := haccepted
        obtain ⟨e, he⟩ := readWords_not_accepted names hvalid ⟨item, hitem, hno⟩ rest initial
        rw [he]
        refine ⟨nofun, ?_⟩
        rintro ⟨items', hscan', hitems, -⟩
        obtain ⟨rfl, -⟩ := Prod.mk.inj (hscan.symm.trans hscan')
        exact absurd (hitems item hitem).2 hno

/-- The words of options that have a branch are read back, whatever their arguments look like. -/
theorem options_words (hitems : ∀ item ∈ items, item.Valid (spec abbreviated) ∧ Accepted item) :
    options names abbreviated (items.flatMap Item.words) = .ok (settle names items initial) := by
  have hvalid : ∀ item ∈ items, item.Valid (spec abbreviated) := fun item hitem => (hitems item hitem).1
  have hgetopt := getopt_eq_some.mpr ⟨items, [], scan_words_only hvalid, hvalid, rfl⟩
  rw [options, hgetopt]
  dsimp only
  rw [readWords_accepted hitems]
  exact (readWords_rest [] _ _).mpr ⟨rfl, rfl⟩

end Reading

section Letters

def Branch.letter : Branch → Char
  | .name => 'n'
  | .dir => 'd'
  | .dumpid => 'i'
  | .type => 't'
  | .size => 's'
  | .path => 'p'
  | .args => 'a'
  | .compression => 'c'
  | .verbose => 'v'
  | .version => 'V'
  | .quiet => 'q'
  | .help => 'h'

def Branch.item (branch : Branch) (value : Word) : Item :=
  .short branch.letter (if branch.shiftsTwo then some value else none)

variable (branch : Branch) (value : Word)

theorem branchOf_letter : branchOf ['-', branch.letter] = some branch := by
  cases branch <;> decide

theorem item_valid (abbreviated : Word → Option Word) : (branch.item value).Valid (spec abbreviated) := by
  cases branch <;> rfl

theorem argument_item : argument (branch.item value) = if branch.shiftsTwo then value else [] := by
  cases branch <;> rfl

theorem given_items (xs : List (Branch × Word)) : given branch (xs.map fun x => x.1.item x.2) =
    (xs.filter (·.1 = branch)).map fun x => if branch.shiftsTwo then x.2 else [] := by
  induction xs with
  | nil => rfl
  | cons x xs ih =>
      have hbranch : branchOf (key (x.1.item x.2)) = some x.1 := branchOf_letter x.1
      rw [List.map_cons, given_cons hbranch, ih]
      by_cases hx : x.1 = branch
      · rw [if_pos hx, List.filter_cons_of_pos (by simpa using hx), List.map_cons, ← hx, argument_item]
      · rw [if_neg hx, List.filter_cons_of_neg (by simpa using hx)]

variable {branch}

theorem item_accepted (h : branch ≠ .help) : Accepted (branch.item value) := ⟨branch, branchOf_letter branch, h⟩

end Letters

end DumpCollector.Dreport.Options
