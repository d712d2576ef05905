import DumpCollector.Dreport.Plugins
import DumpCollector.Lib.Runs
import DumpCollector.Lib.Words

namespace DumpCollector.Dreport.Package

open Std Lib.Maps Lib.Runs Lib.Words Plugins

def TMP_DIR : String := "/tmp"

structure Config where
  optional_path : Word
  names : Pathnames
  others : Word → Option Item
  vars : Variables
  compression_type : String
  dump_dir : String
  headerExtension : Bool

/-- How cp goes with the archive, which does not depend on what mkdir has come to: it copies into
the dump directory, if there is one by then, or to a file in its place. What can be read from the
file that it leaves in the directory when it fails is in truncated. -/
inductive Copying
  | intoDirectory
  | inPlace
  | fails (truncated : Option NameDir)

/-- The outcomes of the commands that package runs, the length of the message about a failing
mkdir, and what can be read from the file that a failing tar or zstd leaves. -/
structure Commands where
  mkdir : Bool
  line : Nat
  tar : Bool
  zstd : Bool
  broken : Option NameDir
  mv : Bool
  cp : Copying

inductive Stage
  | starting
  | collecting (c : Collection)
  | ended

/-- The core file at its original path, and the archives in the temporary directory, in the dump
directory and in its place. -/
structure Session where
  stage : Stage
  original : Option Content
  tmp : List NameDir
  dumpDir : List NameDir
  inPlace : List NameDir

inductive Event
  | initializes (mkdir : Bool) (log : Nat)
  | plugin (e : Plugins.Event) (archive : Compressor)
  | corefile (left : Option (List (String × Item))) (archive : Compressor) (line : Nat)
  | package (commands : Commands)

def basename (p : Word) : String := .ofList ((p.reverse.dropWhile (· = '/')).takeWhile (· ≠ '/')).reverse

variable (cfg : Config)

def fileAt (original : Option Content) (w : Word) : Option Item :=
  if w = cfg.optional_path then original.map .file else cfg.others w

/-- The path is not quoted where it is copied: cp is given the words it expands to. -/
def copied (original : Option Content) : Option (List (String × Item)) :=
  (expand cfg.names cfg.optional_path).mapM fun w => (fileAt cfg original w).map fun item => (basename w, item)

/-- The plugin removes the file from its path when the copy is accepted. A copy that fails
leaves some of what it was to copy; one that succeeds needs all files to be there. -/
def corefile (left : Option (List (String × Item))) (archive : Compressor) (line : Nat) (s : Session)
    (c : Collection) : Option Session :=
  if expand cfg.names cfg.optional_path = [] then some { s with stage := .collecting (logError line c) }
  else match left with
    | some left =>
        let r := addCopyFile (basename cfg.optional_path) cfg.vars archive line c left false
        some { s with stage := .collecting r.1 }
    | none =>
        (copied cfg s.original).map fun files =>
          let r := addCopyFile (basename cfg.optional_path) cfg.vars archive line c files true
          { s with stage := .collecting r.1, original := if r.2 then none else s.original }

def isXz : Bool := cfg.compression_type = "xz"

def inTmp : Bool := TMP_DIR = cfg.dump_dir || TMP_DIR ++ "/" = cfg.dump_dir

def archived (commands : Commands) (items : NameDir) : Option NameDir :=
  if commands.tar && (isXz cfg || commands.zstd) then some items else commands.broken

def status (commands : Commands) : Bool :=
  if cfg.headerExtension then commands.mv else if isXz cfg then commands.tar else commands.zstd

/-- With a header the archive is copied behind it in another file of the temporary directory,
which then replaces it. A failing mkdir is only logged: the variable that is set then is not used. -/
def package (commands : Commands) (s : Session) (c : Collection) : Session :=
  let c := if commands.mkdir then c else logError commands.line c
  let archive := (archived cfg commands c.items).toList
  if status cfg commands = false then
    { s with stage := .ended, tmp := if cfg.headerExtension then archive ++ archive else archive }
  else if inTmp cfg then { s with stage := .ended, tmp := archive }
  else match commands.cp with
    | .intoDirectory => { s with stage := .ended, dumpDir := archive }
    | .inPlace => { s with stage := .ended, inPlace := archive }
    | .fails truncated => { s with stage := .ended, dumpDir := truncated.toList }

def step (s : Session) : Event → Option Session
  | .initializes mkdir log =>
      match s.stage with
      | .starting => some { s with stage := if mkdir then .collecting ⟨∅, log, 0⟩ else .ended }
      | _ => none
  | .plugin e archive =>
      match s.stage with
      | .collecting c => (Plugins.step cfg.vars archive c e).map fun c => { s with stage := .collecting c }
      | _ => none
  | .corefile left archive line =>
      match s.stage with
      | .collecting c => corefile cfg left archive line s { c with cur_dump_size := 0 }
      | _ => none
  | .package commands =>
      match s.stage with
      | .collecting c => some (package cfg commands s c)
      | _ => none

def started (core : Content) : Session := ⟨.starting, some core, [], [], []⟩

section Preserved

variable (core : Content)

def Holds (items : NameDir) : Prop := ∃ name : String, items[name]? = some (.file core)

def Preserved (s : Session) : Prop :=
  s.original = some core ∨ (∃ c, s.stage = .collecting c ∧ Holds core c.items) ∨
    ∃ items ∈ s.tmp ++ s.dumpDir, Holds core items

/-- The archive is complete, or what is left of it still holds the core file, and it is kept
where it is or copied into the dump directory. -/
def Delivered (commands : Commands) : Prop :=
  ((commands.tar && (isXz cfg || commands.zstd)) = true ∨ ∃ items ∈ commands.broken, Holds core items) ∧
      (status cfg commands = false ∨ inTmp cfg = true ∨ commands.cp = .intoDirectory) ∨
    (status cfg commands = true ∧ inTmp cfg = false ∧
      ∃ items, commands.cp = .fails (some items) ∧ Holds core items)

section Collected

variable (archive : Compressor) (c : Collection) (name : String) (copied : List (String × Item))

/-- The check of a copy spares the file with the core's content: it is not the file that is checked,
unless that is within the limit, and not one in the way of the tar file of a directory. -/
def Spared (file : String) : Prop :=
  ∀ d, cfg.vars.dump_size = some d →
    (file = name → core.length + c.cur_dump_size ≤ d ∨ archive (copyAll c.items copied) c.log ≤ d) ∧
    (name ++ ".tar" = file → (laid c.items copied name).any Item.isDirectory = false)

/-- The core's content lies in a file that is not overwritten, or is copied anew, and is spared. -/
def Survives : Prop := ∃ file, laid c.items copied file = some (.file core) ∧ Spared cfg core archive c name copied file

def Refused : Prop :=
  ∃ d, cfg.vars.dump_size = some d ∧
    d < ((laid c.items copied name).map Item.size).getD 0 + c.cur_dump_size ∧
    d < archive (measured (copyAll c.items copied) name) c.log

end Collected

/-- What a plugin adds, overwrites or removes leaves a file with the core's content. -/
def Leaves (archive : Compressor) (c : Collection) : Plugins.Event → Prop
  | .plugin => True
  | .addCmdOutput name none _ => ∃ file ≠ name, c.items[file]? = some (.file core)
  | .addCmdOutput name (some output) _ =>
      c.items[name]?.any Item.isDirectory = true ∨
        Survives cfg core archive c name [(name, .file (contentOf c.items name ++ output))]
  | .addCopyFile name copied true _ => Survives cfg core archive c name copied
  | .addCopyFile _ copied false _ => ∃ file, laid c.items copied file = some (.file core)

/-- As long as the core file is at its path nothing is asked of other plugins, and of the plugin
corefile that its path is one word and no pattern, or what is copied in its place holds the content.
After that each plugin leaves the content in some file, and package delivers it. -/
def Kept (s : Session) : Event → Prop
  | .initializes _ _ => True
  | .plugin e archive => s.original = some core ∨ ∀ c, s.stage = .collecting c → Leaves cfg core archive c e
  | .corefile none archive _ => expand cfg.names cfg.optional_path = [] ∨
      expand cfg.names cfg.optional_path = [cfg.optional_path] ∨
      ∀ c files, s.stage = .collecting c → copied cfg s.original = some files →
        Survives cfg core archive { c with cur_dump_size := 0 } (basename cfg.optional_path) files ∨
          s.original = some core ∧
            Refused cfg archive { c with cur_dump_size := 0 } (basename cfg.optional_path) files
  | .corefile (some left) _ _ => expand cfg.names cfg.optional_path = [] ∨ s.original = some core ∨
      ∀ c, s.stage = .collecting c → ∃ file, laid c.items left file = some (.file core)
  | .package commands => s.original = some core ∨ Delivered cfg core commands

end Preserved

section Steps

variable {cfg} {core : Content} {s t : Session}

/-- The core file is at its path or has been removed from there, and there is no archive
until the end. -/
structure Coherent (core : Content) (s : Session) : Prop where
  original : s.original = some core ∨ s.original = none
  archives : s.stage ≠ .ended → s.tmp = [] ∧ s.dumpDir = []

theorem preserved_collecting {c : Collection} (hstage : s.stage = .collecting c) (htmp : s.tmp = [])
    (hdump : s.dumpDir = []) : Preserved core s ↔ s.original = some core ∨ Holds core c.items := by
  rw [Preserved, htmp, hdump]
  simp [hstage]

theorem preserved_ended (hstage : s.stage = .ended) :
    Preserved core s ↔ s.original = some core ∨ ∃ items ∈ s.tmp ++ s.dumpDir, Holds core items := by
  rw [Preserved]
  simp [hstage]

/-- What the plugin does: nothing without a path, a copy that fails, or one that succeeds. -/
inductive CorefileOutcome (cfg : Config) (archive : Compressor) (s : Session) (c : Collection) :
    Option (List (String × Item)) → Session → Prop
  | skipped (left : Option (List (String × Item))) (line : Nat) (h : expand cfg.names cfg.optional_path = []) :
      CorefileOutcome cfg archive s c left { s with stage := .collecting (logError line c) }
  | failed (left : List (String × Item)) (line : Nat) (h : expand cfg.names cfg.optional_path ≠ []) :
      CorefileOutcome cfg archive s c (some left)
        { s with stage := .collecting (logError line { c with items := copyAll c.items left }) }
  | succeeded (files : List (String × Item)) (line : Nat) (h : expand cfg.names cfg.optional_path ≠ [])
      (hfiles : copied cfg s.original = some files) (r : Collection × Bool)
      (hr : checkSize (basename cfg.optional_path) cfg.vars archive { c with items := copyAll c.items files } = r) :
      CorefileOutcome cfg archive s c none
        { s with stage := .collecting (logVerbose cfg.vars line r.1), original := if r.2 then none else s.original }

theorem corefile_outcome {left : Option (List (String × Item))} {archive : Compressor} {line : Nat} {c : Collection}
    (h : corefile cfg left archive line s c = some t) : CorefileOutcome cfg archive s c left t := by
  unfold corefile at h
  split at h
  · rename_i hwords
    cases h
    exact .skipped left line hwords
  · rename_i hwords
    cases left with
    | some left =>
        cases h
        exact .failed left line hwords
    | none =>
        obtain ⟨files, hfiles, rfl⟩ := Option.map_eq_some_iff.mp h
        exact .succeeded files line hwords hfiles _ rfl

/-- A step takes the session from the start to the collection, goes on with the collection
or ends it. -/
inductive Outcome (cfg : Config) (s : Session) : Event → Session → Prop
  | initialized (mkdir : Bool) (log : Nat) (h : s.stage = .starting) :
      Outcome cfg s (.initializes mkdir log) { s with stage := if mkdir then .collecting ⟨∅, log, 0⟩ else .ended }
  | collected (c c' : Collection) (e : Plugins.Event) (archive : Compressor) (h : s.stage = .collecting c)
      (hstep : Plugins.step cfg.vars archive c e = some c') :
      Outcome cfg s (.plugin e archive) { s with stage := .collecting c' }
  | copied (c : Collection) (left : Option (List (String × Item))) (archive : Compressor) (line : Nat) (t : Session)
      (h : s.stage = .collecting c) (hcopy : CorefileOutcome cfg archive s { c with cur_dump_size := 0 } left t) :
      Outcome cfg s (.corefile left archive line) t
  | packaged (c : Collection) (commands : Commands) (h : s.stage = .collecting c) :
      Outcome cfg s (.package commands) (package cfg commands s c)

theorem step_outcome {e : Event} (h : step cfg s e = some t) : Outcome cfg s e t := by
  cases hstage : s.stage with
  | starting =>
      cases e with
      | initializes mkdir log =>
          rw [step, hstage] at h
          cases h
          exact .initialized mkdir log hstage
      | plugin _ _ | corefile _ _ _ | package _ => rw [step, hstage] at h; cases h
  | collecting c =>
      cases e with
      | initializes _ _ => rw [step, hstage] at h; cases h
      | plugin e archive =>
          rw [step, hstage] at h
          obtain ⟨c', hc', rfl⟩ := Option.map_eq_some_iff.mp h
          exact .collected c c' e archive hstage hc'
      | corefile left archive line =>
          rw [step, hstage] at h
          exact .copied c left archive line t hstage (corefile_outcome h)
      | package commands =>
          rw [step, hstage] at h
          cases h
          exact .packaged c commands hstage
  | ended => cases e <;> rw [step, hstage] at h <;> cases h

theorem package_original (cfg : Config) (s : Session) (commands : Commands) (c : Collection) :
    (package cfg commands s c).original = s.original ∧ (package cfg commands s c).stage = .ended := by
  simp only [package]
  cases commands.cp <;> split_ifs <;> exact ⟨rfl, rfl⟩

theorem step_coherent (s : Session) (e : Event) (t : Session) (hs : Coherent core s) (h : step cfg s e = some t) :
    Coherent core t := by
  cases step_outcome h with
  | initialized mkdir log hstage => exact ⟨hs.original, fun _ => hs.archives (by simp [hstage])⟩
  | collected c c' e archive hstage _ => exact ⟨hs.original, fun _ => hs.archives (by simp [hstage])⟩
  | copied c left archive line t hstage hcopy =>
      have harchives := hs.archives (by simp [hstage])
      cases hcopy with
      | skipped _ _ _ => exact ⟨hs.original, fun _ => harchives⟩
      | failed _ _ _ => exact ⟨hs.original, fun _ => harchives⟩
      | succeeded _ _ _ _ _ _ =>
          refine ⟨?_, fun _ => harchives⟩
          dsimp only
          split
          · exact .inr rfl
          · exact hs.original
  | packaged c commands _ =>
      obtain ⟨horiginal, hended⟩ := package_original cfg s commands c
      exact ⟨horiginal ▸ hs.original, fun hne => absurd hended hne⟩

theorem archived_holds (cfg : Config) (commands : Commands) {items : NameDir} (h : Holds core items) :
    (∃ a ∈ (archived cfg commands items).toList, Holds core a) ↔
      (commands.tar && (isXz cfg || commands.zstd)) = true ∨ ∃ a ∈ commands.broken, Holds core a := by
  rw [archived]
  cases hwhole : commands.tar && (isXz cfg || commands.zstd) with
  | true => simp [h]
  | false => simp

theorem package_preserved {c : Collection} {commands : Commands} (hs : Coherent core s)
    (hstage : s.stage = .collecting c) (hP : Preserved core s) :
    Preserved core (package cfg commands s c) ↔ s.original = some core ∨ Delivered cfg core commands := by
  obtain ⟨htmp, hdump⟩ := hs.archives (by simp [hstage])
  obtain ⟨horiginal, hended⟩ := package_original cfg s commands c
  rw [preserved_ended hended, horiginal]
  rcases (preserved_collecting hstage htmp hdump).mp hP with hcore | hholds
  · exact iff_of_true (.inl hcore) (.inl hcore)
  · apply or_congr_right
    have hlogged : (if commands.mkdir then c else logError commands.line c).items = c.items := by split <;> rfl
    have harchived := archived_holds cfg commands hholds
    rw [Delivered, ← harchived]
    clear harchived
    simp only [package, htmp, hdump, hlogged]
    cases hstatus : status cfg commands with
    | false => cases cfg.headerExtension <;> simp
    | true =>
        cases htmp' : inTmp cfg with
        | true => simp
        | false =>
            cases commands.cp with
            | intoDirectory => simp
            | inPlace => simp
            | fails truncated => cases truncated <;> simp

section Check

variable {archive : Compressor} {c : Collection} {name : String} {copied : List (String × Item)}

theorem measured_copied (items : NameDir) (copied : List (String × Item)) (name file : String) :
    (measured (copyAll items copied) name)[file]? =
      if (laid items copied name).any Item.isDirectory = true ∧ name ++ ".tar" = file then none
      else laid items copied file := by
  rw [measured_get, copyAll_get, copyAll_get]

theorem measured_holds (file : String) :
    (measured (copyAll c.items copied) name)[file]? = some (.file core) ↔
      laid c.items copied file = some (.file core) ∧
        (name ++ ".tar" = file → (laid c.items copied name).any Item.isDirectory = false) := by
  rw [measured_copied]
  cases (laid c.items copied name).any Item.isDirectory with
  | false => simp
  | true => by_cases hfile : name ++ ".tar" = file <;> simp [hfile]

theorem rm_holds (items : NameDir) (name file : String) :
    (rm items name)[file]? = some (.file core) ↔ items[file]? = some (.file core) ∧ file ≠ name := by
  rw [rm_get]
  by_cases hname : file = name
  · subst hname
    cases hitem : items[file]? with
    | none => simp
    | some item => cases item <;> simp [Item.isDirectory]
  · simp [hname, Ne.symm hname]

/-- The check of the file with the core's content measures its length, and nothing is packed
beside it. -/
theorem checked_core (hfile : laid c.items copied name = some (.file core)) :
    measured (copyAll c.items copied) name = copyAll c.items copied ∧
      sourceSize (copyAll c.items copied) name = core.length := by
  have hitem : (copyAll c.items copied)[name]? = some (.file core) := (copyAll_get _ _ _).trans hfile
  refine ⟨measured_file ?_, ?_⟩
  · rw [hitem]
    rfl
  · rw [sourceSize, hitem]

theorem measured_size (items : NameDir) (copied : List (String × Item)) (name : String) :
    sourceSize (measured (copyAll items copied) name) name = ((laid items copied name).map Item.size).getD 0 := by
  rw [sourceSize_eq, measured_item, copyAll_get]

theorem checkSize_holds (cfg : Config) (core : Content) (archive : Compressor) (c : Collection) (name : String)
    (copied : List (String × Item)) :
    Holds core (checkSize name cfg.vars archive { c with items := copyAll c.items copied }).1.items ↔
      Survives cfg core archive c name copied := by
  refine exists_congr fun file => ?_
  rw [Spared]
  cases hlimit : cfg.vars.dump_size with
  | none =>
      rw [checkSize_unlimited _ _ _ hlimit, copyAll_get]
      simp
  | some d =>
      have hchecked := checkSize_checked name archive { c with items := copyAll c.items copied } hlimit
      generalize checkSize name cfg.vars archive { c with items := copyAll c.items copied } = r at hchecked
      simp only [Option.some.injEq, forall_eq']
      cases hchecked with
      | counted h _ =>
          refine (measured_holds file).trans (and_congr_right fun hfile => (and_iff_right ?_).symm)
          rintro rfl
          obtain ⟨hmeasured, hsize⟩ := checked_core hfile
          exact .inl (by rwa [hmeasured, hsize] at h)
      | compressed h hsmall _ =>
          refine (measured_holds file).trans (and_congr_right fun hfile => (and_iff_right ?_).symm)
          rintro rfl
          exact .inr (by rwa [(checked_core hfile).1] at hsmall)
      | refused h hlarge =>
          refine (rm_holds _ name file).trans ?_
          rw [measured_holds, and_assoc]
          refine and_congr_right fun hfile => and_comm.trans (and_congr_left fun _ => ?_)
          constructor
          · exact fun hne hname => absurd hname hne
          · rintro hfits rfl
            obtain ⟨hmeasured, hsize⟩ := checked_core hfile
            rw [hmeasured, hsize] at h
            rw [hmeasured] at hlarge
            exact (hfits rfl).elim (Nat.not_le.mpr h) (Nat.not_le.mpr hlarge)

theorem checkSize_refused_iff (cfg : Config) (archive : Compressor) (c : Collection) (name : String)
    (copied : List (String × Item)) :
    (checkSize name cfg.vars archive { c with items := copyAll c.items copied }).2 = false ↔
      Refused cfg archive c name copied := by
  rw [Refused]
  cases hlimit : cfg.vars.dump_size with
  | none =>
      rw [checkSize_unlimited _ _ _ hlimit]
      simp
  | some d =>
      have hchecked := checkSize_checked name archive { c with items := copyAll c.items copied } hlimit
      generalize checkSize name cfg.vars archive { c with items := copyAll c.items copied } = r at hchecked
      simp only [Option.some.injEq, exists_eq_left']
      cases hchecked with
      | counted h _ =>
          rw [measured_size] at h
          exact iff_of_false nofun fun hrefused => Nat.not_le.mpr hrefused.1 h
      | compressed _ hsmall _ => exact iff_of_false nofun fun hrefused => Nat.not_le.mpr hrefused.2 hsmall
      | refused h hlarge =>
          rw [measured_size] at h
          exact iff_of_true rfl ⟨h, hlarge⟩

/-- A path that is one word and no pattern is copied itself, and the copy is let through
with the file or the file stays. -/
theorem survives_of_word {files : List (String × Item)} (hs : Coherent core s)
    (hword : expand cfg.names cfg.optional_path = [cfg.optional_path])
    (hfiles : Package.copied cfg s.original = some files) :
    Survives cfg core archive c (basename cfg.optional_path) files ∨
      s.original = some core ∧ Refused cfg archive c (basename cfg.optional_path) files := by
  rcases hs.original with hcore | hnone
  · have hfile : fileAt cfg s.original cfg.optional_path = some (.file core) := by
      rw [fileAt, if_pos rfl, hcore]
      rfl
    have hone : Package.copied cfg s.original = some [(basename cfg.optional_path, .file core)] := by
      rw [Package.copied, hword, List.mapM_cons, hfile]
      rfl
    obtain rfl := Option.some.inj (hone.symm.trans hfiles)
    have hlaid : laid c.items [(basename cfg.optional_path, .file core)] (basename cfg.optional_path) =
        some (.file core) := by rw [laid_single, if_pos rfl]
    have hmeasured := (checked_core hlaid).1
    by_cases hrefused : Refused cfg archive c (basename cfg.optional_path) [(basename cfg.optional_path, .file core)]
    · exact .inr ⟨hcore, hrefused⟩
    · refine .inl ⟨_, hlaid, fun d hlimit => ⟨fun _ => ?_, fun hname => absurd hname (tar_ne _)⟩⟩
      by_contra hlarge
      push Not at hlarge
      refine hrefused ⟨d, hlimit, ?_, hmeasured.symm ▸ hlarge.2⟩
      rw [hlaid]
      exact hlarge.1
  · have hfile : fileAt cfg s.original cfg.optional_path = none := by
      rw [fileAt, if_pos rfl, hnone]
      rfl
    rw [Package.copied, hword, List.mapM_cons, hfile] at hfiles
    cases hfiles

theorem preserved_copied {left : Option (List (String × Item))} {line : Nat} (hs : Coherent core s)
    (hP : Preserved core s) (hstage : s.stage = .collecting c)
    (hcopy : CorefileOutcome cfg archive s { c with cur_dump_size := 0 } left t) :
    Preserved core t ↔ Kept cfg core s (.corefile left archive line) := by
  obtain ⟨htmp, hdump⟩ := hs.archives (by simp [hstage])
  have hbefore := (preserved_collecting hstage htmp hdump).mp hP
  cases hcopy with
  | skipped _ _ hwords =>
      refine Iff.trans (preserved_collecting rfl htmp hdump) (iff_of_true hbefore ?_)
      cases left with
      | none => exact .inl hwords
      | some left => exact .inl hwords
  | failed left _ hwords =>
      refine Iff.trans (preserved_collecting rfl htmp hdump) ?_
      rw [Kept, or_iff_right hwords]
      refine or_congr_right ⟨fun ⟨file, hfile⟩ d hd => ?_, fun hall => ?_⟩
      · cases hstage.symm.trans hd
        exact ⟨file, (copyAll_get _ _ _).symm.trans hfile⟩
      · obtain ⟨file, hfile⟩ := hall c hstage
        exact ⟨file, (copyAll_get _ _ _).trans hfile⟩
  | succeeded files _ hwords hfiles r hr =>
      have hmoved : ((if r.2 then none else s.original) = some core ∨ Holds core r.1.items) ↔
          Survives cfg core archive { c with cur_dump_size := 0 } (basename cfg.optional_path) files ∨
            s.original = some core ∧
              Refused cfg archive { c with cur_dump_size := 0 } (basename cfg.optional_path) files := by
        rw [← checkSize_holds, ← checkSize_refused_iff, hr, or_comm]
        apply or_congr_right
        cases r.2 <;> simp
      refine Iff.trans (preserved_collecting rfl htmp hdump) (Iff.trans hmoved ?_)
      rw [Kept, or_iff_right hwords]
      constructor
      · intro h
        refine .inr fun d files' hd hfiles' => ?_
        cases hstage.symm.trans hd
        cases hfiles.symm.trans hfiles'
        exact h
      · rintro (hword | hall)
        · exact survives_of_word hs hword hfiles
        · exact hall c files hstage hfiles

theorem leaves_iff {c' : Collection} {e : Plugins.Event} (hholds : Holds core c.items)
    (h : Plugins.step cfg.vars archive c e = some c') : Holds core c'.items ↔ Leaves cfg core archive c e := by
  cases e with
  | plugin =>
      cases h
      exact iff_of_true hholds trivial
  | addCmdOutput name output line =>
      cases h
      cases output with
      | none =>
          refine exists_congr fun file => ?_
          exact (rm_holds c.items name file).trans and_comm
      | some output =>
          rw [addCmdOutput, Leaves]
          by_cases hdirectory : c.items[name]?.any Item.isDirectory = true
          · rw [if_pos hdirectory]
            exact iff_of_true hholds (.inl hdirectory)
          · rw [if_neg hdirectory, or_iff_right hdirectory, ← checkSize_holds, append_copied hdirectory,
              logVerbose_items]
  | addCopyFile name copied succeeds line =>
      cases h
      cases succeeds with
      | true => exact checkSize_holds cfg core archive c name copied
      | false => exact exists_congr fun file => by rw [← copyAll_get]; rfl

end Check

theorem step_preserved {e : Event} (hs : Coherent core s) (hP : Preserved core s) (h : step cfg s e = some t) :
    Preserved core t ↔ Kept cfg core s e := by
  cases step_outcome h with
  | initialized mkdir log hstage =>
      refine iff_of_true ?_ trivial
      have hcore : s.original = some core := by
        obtain ⟨htmp, hdump⟩ := hs.archives (by simp [hstage])
        simpa [Preserved, hstage, htmp, hdump] using hP
      exact .inl hcore
  | collected c c' e archive hstage hstep =>
      obtain ⟨htmp, hdump⟩ := hs.archives (by simp [hstage])
      refine Iff.trans (preserved_collecting rfl htmp hdump) ?_
      rcases (preserved_collecting hstage htmp hdump).mp hP with hcore | hholds
      · exact iff_of_true (.inl hcore) (.inl hcore)
      · refine or_congr_right ((leaves_iff hholds hstep).trans ⟨fun hleaves d hd => ?_, fun hall => hall c hstage⟩)
        cases hstage.symm.trans hd
        exact hleaves
  | copied c left archive line t hstage hcopy => exact preserved_copied hs hP hstage hcopy
  | packaged c commands hstage => exact package_preserved hs hstage hP

end Steps

section Failures

private def coreSession : Config where
  optional_path := "/var/lib/systemd/coredump/core.bmcweb.0".toList
  names := .none
  others _ := none
  vars := ⟨false, none⟩
  compression_type := "xz"
  dump_dir := "/var/lib/phosphor-debug-collector/dumps/1"
  headerExtension := false

private def collectedCore : List Event :=
  [.initializes true 0, .corefile none (fun _ _ => 0) 0]

private def allSucceed : Commands := ⟨true, 0, true, true, none, true, .intoDirectory⟩

end Failures

end DumpCollector.Dreport.Package
