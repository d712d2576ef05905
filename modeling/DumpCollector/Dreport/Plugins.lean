import DumpCollector.Lib.Maps

namespace DumpCollector.Dreport.Plugins

open Std Lib.Maps

abbrev Content := List UInt8

/-- What lies in the directory of collected data: a file, or a directory, with the bytes of
the files below it and those of a tar file of it. -/
inductive Item
  | file (content : Content)
  | directory (raw tar : Nat)

abbrev NameDir := ExtTreeMap String Item

/-- The directory of collected data, the bytes of the two logs in it, and the variable in
which a plugin counts what it has added. -/
structure Collection where
  items : NameDir
  log : Nat
  cur_dump_size : Nat

/-- The variables that the plugins are started with; no limit stands for "unlimited". -/
structure Variables where
  verbose : Bool
  dump_size : Option Nat

abbrev Compressor := NameDir → Nat → Nat

def Item.raw : Item → Nat
  | .file content => content.length
  | .directory raw _ => raw

def Item.isDirectory : Item → Bool
  | .file _ => false
  | .directory _ _ => true

variable (items : NameDir) (name : String)

/-- The commands rm and rm -f leave a directory where it is. -/
def rm : NameDir := if items[name]?.any Item.isDirectory then items else items.erase name

/-- The size that is measured: of a file, or of the tar file of a directory. What is not
there has an empty size, which counts as zero. -/
def sourceSize : Nat :=
  match items[name]? with
  | some (.file content) => content.length
  | some (.directory _ tar) => tar
  | none => 0

/-- The tar file of a directory is written beside it and removed. -/
def measured : NameDir := if items[name]?.any Item.isDirectory then items.erase (name ++ ".tar") else items

/-- The output of a command is appended to what the file holds. -/
def append (output : Content) : NameDir :=
  match items[name]? with
  | some (.file content) => items.insert name (.file (content ++ output))
  | some (.directory _ _) => items
  | none => items.insert name (.file output)

def copyAll (copied : List (String × Item)) : NameDir := copied.foldl (fun items x => items.insert x.1 x.2) items

variable (vars : Variables) (archive : Compressor) (line : Nat) (s : Collection)

def logError : Collection := { s with log := s.log + line }

def logVerbose : Collection := { s with log := if vars.verbose then s.log + line else s.log }

def checkSize : Collection × Bool :=
  match vars.dump_size with
  | none => (s, true)
  | some dump_size =>
      let items := measured s.items name
      let size := sourceSize items name
      if size + s.cur_dump_size ≤ dump_size then
        ({ s with items := items, cur_dump_size := size + s.cur_dump_size }, true)
      else if archive items s.log ≤ dump_size then
        ({ s with items := items, cur_dump_size := archive items s.log + s.cur_dump_size }, true)
      else ({ s with items := rm items name }, false)

/-- A command that fails, or whose output cannot be appended, has its file removed. -/
def addCmdOutput (output : Option Content) : Collection :=
  match output with
  | none => logError line { s with items := rm s.items name }
  | some output =>
      if s.items[name]?.any Item.isDirectory then logError line s
      else logVerbose vars line (checkSize name vars archive { s with items := append s.items name output }).1

/-- What a failed copy leaves behind stays there, since the path that is removed then is
not that of the copy. -/
def addCopyFile (copied : List (String × Item)) (succeeds : Bool) : Collection × Bool :=
  if succeeds then
    let checked := checkSize name vars archive { s with items := copyAll s.items copied }
    (logVerbose vars line checked.1, checked.2)
  else (logError line { s with items := copyAll s.items copied }, false)

/-- A plugin is a process of its own, which starts with the exported count of its parent. -/
inductive Event
  | plugin
  | addCmdOutput (name : String) (output : Option Content) (line : Nat)
  | addCopyFile (name : String) (copied : List (String × Item)) (succeeds : Bool) (line : Nat)

def step : Event → Option Collection
  | .plugin => some { s with cur_dump_size := 0 }
  | .addCmdOutput name output line => some (addCmdOutput name vars archive line s output)
  | .addCopyFile name copied succeeds line => some (addCopyFile name vars archive line s copied succeeds).1

@[simp] theorem logVerbose_items : (logVerbose vars line s).items = s.items := rfl

@[simp] theorem logError_items : (logError line s).items = s.items := rfl

section Directory

def contentOf (items : NameDir) (name : String) : Content :=
  match items[name]? with
  | some (.file content) => content
  | _ => []

def laid (items : NameDir) (copied : List (String × Item)) (name : String) : Option Item :=
  ((copied.reverse.find? fun x => x.1 = name).map Prod.snd).or items[name]?

def Item.size : Item → Nat
  | .file content => content.length
  | .directory _ tar => tar

variable {items : NameDir} {name name' : String}

theorem copyAll_get (items : NameDir) (copied : List (String × Item)) (name : String) :
    (copyAll items copied)[name]? = laid items copied name := by
  induction copied generalizing items with
  | nil => rfl
  | cons x copied ih =>
      refine (ih (items.insert x.1 x.2)).trans ?_
      rw [laid, laid, List.reverse_cons, List.find?_append, insert_get]
      cases hfind : copied.reverse.find? fun x => x.1 = name with
      | some y => rfl
      | none => by_cases hx : x.1 = name <;> simp [hx]

theorem laid_single (items : NameDir) (name : String) (item : Item) (name' : String) :
    laid items [(name, item)] name' = if name = name' then some item else items[name']? := by
  by_cases h : name = name' <;> simp [laid, h]

theorem append_file (h : ¬items[name]?.any Item.isDirectory = true) (output : Content) :
    append items name output = items.insert name (.file (contentOf items name ++ output)) := by
  rw [append, contentOf]
  cases hitem : items[name]? with
  | none => rfl
  | some item =>
      cases item with
      | file content => rfl
      | directory raw tar =>
          rw [hitem] at h
          exact absurd rfl h

theorem append_copied (h : ¬items[name]?.any Item.isDirectory = true) (output : Content) :
    append items name output = copyAll items [(name, .file (contentOf items name ++ output))] := append_file h output

theorem rm_get (items : NameDir) (name name' : String) :
    (rm items name)[name']? = if items[name]?.any Item.isDirectory = false ∧ name = name' then none
      else items[name']? := by
  rw [rm]
  cases items[name]?.any Item.isDirectory with
  | true => simp
  | false => simp [erase_get]

theorem measured_get (items : NameDir) (name name' : String) :
    (measured items name)[name']? =
      if items[name]?.any Item.isDirectory = true ∧ name ++ ".tar" = name' then none else items[name']? := by
  rw [measured]
  cases items[name]?.any Item.isDirectory with
  | true => simp [erase_get]
  | false => simp

theorem tar_ne (name : String) : name ++ ".tar" ≠ name := by
  intro h
  have hlength := congrArg String.length h
  rw [String.length_append] at hlength
  exact absurd hlength (by simp)

theorem measured_item (items : NameDir) (name : String) : (measured items name)[name]? = items[name]? := by
  rw [measured_get, if_neg fun h => tar_ne name h.2]

theorem measured_file (h : items[name]?.any Item.isDirectory = false) : measured items name = items := by
  rw [measured, h]
  rfl

theorem sourceSize_eq (items : NameDir) (name : String) :
    sourceSize items name = (items[name]?.map Item.size).getD 0 := by
  rw [sourceSize]
  rcases items[name]? with _ | _ | _ <;> rfl

end Directory

section Check

/-- The check counts the item in, by itself or by the archive of all, or refuses it. -/
inductive Checked (d : Nat) : Collection × Bool → Prop
  | counted (h : sourceSize (measured s.items name) name + s.cur_dump_size ≤ d) (cur_dump_size : Nat) :
      Checked d (⟨measured s.items name, s.log, cur_dump_size⟩, true)
  | compressed (h : d < sourceSize (measured s.items name) name + s.cur_dump_size)
      (harchive : archive (measured s.items name) s.log ≤ d) (cur_dump_size : Nat) :
      Checked d (⟨measured s.items name, s.log, cur_dump_size⟩, true)
  | refused (h : d < sourceSize (measured s.items name) name + s.cur_dump_size)
      (harchive : d < archive (measured s.items name) s.log) :
      Checked d ({ s with items := rm (measured s.items name) name }, false)

variable {vars}

theorem checkSize_checked {d : Nat} (hlimit : vars.dump_size = some d) :
    Checked name archive s d (checkSize name vars archive s) := by
  rw [checkSize, hlimit]
  dsimp only
  split
  · rename_i hquick
    exact .counted hquick _
  · rename_i hquick
    split
    · rename_i hsmall
      exact .compressed (Nat.lt_of_not_le hquick) hsmall _
    · rename_i hlarge
      exact .refused (Nat.lt_of_not_le hquick) (Nat.lt_of_not_le hlarge)

theorem checkSize_unlimited (hlimit : vars.dump_size = none) : checkSize name vars archive s = (s, true) := by
  rw [checkSize, hlimit]

end Check

end DumpCollector.Dreport.Plugins
