import DumpCollector.Dreport.Plugins

namespace DumpCollector.Dreport.Check

open Std Lib.Maps Plugins

variable {T : Type}

/-- What lies in the directory of collected data, with directory trees of any kind. -/
inductive Node (T : Type)
  | file (content : Content)
  | directory (tree : T)

abbrev Tree (T : Type) := ExtTreeMap String (Node T)

inductive CompressionType
  | xz
  | zst

/-- The directory of collected data with the archives that are written beside it for a
while, the variables of the plugin, and those that it was started with. -/
structure Work (T : Type) where
  items : Tree T
  tarXz : Option Content
  zst : Option Content
  cur_dump_size : Nat

structure Settings where
  dump_size : Option Nat
  compression_type : CompressionType

/-- What tar makes of an item of the directory and what the compressors make of the whole,
and the size that stat gives of a directory. -/
structure Tools (T : Type) where
  tar : Tree T → String → Content
  compressed : CompressionType → Tree T → Content
  statDirectory : T → Nat

def SUCCESS : Nat := 0

def RESOURCE_UNAVAILABLE : Nat := 2

def Node.isDirectory : Node T → Bool
  | .file _ => false
  | .directory _ => true

section Commands

variable (tools : Tools T) (items : Tree T) (name : String)

def removeItem : Tree T := if items[name]?.any Node.isDirectory then items else items.erase name

def stat : Nat :=
  match items[name]? with
  | some (.file content) => content.length
  | some (.directory tree) => tools.statDirectory tree
  | none => 0

/-- The archive of an item replaces a file of its name, but not a directory. -/
def tarBeside : Tree T :=
  if items[name ++ ".tar"]?.any Node.isDirectory then items
  else items.insert (name ++ ".tar") (.file (tools.tar items name))

/-- The size of the source, and the directory after it has been taken. -/
def sourceSize : Tree T × Nat :=
  if items[name]?.any Node.isDirectory then
    (removeItem (tarBeside tools items name) (name ++ ".tar"), stat tools (tarBeside tools items name) (name ++ ".tar"))
  else (items, stat tools items name)

variable (compression_type : CompressionType) (w : Work T)

def compress : Work T :=
  match compression_type with
  | .xz => { w with tarXz := some (tools.compressed .xz w.items) }
  | .zst => { w with zst := some (tools.compressed .zst w.items) }

def statArchive : Nat :=
  match compression_type with
  | .xz => (w.tarXz.getD []).length
  | .zst => (w.zst.getD []).length

def removeArchive : Work T :=
  match compression_type with
  | .xz => { w with tarXz := none }
  | .zst => { w with zst := none }

end Commands

def checkSize (settings : Settings) (tools : Tools T) (name : String) (w : Work T) : Work T × Nat :=
  match settings.dump_size with
  | none => (w, SUCCESS)
  | some dump_size =>
      let (items, size) := sourceSize tools w.items name
      let w := { w with items := items }
      if dump_size < size + w.cur_dump_size then
        let w := compress tools settings.compression_type w
        let size := statArchive settings.compression_type w
        if dump_size < size then
          let w := { w with items := removeItem w.items name }
          (removeArchive settings.compression_type w, RESOURCE_UNAVAILABLE)
        else
          let w := removeArchive settings.compression_type w
          ({ w with cur_dump_size := size + w.cur_dump_size }, SUCCESS)
      else ({ w with cur_dump_size := size + w.cur_dump_size }, SUCCESS)

/-- A source that is refused is taken out, and nothing else; one that is let through leaves
the directory as it was, and no archive stays behind. -/
structure Lawful (name : String) (w t : Work T) (code : Nat) : Prop where
  refused : code ≠ 0 → t.items = w.items.erase name ∧ t.cur_dump_size = w.cur_dump_size
  accepted : code = 0 → t.items = w.items
  tarXz : t.tarXz = none ∨ t.tarXz = w.tarXz
  zst : t.zst = none ∨ t.zst = w.zst

def Fits (settings : Settings) (tools : Tools T) (dump_size : Nat) (name : String) (w : Work T) : Prop :=
  (sourceSize tools w.items name).2 + w.cur_dump_size ≤ dump_size ∨
    (tools.compressed settings.compression_type (sourceSize tools w.items name).1).length ≤ dump_size

section Law

variable {settings : Settings} {tools : Tools T} {items : Tree T} {name : String} {w : Work T} {dump_size : Nat}

theorem archives_removed (tools : Tools T) (compression_type : CompressionType) (w : Work T) :
    ((removeArchive compression_type (compress tools compression_type w)).tarXz = none ∨
      (removeArchive compression_type (compress tools compression_type w)).tarXz = w.tarXz) ∧
    ((removeArchive compression_type (compress tools compression_type w)).zst = none ∨
      (removeArchive compression_type (compress tools compression_type w)).zst = w.zst) := by
  cases compression_type with
  | xz => exact ⟨.inl rfl, .inr rfl⟩
  | zst => exact ⟨.inr rfl, .inl rfl⟩

theorem statArchive_compress (compression_type : CompressionType) (w : Work T) :
    statArchive compression_type (compress tools compression_type w) =
      (tools.compressed compression_type w.items).length := by
  cases compression_type <;> rfl

theorem removeArchive_compress (tools : Tools T) (compression_type : CompressionType) (w : Work T) :
    (removeArchive compression_type (compress tools compression_type w)).items = w.items ∧
    (removeArchive compression_type (compress tools compression_type w)).cur_dump_size = w.cur_dump_size := by
  cases compression_type <;> exact ⟨rfl, rfl⟩

theorem removeArchive_with_items (compression_type : CompressionType) (w : Work T) (items : Tree T) :
    removeArchive compression_type { w with items := items } =
      { removeArchive compression_type w with items := items } := by
  cases compression_type <;> rfl

theorem checkSize_cases (hlimit : settings.dump_size = some dump_size) (tools : Tools T) (name : String) (w : Work T) :
    ((checkSize settings tools name w).1.tarXz = none ∨ (checkSize settings tools name w).1.tarXz = w.tarXz) ∧
    ((checkSize settings tools name w).1.zst = none ∨ (checkSize settings tools name w).1.zst = w.zst) ∧
    ((Fits settings tools dump_size name w ∧ (checkSize settings tools name w).2 = SUCCESS ∧
        (checkSize settings tools name w).1.items = (sourceSize tools w.items name).1) ∨
      (¬Fits settings tools dump_size name w ∧ (checkSize settings tools name w).2 = RESOURCE_UNAVAILABLE ∧
        (checkSize settings tools name w).1.items = removeItem (sourceSize tools w.items name).1 name ∧
        (checkSize settings tools name w).1.cur_dump_size = w.cur_dump_size)) := by
  rw [checkSize, hlimit, Fits]
  dsimp only
  let taken : Work T := { w with items := (sourceSize tools w.items name).1 }
  have harchives := archives_removed tools settings.compression_type taken
  have hsame := removeArchive_compress tools settings.compression_type taken
  by_cases hlarge : dump_size < (sourceSize tools w.items name).2 + w.cur_dump_size
  · rw [if_pos hlarge, statArchive_compress]
    by_cases hcompressed : dump_size < (tools.compressed settings.compression_type
        (sourceSize tools w.items name).1).length
    · rw [if_pos hcompressed, removeArchive_with_items]
      refine ⟨harchives.1, harchives.2, .inr ⟨by omega, rfl, ?_, hsame.2⟩⟩
      exact congrArg (removeItem · name) (by cases settings.compression_type <;> rfl)
    · rw [if_neg hcompressed]
      exact ⟨harchives.1, harchives.2, .inl ⟨.inr (Nat.le_of_not_lt hcompressed), rfl, hsame.1⟩⟩
  · rw [if_neg hlarge]
    exact ⟨.inr rfl, .inr rfl, .inl ⟨.inl (Nat.le_of_not_lt hlarge), rfl, rfl⟩⟩

theorem ne_tar (name : String) : name ++ ".tar" ≠ name := by
  intro h
  have hlength := congrArg String.length h
  rw [String.length_append] at hlength
  have hpositive : ".tar".length = 4 := rfl
  omega

theorem removeItem_file {content : Content} (h : items[name]? = some (.file content)) :
    removeItem items name = items.erase name := by
  rw [removeItem, h]
  rfl

theorem removeItem_directory {tree : T} (h : items[name]? = some (.directory tree)) :
    removeItem items name = items := by
  rw [removeItem, h]
  rfl

theorem sourceSize_file {content : Content} (h : items[name]? = some (.file content)) :
    (sourceSize tools items name).1 = items := by
  rw [sourceSize, h]
  rfl

/-- The tar file of a directory is gone afterwards, and so is a file of the same name. -/
theorem sourceSize_directory {tree : T} (h : items[name]? = some (.directory tree)) :
    (sourceSize tools items name).1 = removeItem items (name ++ ".tar") := by
  have hdirectory : items[name]?.any Node.isDirectory = true := by
    rw [h]
    rfl
  rw [sourceSize, if_pos hdirectory, tarBeside]
  dsimp only
  by_cases htar : items[name ++ ".tar"]?.any Node.isDirectory = true
  · rw [if_pos htar]
  · have hfile : (items.insert (name ++ ".tar") (.file (tools.tar items name)))[name ++ ".tar"]? =
        some (.file (tools.tar items name)) := by
      rw [insert_get, if_pos rfl]
    rw [if_neg htar, removeItem_file hfile, removeItem, if_neg htar]
    apply ExtTreeMap.ext_getElem?
    intro k
    rw [erase_get, erase_get, insert_get]
    split <;> rfl

theorem removeItem_eq_self_iff : removeItem items name = items ↔ ∀ content, items[name]? ≠ some (.file content) := by
  rw [removeItem]
  cases hitem : items[name]? with
  | none =>
      refine iff_of_true ?_ fun content h => by cases h
      apply ExtTreeMap.ext_getElem?
      intro k
      rw [if_neg (by simp), erase_get]
      split
      · rename_i hk
        rw [← hk, hitem]
      · rfl
  | some item =>
      cases item with
      | directory tree => exact iff_of_true rfl fun content h => by cases h
      | file content =>
          refine iff_of_false (fun h => ?_) fun h => h content rfl
          have hgone : (items.erase name)[name]? = none := by rw [erase_get, if_pos rfl]
          have hsame : items.erase name = items := h
          rw [hsame, hitem] at hgone
          cases hgone

theorem lawful_unlimited (hlimit : settings.dump_size = none) :
    Lawful name w (checkSize settings tools name w).1 (checkSize settings tools name w).2 := by
  rw [checkSize, hlimit]
  exact ⟨fun h => absurd rfl h, fun _ => rfl, .inr rfl, .inr rfl⟩

theorem lawful_file {content : Content} (hlimit : settings.dump_size = some dump_size)
    (h : w.items[name]? = some (.file content)) :
    Lawful name w (checkSize settings tools name w).1 (checkSize settings tools name w).2 := by
  obtain ⟨htarXz, hzst, ⟨-, hcode, hitems⟩ | ⟨-, hcode, hitems, hcount⟩⟩ :=
    checkSize_cases hlimit tools name w
  · rw [sourceSize_file h] at hitems
    exact ⟨fun hne => absurd hcode hne, fun _ => hitems, htarXz, hzst⟩
  · rw [sourceSize_file h, removeItem_file h] at hitems
    refine ⟨fun _ => ⟨hitems, hcount⟩, fun hzero => ?_, htarXz, hzst⟩
    rw [hcode] at hzero
    exact absurd hzero (by decide)

/-- A directory that is refused stays, since it is removed with a command for files. -/
theorem lawful_directory_iff {tree : T} (hlimit : settings.dump_size = some dump_size)
    (h : w.items[name]? = some (.directory tree)) :
    Lawful name w (checkSize settings tools name w).1 (checkSize settings tools name w).2 ↔
      Fits settings tools dump_size name w ∧ ∀ content, w.items[name ++ ".tar"]? ≠ some (.file content) := by
  obtain ⟨htarXz, hzst, ⟨hfits, hcode, hitems⟩ | ⟨hfits, hcode, hitems, -⟩⟩ :=
    checkSize_cases hlimit tools name w
  · rw [sourceSize_directory h] at hitems
    rw [← removeItem_eq_self_iff, ← hitems]
    constructor
    · exact fun hlaw => ⟨hfits, hlaw.accepted hcode⟩
    · rintro ⟨-, hsame⟩
      exact ⟨fun hne => absurd hcode hne, fun _ => hsame, htarXz, hzst⟩
  · refine iff_of_false (fun hlaw => ?_) fun hcondition => hfits hcondition.1
    have hstays : (removeItem w.items (name ++ ".tar"))[name]? = some (.directory tree) := by
      rw [removeItem]
      split
      · exact h
      · rw [erase_get, if_neg (ne_tar name), h]
    have hgone := (hlaw.refused (by rw [hcode]; decide)).1
    rw [hitems, sourceSize_directory h, removeItem_directory hstays] at hgone
    rw [hgone, erase_get, if_pos rfl] at hstays
    cases hstays

/-- The check keeps its law for files, and for a directory exactly if it is let through and
there is no file with the name of its tar file. -/
theorem checkSize_lawful_iff {node : Node T} (h : w.items[name]? = some node) :
    Lawful name w (checkSize settings tools name w).1 (checkSize settings tools name w).2 ↔
      settings.dump_size = none ∨ (∃ content, node = .file content) ∨
        ∃ dump_size, settings.dump_size = some dump_size ∧ Fits settings tools dump_size name w ∧
          ∀ content, w.items[name ++ ".tar"]? ≠ some (.file content) := by
  cases hlimit : settings.dump_size with
  | none => exact iff_of_true (lawful_unlimited hlimit) (.inl rfl)
  | some dump_size =>
      cases node with
      | file content => exact iff_of_true (lawful_file hlimit h) (.inr (.inl ⟨content, rfl⟩))
      | directory tree =>
          rw [lawful_directory_iff hlimit h]
          constructor
          · exact fun hcondition => .inr (.inr ⟨dump_size, rfl, hcondition⟩)
          · rintro (hnone | ⟨content, hfile⟩ | ⟨limit, hsome, hcondition⟩)
            · cases hnone
            · cases hfile
            · cases hsome
              exact hcondition

end Law

section Examples

def fourBytes : Tools Unit := ⟨fun _ _ => [1, 2, 3, 4], fun _ _ => [1, 2, 3, 4], fun _ => 1⟩

def limited : Settings := ⟨some 2, .xz⟩

def journal : Work Unit := ⟨(∅ : Tree Unit).insert "journal" (.directory ()), none, none, 0⟩

def meminfo : Work Unit := ⟨(∅ : Tree Unit).insert "meminfo.log" (.file [7, 8, 9]), none, none, 0⟩

theorem checkSize_lawful_meminfo :
    Lawful "meminfo.log" meminfo (checkSize limited fourBytes "meminfo.log" meminfo).1
      (checkSize limited fourBytes "meminfo.log" meminfo).2 := by
  have hfile : meminfo.items["meminfo.log"]? = some (.file [7, 8, 9]) := by rw [meminfo, insert_get, if_pos rfl]
  exact (checkSize_lawful_iff hfile).mpr (.inr (.inl ⟨_, rfl⟩))

/-- The directory is refused, and lies there as before. -/
theorem refused_directory_stays :
    (checkSize limited fourBytes "journal" journal).2 = RESOURCE_UNAVAILABLE ∧
    (checkSize limited fourBytes "journal" journal).1.items["journal"]? = some (.directory ()) ∧
    ¬Lawful "journal" journal (checkSize limited fourBytes "journal" journal).1
      (checkSize limited fourBytes "journal" journal).2 := by
  have hstays : (checkSize limited fourBytes "journal" journal).1.items["journal"]? = some (.directory ()) := rfl
  refine ⟨rfl, hstays, fun hlaw => ?_⟩
  have hgone := (hlaw.refused (by decide)).1
  rw [hgone, erase_get, if_pos rfl] at hstays
  cases hstays

end Examples

section Collections

variable (raw tarSize : T → Nat) {archive : Compressor} {settings : Settings} {tools : Tools T} {name : String}
  {w : Work T} {log : Nat} {verbose : Bool}

def forget : Node T → Item
  | .file content => .file content
  | .directory tree => .directory (raw tree) (tarSize tree)

def measuredItems (items : Tree T) : NameDir := items.map fun _ => forget raw tarSize

def collection (log : Nat) (w : Work T) : Collection := ⟨measuredItems raw tarSize w.items, log, w.cur_dump_size⟩

theorem measuredItems_get (items : Tree T) (k : String) :
    (measuredItems raw tarSize items)[k]? = items[k]?.map (forget raw tarSize) :=
  map_get _ _ _

theorem measuredItems_directory (items : Tree T) (k : String) :
    (measuredItems raw tarSize items)[k]?.any Item.isDirectory = items[k]?.any Node.isDirectory := by
  rw [measuredItems_get]
  rcases items[k]? with _ | ⟨content | tree⟩ <;> rfl

theorem measuredItems_erase (items : Tree T) (k : String) :
    measuredItems raw tarSize (items.erase k) = (measuredItems raw tarSize items).erase k := by
  apply ExtTreeMap.ext_getElem?
  intro l
  rw [measuredItems_get, erase_get, erase_get, measuredItems_get]
  split <;> rfl

theorem measuredItems_removeItem (items : Tree T) (k : String) :
    measuredItems raw tarSize (removeItem items k) = rm (measuredItems raw tarSize items) k := by
  rw [removeItem, rm, measuredItems_directory]
  split
  · rfl
  · exact measuredItems_erase raw tarSize items k

theorem sourceSize_collection
    (htar : ∀ (items : Tree T) name tree, items[name]? = some (.directory tree) →
      (tools.tar items name).length = tarSize tree)
    (hbeside : ∀ tree, w.items[name ++ ".tar"]? ≠ some (.directory tree)) :
    measured (measuredItems raw tarSize w.items) name = measuredItems raw tarSize (sourceSize tools w.items name).1 ∧
    Plugins.sourceSize (measured (measuredItems raw tarSize w.items) name) name =
      (sourceSize tools w.items name).2 := by
  have hfree : ¬w.items[name ++ ".tar"]?.any Node.isDirectory = true := by
    rcases hitem : w.items[name ++ ".tar"]? with _ | ⟨content | tree⟩
    · simp
    · simp [Node.isDirectory]
    · exact absurd hitem (hbeside tree)
  have hplain (h : ¬w.items[name]?.any Node.isDirectory = true) :
      measured (measuredItems raw tarSize w.items) name = measuredItems raw tarSize w.items ∧
        sourceSize tools w.items name = (w.items, stat tools w.items name) := by
    rw [measured, measuredItems_directory, sourceSize, if_neg h, if_neg h]
    exact ⟨rfl, rfl⟩
  rcases hitem : w.items[name]? with _ | ⟨content | tree⟩
  · obtain ⟨hmeasured, hsource⟩ := hplain (by simp [hitem])
    rw [hmeasured, hsource, Plugins.sourceSize, measuredItems_get, stat, hitem]
    exact ⟨rfl, rfl⟩
  · obtain ⟨hmeasured, hsource⟩ := hplain (by simp [hitem, Node.isDirectory])
    rw [hmeasured, hsource, Plugins.sourceSize, measuredItems_get, stat, hitem]
    exact ⟨rfl, rfl⟩
  · have hdirectory : w.items[name]?.any Node.isDirectory = true := by
      rw [hitem]
      rfl
    have hitems : (sourceSize tools w.items name).1 = w.items.erase (name ++ ".tar") := by
      rw [sourceSize_directory hitem, removeItem, if_neg hfree]
    have hsize : (sourceSize tools w.items name).2 = tarSize tree := by
      rw [sourceSize, if_pos hdirectory, tarBeside, if_neg hfree, stat, insert_get, if_pos rfl]
      exact htar w.items name tree hitem
    have hmeasured : measured (measuredItems raw tarSize w.items) name =
        measuredItems raw tarSize (w.items.erase (name ++ ".tar")) := by
      rw [measured, measuredItems_directory, if_pos hdirectory, measuredItems_erase]
    rw [hmeasured, hitems, hsize, Plugins.sourceSize, measuredItems_get, erase_get, if_neg (ne_tar name), hitem]
    exact ⟨rfl, rfl⟩

/-- Where no directory has the name of the tar file, the check of the collections is this
check, seen through the sizes. -/
theorem checkSize_collection
    (htar : ∀ (items : Tree T) name tree, items[name]? = some (.directory tree) →
      (tools.tar items name).length = tarSize tree)
    (harchive : ∀ items : Tree T, (tools.compressed settings.compression_type items).length =
      archive (measuredItems raw tarSize items) log)
    (hbeside : ∀ tree, w.items[name ++ ".tar"]? ≠ some (.directory tree)) :
    Plugins.checkSize name ⟨verbose, settings.dump_size⟩ archive (collection raw tarSize log w) =
      (collection raw tarSize log (checkSize settings tools name w).1,
        decide ((checkSize settings tools name w).2 = SUCCESS)) := by
  obtain ⟨hmeasured, hsize⟩ := sourceSize_collection raw tarSize htar hbeside
  rw [Plugins.checkSize, checkSize]
  cases settings.dump_size with
  | none => rfl
  | some dump_size =>
      rw [hmeasured] at hsize
      simp only [collection, hmeasured, hsize, statArchive_compress]
      by_cases hsmall : (sourceSize tools w.items name).2 + w.cur_dump_size ≤ dump_size
      · rw [if_pos hsmall, if_neg (Nat.not_lt_of_le hsmall)]
        rfl
      · rw [if_neg hsmall, if_pos (Nat.lt_of_not_le hsmall), ← harchive]
        by_cases hfits :
            (tools.compressed settings.compression_type (sourceSize tools w.items name).1).length ≤ dump_size
        · rw [if_pos hfits, if_neg (Nat.not_lt_of_le hfits)]
          cases settings.compression_type <;> rfl
        · rw [if_neg hfits, if_pos (Nat.lt_of_not_le hfits), ← measuredItems_removeItem]
          cases settings.compression_type <;> rfl

end Collections

end DumpCollector.Dreport.Check
