import DumpCollector.Dreport.Options
import DumpCollector.FileNames

namespace DumpCollector.Dreport.Invocation

open Lib.Words Lib.Getopt Args Options

section Callers

/-- What the C string of a string holds. -/
def cStr (s : Word) : Word := s.takeWhile (· ≠ Char.ofNat 0)

def joined (dir name : Word) : Word := if dir.getLast?.all (· = '/') then dir ++ name else dir ++ '/' :: name

def decimal (n : Nat) : Word := (toString n).toList

theorem cStr_decimal (n : Nat) : cStr (decimal n) = decimal n := by
  rw [cStr, List.takeWhile_eq_self_iff]
  intro c hc
  obtain ⟨d, ds, hlist, hdigits, -⟩ := FileNames.digits_of_nat n
  rw [decimal, hlist] at hc
  have hdigit := hdigits c hc
  rw [decide_eq_true_eq]
  rintro rfl
  exact absurd hdigit (by decide)

/-- The arguments that the BMC manager calls execl with. -/
def bmcArgs (dumpPath : Word) (id size : Nat) (path strType compressionType : Word) : List Word :=
  ["-d".toList, cStr dumpPath, "-i".toList, decimal id, "-s".toList, decimal size, "-q".toList, "-v".toList,
    "-p".toList, cStr path, "-t".toList, cStr strType, "-c".toList, compressionType]

/-- The arguments that executeDreport of the system manager puts together. The string of the
size is gone when execv reads it, and what is there instead is some word. -/
def systemArgs (dumpPath : Word) (id : Nat) (dangling : Word) (addArgs : List Word) : List Word :=
  ["-d".toList, cStr dumpPath, "-i".toList, decimal id, "-s".toList, dangling, "-q".toList, "-v".toList, "-t".toList,
    "system".toList] ++ (executeDreport addArgs).flatMap fun arg => ["-a".toList, arg]

end Callers

section Script

/-- What the shell makes of a name of several words in the test for an empty one, and of a size that
is not written as a plain number. -/
structure Shell where
  names : Pathnames
  test : List Word → Bool
  integer : Word → Option Int

structure Report where
  name : Word
  dump_type : Word
  dump_size : Option Int

def knownTypes : List Word :=
  ["user".toList, "core".toList, "elog".toList, "ramoops".toList, "system".toList, "checkstop".toList]

variable (sh : Shell)

/-- The variable is not quoted. -/
def isEmptyName (name : Word) : Bool :=
  match expand sh.names name with
  | [] => true
  | [word] => word = []
  | words => sh.test words

/-- A number without a leading zero is one of the shell; its arithmetic is done on 64 bits. -/
def readSize (dump_size : Word) : Option Int :=
  if dump_size = decimal (FileNames.value dump_size) ∧ FileNames.value dump_size < 2 ^ 63 then
    some ((FileNames.value dump_size * 1024 : Int).bmod (2 ^ 64))
  else sh.integer dump_size

def reportName (EPOCHTIME : Nat) (o : Settings) : Word :=
  if isEmptyName sh o.name then "obmcdump_".toList ++ o.dump_id ++ '_' :: decimal EPOCHTIME else o.name

def reportedType (type : Word) : Word := if knownTypes.contains type then type else "summary".toList

/-- The directory in the temporary one can be made, or there is no report. -/
def initializeReport (mkdir : Bool) (EPOCHTIME : Nat) (o : Settings) : Option Report :=
  if mkdir then some ⟨reportName sh EPOCHTIME o, reportedType o.dump_type, readSize sh o.dump_size⟩ else none

def archive (o : Settings) (r : Report) : Word :=
  r.name ++ if o.compression_type = "xz".toList then ".tar.xz".toList else ".zst".toList

end Script

section Settled

variable (names : Pathnames) (abbreviated : Word → Option Word) (dumpPath : Word) (id : Nat)

def words (xs : List (Branch × Word)) : List Word := (xs.map fun x => x.1.item x.2).flatMap Item.words

theorem options_short {xs : List (Branch × Word)} (h : ∀ x ∈ xs, x.1 ≠ .help) :
    options names abbreviated (words xs) = .ok (settle names (xs.map fun x => x.1.item x.2) initial) := by
  apply options_words
  intro item hitem
  obtain ⟨x, hx, rfl⟩ := List.mem_map.mp hitem
  exact ⟨item_valid x.1 x.2 abbreviated, item_accepted x.2 (h x hx)⟩

def bmcOptions (size : Nat) (path strType compressionType : Word) : List (Branch × Word) :=
  [(.dir, cStr dumpPath), (.dumpid, decimal id), (.size, decimal size), (.quiet, []), (.verbose, []),
    (.path, cStr path), (.type, cStr strType), (.compression, compressionType)]

def bmcSettings (size : Nat) (path strType compressionType : Word) : Settings :=
  { initial with
    dump_dir := cStr dumpPath
    dump_id := decimal id
    dump_type := cStr strType
    dump_size := decimal size
    optional_path := cStr path
    compression_type := compressionType
    verbose := true
    quiet := true }

theorem options_bmcArgs (size : Nat) (path strType compressionType : Word) :
    options names abbreviated (bmcArgs dumpPath id size path strType compressionType) =
      .ok (bmcSettings dumpPath id size path strType compressionType) := by
  have hwords : bmcArgs dumpPath id size path strType compressionType =
      words (bmcOptions dumpPath id size path strType compressionType) := rfl
  rw [hwords, options_short names abbreviated (by simp [bmcOptions])]
  simp only [settle, last, given_items, bmcOptions, bmcSettings]
  simp [Branch.shiftsTwo, pluginArgs, initial]

def systemOptions (dangling : Word) (addArgs : List Word) : List (Branch × Word) :=
  [(.dir, cStr dumpPath), (.dumpid, decimal id), (.size, dangling), (.quiet, []), (.verbose, []),
    (.type, "system".toList)] ++ (executeDreport addArgs).map fun arg => (.args, arg)

def systemSettings (dangling : Word) (addArgs : List Word) : Settings :=
  { initial with
    dump_dir := cStr dumpPath
    dump_id := decimal id
    dump_type := "system".toList
    dump_size := dangling
    plugin_args := pluginArgs names (executeDreport addArgs)
    verbose := true
    quiet := true }

theorem options_systemArgs (dangling : Word) (addArgs : List Word) :
    options names abbreviated (systemArgs dumpPath id dangling addArgs) =
      .ok (systemSettings names dumpPath id dangling addArgs) := by
  have hwords : systemArgs dumpPath id dangling addArgs = words (systemOptions dumpPath id dangling addArgs) := by
    rw [words, systemOptions, List.map_append, List.flatMap_append, List.map_map]
    have hadditional : ((executeDreport addArgs).flatMap fun arg => ["-a".toList, arg]) =
        ((executeDreport addArgs).map ((fun x => x.1.item x.2) ∘ fun arg => (Branch.args, arg))).flatMap
          Item.words := by
      rw [List.flatMap_map]
      rfl
    rw [systemArgs, hadditional]
    rfl
  have hargs : ∀ x ∈ systemOptions dumpPath id dangling addArgs, x.1 ≠ .help := by
    simp [systemOptions]
  rw [hwords, options_short names abbreviated hargs]
  simp only [settle, last, given_items, systemOptions, systemSettings]
  simp [Branch.shiftsTwo, initial, List.filter_map, Function.comp_def]

end Settled

section Reports

variable (sh : Shell)

theorem value_decimal (n : Nat) : FileNames.value (decimal n) = n := by
  obtain ⟨d, ds, hlist, -, hvalue⟩ := FileNames.digits_of_nat n
  rw [decimal, hlist]
  exact hvalue

theorem readSize_decimal {size : Nat} (h : size * 1024 < 2 ^ 63) :
    readSize sh (decimal size) = some (size * 1024 : Int) := by
  have hlt : size < 2 ^ 63 := by omega
  have hbmod : ((size : Int) * 1024).bmod (2 ^ 64) = size * 1024 := by
    apply Int.bmod_eq_of_le
    · omega
    · omega
  rw [readSize, value_decimal, if_pos ⟨rfl, hlt⟩, hbmod]

def extension (compressionType : Word) : String := if compressionType = "xz".toList then "tar.xz" else "zst"

theorem dot_extension (compressionType : Word) :
    (if compressionType = "xz".toList then ".tar.xz".toList else ".zst".toList) =
      '.' :: (extension compressionType).toList := by
  rw [extension]
  split
  · simp
  · simp

def reportOf (EPOCHTIME : Nat) (o : Settings) : Report :=
  ⟨reportName sh EPOCHTIME o, reportedType o.dump_type, readSize sh o.dump_size⟩

theorem initializeReport_made (EPOCHTIME : Nat) (o : Settings) :
    initializeReport sh true EPOCHTIME o = some (reportOf sh EPOCHTIME o) := if_pos rfl

theorem archive_unnamed {o : Settings} {id : Nat} (hname : o.name = []) (hid : o.dump_id = decimal id)
    (EPOCHTIME : Nat) : archive o (reportOf sh EPOCHTIME o) =
      (FileNames.archiveName id EPOCHTIME (extension o.compression_type)).toList := by
  have hempty : isEmptyName sh o.name = true := by
    rw [hname]
    rfl
  rw [archive, FileNames.archiveName_toList, dot_extension, reportOf, reportName, if_pos hempty, hid]
  rw [List.append_assoc, List.append_assoc]
  rfl

theorem extension_alphanum (compressionType : Word) :
    ∃ c cs, (extension compressionType).toList = c :: cs ∧ c.isAlphanum = true := by
  rw [extension]
  split
  · exact ⟨'t', "ar.xz".toList, by simp, by decide⟩
  · exact ⟨'z', "st".toList, by simp, by decide⟩

theorem namedId_archive {o : Settings} {id : Nat} (hname : o.name = []) (hid : o.dump_id = decimal id)
    {EPOCHTIME : Nat} (hepoch : EPOCHTIME < 2 ^ 64) (hlt : id < 2 ^ 32) {plat : FileNames.Platform}
    (hulong : id ≤ plat.ulongMax) :
    FileNames.namedId plat (.ofList (archive o (reportOf sh EPOCHTIME o))) = some id := by
  obtain ⟨c, cs, hext, hc⟩ := extension_alphanum o.compression_type
  have hparse := (FileNames.parseName_archive_iff hext hc).mpr ⟨hepoch, hulong, rfl⟩
  rw [archive_unnamed sh hname hid, String.ofList_toList, FileNames.namedId_of_parseName hparse,
    FileNames.uint32_eq hlt]

end Reports

end DumpCollector.Dreport.Invocation
