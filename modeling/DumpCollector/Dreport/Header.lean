import DumpCollector.Lib.Hex
import DumpCollector.Lib.Words

namespace DumpCollector.Dreport.Header

open Lib.Globs Lib.Hex Lib.Words

def DUMP_HEADER_ENTRY_SIZE : Nat := 516

section Shell

def nulls (n : Nat) : List UInt8 := List.replicate n 0

@[simp] theorem length_nulls (n : Nat) : (nulls n).length = n := List.length_replicate

def text (w : Word) : List UInt8 := w.flatMap String.utf8EncodeChar

/-- A format without a directive or an escape, which is no option either. -/
def isLiteral (w : Word) : Bool := w.head? ≠ some '-' && w.all fun c => c ≠ '%' && c ≠ '\\'

/-- The bytes that printf writes, by its words. The first one is the format, and what it comes
to is not said where it holds directives. -/
structure Printf where
  output : List Word → List UInt8
  literal : ∀ w, isLiteral w = true → output [w] = text w
  nothing : output [] = []

def Printf.plain : Printf where
  output
    | [] => []
    | format :: _ => text format
  literal _ _ := rfl
  nothing := rfl

/-- The largest number that printf converts, which it also takes for all that are larger. -/
def UINTMAX_MAX : Nat := 2 ^ 64 - 1

def HasAt (bytes : List UInt8) (offset : Nat) (field : List UInt8) : Prop := field <+: bytes.drop offset

end Shell

/-- The properties of the system, the variables that dreport exports, and the archive with the
suffix that goes with its compression. A sum without its first operand is what the given number
is read from. -/
structure Environment where
  names : Pathnames
  printf : Printf
  modelNo : Word
  serialNo : Word
  dump_id : Word
  dDay : Word
  compression_type : String
  size : Nat
  unlisted : Nat

section Script

variable (env : Environment)

/-- Only an archive compressed with xz has the name that is listed. -/
def listed : Option Nat := if env.compression_type = "xz" then some env.size else none

def print (w : String) : List UInt8 := text w.toList

def printByte (b : UInt8) : List UInt8 := [b]

def printVariable (w : Word) : List UInt8 := env.printf.output (expand env.names w)

/-- A negative width stands for the width and the flag that moves the padding. -/
def addNull (a : Int) : List UInt8 := nulls a.natAbs

def sizeDump : Nat :=
  match listed env with
  | some dumpSize => dumpSize + DUMP_HEADER_ENTRY_SIZE
  | none => env.unlisted

def dumpSize : List UInt8 :=
  let hex := evenDigits (min (sizeDump env) UINTMAX_MAX)
  let msize : Int := 8 - (hex.length / 2 : Nat)
  addNull msize ++ (ofHex hex).flatMap printByte

def getDumpId : List UInt8 :=
  let nulltoadd : Int := 8 - (env.dump_id.length : Nat)
  text (List.replicate nulltoadd.natAbs '0') ++ printVariable env env.dump_id

def dumpFileEntry : List UInt8 :=
  print "FILE    " ++ addNull 1 ++ printByte 0x40 ++ addNull 11 ++ printByte 0x01 ++ addNull 1 ++ printByte 0x0F ++
    text ("BMPDUMP.".toList ++ env.serialNo ++ ".".toList) ++ getDumpId env ++ print "." ++
    printVariable env env.dDay ++ addNull 1

def dumpSectionEntry : List UInt8 :=
  print "SECTION " ++ addNull 1 ++ printByte 0x30 ++ addNull 9 ++ printByte 0x01 ++ addNull 1 ++ printByte 0x02 ++
    addNull 2 ++ dumpSize env ++ print "BMCDUMP" ++ addNull 9

def systemName : List UInt8 := text ("Server-".toList ++ env.modelNo ++ "-SN-".toList ++ env.serialNo)

def dumpHeaderFront : List UInt8 :=
  print "BMC DUMP" ++ addNull 8 ++ addNull 4 ++ printByte 0x02 ++ printByte 0x10 ++ printByte 0x02 ++ addNull 1 ++
    dumpSize env

def dumpHeaderRest : List UInt8 :=
  addNull 1 ++ addNull 4 ++ printByte 0x70 ++ addNull 2 ++ addNull 356 ++ addNull 4 ++ addNull 32 ++ addNull 8

def dumpHeader : List UInt8 :=
  dumpHeaderFront env ++ printVariable env env.modelNo ++ addNull 24 ++ systemName env ++ addNull 7 ++
    printVariable env env.serialNo ++ dumpHeaderRest

def dumpEntry : List UInt8 := printByte 0x01 ++ printByte 0x01 ++ addNull 2

def genHeaderPackage : List UInt8 := dumpFileEntry env ++ dumpSectionEntry env ++ dumpHeader env ++ dumpEntry

end Script

section Format

variable (env : Environment)

def totalDumpSize : List UInt8 := bigEndian 8 (env.size + DUMP_HEADER_ENTRY_SIZE)

/-- The fields of the dump header, each with its size and with what it is to begin with. -/
def headerFormat : List (Nat × List UInt8) :=
  [(8, text "BMC DUMP".toList), (8, nulls 8), (4, nulls 4), (2, [0x02, 0x10]), (2, [0x02, 0x00]),
    (8, totalDumpSize env), (32, text env.modelNo), (32, systemName env), (7, text env.serialNo), (1, nulls 1),
    (4, nulls 4), (2, [0x00, 0x70]), (2, nulls 2), (356, nulls 356), (4, nulls 4), (32, nulls 32), (8, nulls 8)]

def placed : Nat → List (Nat × List UInt8) → List (Nat × List UInt8)
  | _, [] => []
  | offset, (size, bytes) :: fields => (offset, bytes) :: placed (offset + size) fields

/-- The parts have the sizes of the format, and each field of the dump header and the total
size in the section entry stand at their offsets. -/
structure LaidOut : Prop where
  fileEntry : (dumpFileEntry env).length = 64
  sectionEntry : (dumpSectionEntry env).length = 48
  sectionSize : HasAt (dumpSectionEntry env) 24 (totalDumpSize env)
  header : (dumpHeader env).length = 512
  fields : ∀ f ∈ placed 0 (headerFormat env), HasAt (dumpHeader env) f.1 f.2
  entry : dumpEntry.length = 4

end Format

section Lengths

variable {env : Environment}

@[simp] theorem length_printByte (b : UInt8) : (printByte b).length = 1 := rfl

@[simp] theorem length_addNull (a : Int) : (addNull a).length = a.natAbs := length_nulls _

@[simp] theorem text_append (v w : Word) : text (v ++ w) = text v ++ text w := List.flatMap_append

theorem flatMap_printByte (bs : List UInt8) : bs.flatMap printByte = bs := by
  induction bs with
  | nil => rfl
  | cons b bs ih =>
      rw [List.flatMap_cons, ih]
      rfl

/-- The number of digits is even, and the zeros in front are those that the pairs leave. -/
theorem dumpSize_eq (env : Environment) : dumpSize env = bigEndian 8 (min (sizeDump env) UINTMAX_MAX) := by
  have hlt : min (sizeDump env) UINTMAX_MAX < 256 ^ 8 := by
    have hmax : UINTMAX_MAX < 256 ^ 8 := by decide
    omega
  obtain ⟨hle, hbytes⟩ := ofHex_evenDigits (by decide : 0 < 8) hlt
  have habs : ((8 : Int) - ((evenDigits (min (sizeDump env) UINTMAX_MAX)).length / 2 : Nat)).natAbs =
      8 - (evenDigits (min (sizeDump env) UINTMAX_MAX)).length / 2 := by omega
  rw [dumpSize, addNull, habs, flatMap_printByte]
  exact hbytes

theorem dumpSize_totalDumpSize (hxz : env.compression_type = "xz") (hsize : env.size < 2 ^ 64 - 516) :
    dumpSize env = totalDumpSize env := by
  have hmin : min (sizeDump env) UINTMAX_MAX = env.size + DUMP_HEADER_ENTRY_SIZE := by
    simp only [sizeDump, listed, if_pos hxz, DUMP_HEADER_ENTRY_SIZE, UINTMAX_MAX]
    omega
  rw [dumpSize_eq, hmin, totalDumpSize]

@[simp] theorem length_dumpSize (env : Environment) : (dumpSize env).length = 8 := by
  rw [dumpSize_eq, length_bigEndian]

theorem length_dumpSectionEntry (env : Environment) : (dumpSectionEntry env).length = 48 := by
  have hsection : (print "SECTION ").length = 8 := by decide
  have hname : (print "BMCDUMP").length = 7 := by decide
  simp [-String.reduceToList, dumpSectionEntry, hsection, hname]

theorem length_dumpEntry : dumpEntry.length = 4 := by
  simp [dumpEntry]

theorem length_dumpHeaderFront (env : Environment) : (dumpHeaderFront env).length = 32 := by
  have htype : (print "BMC DUMP").length = 8 := by decide
  simp [-String.reduceToList, dumpHeaderFront, htype]

theorem length_systemName (env : Environment) :
    (systemName env).length = 11 + (text env.modelNo).length + (text env.serialNo).length := by
  have hserver : (text "Server-".toList).length = 7 := by decide
  have hsn : (text "-SN-".toList).length = 4 := by decide
  simp only [systemName, text_append, List.length_append, hserver, hsn]
  omega

theorem length_dumpHeader (env : Environment) : (dumpHeader env).length =
    471 + (printVariable env env.modelNo).length + (systemName env).length +
      (printVariable env env.serialNo).length := by
  simp only [dumpHeader, List.length_append, length_dumpHeaderFront]
  simp [dumpHeaderRest]
  omega

end Lengths

section Plain

variable {env : Environment} {w : Word}

def IsPlain (w : Word) : Prop := isLiteral w = true ∧ ∀ c ∈ w, isBlank c = false ∧ isPattern c = false

theorem printVariable_plain (h : IsPlain w) : printVariable env w = text w := by
  rw [printVariable]
  by_cases hw : w = []
  · rw [hw, expand_nil, env.printf.nothing]
    rfl
  · rw [expand_word hw fun c hc => (h.2 c hc).1, expandWord_plain fun c hc => (h.2 c hc).2]
    exact env.printf.literal w h.1

theorem isPlain_of_isDigit (h : ∀ c ∈ w, c.isDigit = true) : IsPlain w := by
  have hne (c : Char) (hc : c ∈ w) (d : Char) (hd : d.isDigit = false) : c ≠ d := by
    rintro rfl
    rw [h c hc] at hd
    cases hd
  refine ⟨?_, fun c hc => ⟨?_, ?_⟩⟩
  · rw [isLiteral, Bool.and_eq_true, List.all_eq_true]
    refine ⟨?_, fun c hc => ?_⟩
    · cases w with
      | nil => rfl
      | cons c w => simpa using hne c List.mem_cons_self '-' rfl
    · simpa using ⟨hne c hc '%' rfl, hne c hc '\\' rfl⟩
  · simpa [isBlank, and_assoc] using ⟨hne c hc ' ' rfl, hne c hc '\t' rfl, hne c hc '\n' rfl⟩
  · simpa [isPattern, and_assoc] using ⟨hne c hc '*' rfl, hne c hc '?' rfl, hne c hc '[' rfl⟩

theorem length_text_of_isDigit (h : ∀ c ∈ w, c.isDigit = true) : (text w).length = w.length := by
  induction w with
  | nil => rfl
  | cons c w ih =>
      have hc := h c List.mem_cons_self
      have hsize : (String.utf8EncodeChar c).length = 1 := by
        rw [String.length_utf8EncodeChar, Char.utf8Size_eq_one_iff]
        rw [Char.isDigit_iff_toNat] at hc
        rw [UInt32.le_iff_toNat_le]
        exact hc.2.trans (by decide)
      rw [text, List.flatMap_cons, List.length_append, hsize, ← text, ih fun d hd => h d (List.mem_cons_of_mem c hd),
        List.length_cons, Nat.add_comm]

theorem length_getDumpId (hid : ∀ c ∈ env.dump_id, c.isDigit = true) (hlength : env.dump_id.length ≤ 8) :
    (getDumpId env).length = 8 := by
  have hzeros (n : Nat) : (text (List.replicate n '0')).length = n := by
    rw [length_text_of_isDigit fun c hc => (List.eq_of_mem_replicate hc) ▸ rfl, List.length_replicate]
  rw [getDumpId, printVariable_plain (isPlain_of_isDigit hid), List.length_append, hzeros, length_text_of_isDigit hid]
  omega

theorem length_dumpFileEntry (hserial : (text env.serialNo).length = 7) (hid : ∀ c ∈ env.dump_id, c.isDigit = true)
    (hlength : env.dump_id.length ≤ 8) (hday : ∀ c ∈ env.dDay, c.isDigit = true) (hstamp : env.dDay.length = 14) :
    (dumpFileEntry env).length = 64 := by
  have hfile : (print "FILE    ").length = 8 := by decide
  have htype : (text "BMPDUMP.".toList).length = 8 := by decide
  have hdot : (text ".".toList).length = 1 := by decide
  have hprint : (print ".").length = 1 := by decide
  simp [-String.reduceToList, dumpFileEntry, hfile, htype, hdot, hprint, hserial, length_getDumpId hid hlength,
    printVariable_plain (isPlain_of_isDigit hday), length_text_of_isDigit hday, hstamp]

theorem length_dumpHeader_plain (hmodel : IsPlain env.modelNo) (hserial : IsPlain env.serialNo) :
    (dumpHeader env).length = 482 + 2 * (text env.modelNo).length + 2 * (text env.serialNo).length := by
  rw [length_dumpHeader, length_systemName, printVariable_plain hmodel, printVariable_plain hserial]
  omega

/-- All that is written has the 628 bytes of the formats only for a model of eight bytes. -/
theorem length_genHeaderPackage (hmodel : IsPlain env.modelNo) (hserial : IsPlain env.serialNo)
    (hseven : (text env.serialNo).length = 7) (hid : ∀ c ∈ env.dump_id, c.isDigit = true)
    (hlength : env.dump_id.length ≤ 8) (hday : ∀ c ∈ env.dDay, c.isDigit = true) (hstamp : env.dDay.length = 14) :
    (genHeaderPackage env).length = 612 + 2 * (text env.modelNo).length := by
  rw [genHeaderPackage, List.length_append, List.length_append, List.length_append,
    length_dumpFileEntry hseven hid hlength hday hstamp, length_dumpSectionEntry,
    length_dumpHeader_plain hmodel hserial, length_dumpEntry, hseven]
  omega

end Plain

section Offsets

theorem hasAt_append (front field back : List UInt8) : HasAt (front ++ field ++ back) front.length field := by
  rw [HasAt, List.append_assoc, List.drop_left]
  exact List.prefix_append field back

theorem hasAt_getElem? {bytes field : List UInt8} {offset p : Nat} (h : HasAt bytes offset field) (hle : offset ≤ p)
    (hlt : p < offset + field.length) : bytes[p]? = field[p - offset]? := by
  obtain ⟨back, hback⟩ := h
  have hget := congrArg (·[p - offset]?) hback
  simp only [List.getElem?_drop] at hget
  rw [List.getElem?_append_left (by omega), Nat.add_sub_cancel' hle] at hget
  exact hget.symm

theorem hasAt_common {bytes x y : List UInt8} {a b p : Nat} (hx : HasAt bytes a x) (hy : HasAt bytes b y) (hax : a ≤ p)
    (hxp : p < a + x.length) (hby : b ≤ p) (hyp : p < b + y.length) : ∃ v ∈ x, v ∈ y := by
  have hget := (hasAt_getElem? hx hax hxp).symm.trans (hasAt_getElem? hy hby hyp)
  have hlt : p - a < x.length := by omega
  rw [List.getElem?_eq_getElem hlt] at hget
  exact ⟨x[p - a], List.getElem_mem hlt, List.mem_of_getElem? hget.symm⟩

theorem hasAt_nulls {bytes y : List UInt8} {a b n p : Nat} (hx : HasAt bytes a (nulls n)) (hy : HasAt bytes b y)
    (hax : a ≤ p) (hxp : p < a + n) (hby : b ≤ p) (hyp : p < b + y.length) : 0 ∈ y := by
  obtain ⟨v, hv, hmem⟩ := hasAt_common hx hy hax (by rwa [length_nulls]) hby hyp
  rwa [List.eq_of_mem_replicate hv] at hmem

variable (env : Environment)

theorem dumpHeader_modelPadding :
    HasAt (dumpHeader env) (32 + (printVariable env env.modelNo).length) (nulls 24) := by
  have h := hasAt_append (dumpHeaderFront env ++ printVariable env env.modelNo) (nulls 24)
    (systemName env ++ addNull 7 ++ printVariable env env.serialNo ++ dumpHeaderRest)
  rw [List.length_append, length_dumpHeaderFront] at h
  simpa [dumpHeader, addNull] using h

theorem dumpHeader_namePadding : HasAt (dumpHeader env)
    (56 + (printVariable env env.modelNo).length + (systemName env).length) (nulls 7) := by
  have h := hasAt_append (dumpHeaderFront env ++ printVariable env env.modelNo ++ addNull 24 ++ systemName env)
    (nulls 7) (printVariable env env.serialNo ++ dumpHeaderRest)
  have hoffset : (dumpHeaderFront env ++ printVariable env env.modelNo ++ addNull 24 ++ systemName env).length =
      56 + (printVariable env env.modelNo).length + (systemName env).length := by
    simp [length_dumpHeaderFront]
    omega
  rw [hoffset] at h
  simpa [dumpHeader, addNull] using h

/-- Each byte that the model is longer moves the serial number on by two, and each byte of its
own by one. -/
theorem dumpHeader_serialNo : HasAt (dumpHeader env)
    (63 + (printVariable env env.modelNo).length + (systemName env).length) (printVariable env env.serialNo) := by
  have h := hasAt_append
    (dumpHeaderFront env ++ printVariable env env.modelNo ++ addNull 24 ++ systemName env ++ addNull 7)
    (printVariable env env.serialNo) dumpHeaderRest
  have hoffset :
      (dumpHeaderFront env ++ printVariable env env.modelNo ++ addNull 24 ++ systemName env ++ addNull 7).length =
        63 + (printVariable env env.modelNo).length + (systemName env).length := by
    simp [length_dumpHeaderFront]
    omega
  rwa [hoffset, ← dumpHeader] at h

end Offsets

section Misplaced

variable {env : Environment}

theorem zero_notMem_utf8EncodeChar {c : Char} (h : c ≠ '\x00') : 0 ∉ String.utf8EncodeChar c := by
  have hbyte {n : Nat} (hn : 0 = UInt8.ofNat n) : n % 256 = 0 := by
    have htoNat := congrArg UInt8.toNat hn
    rw [UInt8.toNat_ofNat'] at htoNat
    exact htoNat.symm
  have hpos : c.val.toNat ≠ 0 := by
    intro hzero
    apply h
    exact Char.ext (UInt32.toNat_inj.mp hzero)
  intro hmem
  simp only [String.utf8EncodeChar] at hmem
  split at hmem
  · rename_i hle
    rw [List.mem_singleton] at hmem
    have hzero := hbyte hmem
    omega
  · split at hmem
    · simp only [List.mem_cons, List.not_mem_nil, or_false] at hmem
      rcases hmem with hmem | hmem <;> have hzero := hbyte hmem <;> omega
    · split at hmem
      · simp only [List.mem_cons, List.not_mem_nil, or_false] at hmem
        rcases hmem with hmem | hmem | hmem <;> have hzero := hbyte hmem <;> omega
      · simp only [List.mem_cons, List.not_mem_nil, or_false] at hmem
        rcases hmem with hmem | hmem | hmem | hmem <;> have hzero := hbyte hmem <;> omega

theorem zero_notMem_text {w : Word} (h : '\x00' ∉ w) : 0 ∉ text w := by
  intro hmem
  obtain ⟨c, hc, hzero⟩ := List.mem_flatMap.mp hmem
  apply zero_notMem_utf8EncodeChar _ hzero
  rintro rfl
  exact h hc

theorem length_le_text (w : Word) : w.length ≤ (text w).length := by
  induction w with
  | nil => exact Nat.zero_le _
  | cons c w ih =>
      have hpos : 0 < (String.utf8EncodeChar c).length := by
        rw [String.length_utf8EncodeChar]
        exact Char.utf8Size_pos c
      rw [text, List.flatMap_cons, List.length_append, List.length_cons, ← text]
      omega

theorem zero_notMem_systemName (hmodel : '\x00' ∉ env.modelNo) (hserial : '\x00' ∉ env.serialNo) :
    0 ∉ systemName env := by
  apply zero_notMem_text
  simp [hmodel, hserial]

theorem field_mem {offset : Nat} {field : List UInt8} (h : LaidOut env)
    (hfield : (offset, field) ∈ placed 0 (headerFormat env)) : HasAt (dumpHeader env) offset field :=
  h.fields (offset, field) hfield

/-- The paddings before and behind the name of the system leave one place for it. -/
theorem length_model_of_laidOut (hmodel : '\x00' ∉ env.modelNo) (hserial : '\x00' ∉ env.serialNo) (h : LaidOut env) :
    (printVariable env env.modelNo).length = 8 := by
  have hzero := zero_notMem_systemName hmodel hserial
  have hname : HasAt (dumpHeader env) 64 (systemName env) :=
    field_mem h (by simp [-String.reduceToList, placed, headerFormat])
  have hlength := h.header
  rw [length_dumpHeader] at hlength
  have hsize := length_systemName env
  by_contra hne
  apply hzero
  rcases Nat.lt_or_gt_of_ne hne with hlt | hgt
  · have hstart : 64 ≤ 56 + (printVariable env env.modelNo).length + (systemName env).length := by omega
    exact hasAt_nulls (dumpHeader_namePadding env) hname le_rfl (by omega) hstart (by omega)
  · exact hasAt_nulls (dumpHeader_modelPadding env) hname (p := 64) (by omega) (by omega) le_rfl (by omega)

/-- In a header of the right length the serial number ends behind its field, in the byte that is
reserved. The shell has no null bytes in its variables, and printf writes none for a serial
number. -/
theorem not_laidOut (hmodel : '\x00' ∉ env.modelNo) (hserial : '\x00' ∉ env.serialNo)
    (hseven : env.serialNo.length = 7) (hprinted : 0 ∉ printVariable env env.serialNo) : ¬LaidOut env := by
  intro h
  have height := length_model_of_laidOut hmodel hserial h
  have hlength := h.header
  rw [length_dumpHeader] at hlength
  have hnumber : HasAt (dumpHeader env) 96 (text env.serialNo) :=
    field_mem h (by simp [-String.reduceToList, placed, headerFormat])
  have hreserved : HasAt (dumpHeader env) 103 (nulls 1) :=
    field_mem h (by simp [-String.reduceToList, placed, headerFormat])
  rcases Nat.eq_zero_or_pos (printVariable env env.serialNo).length with hnone | hpos
  · apply zero_notMem_text hserial
    have hle := length_le_text env.serialNo
    exact hasAt_nulls (dumpHeader_namePadding env) hnumber (p := 97) (by omega) (by omega) (by decide) (by omega)
  · apply hprinted
    exact hasAt_nulls hreserved (dumpHeader_serialNo env) le_rfl (by decide) (by omega) (by omega)

/-- A model of eight characters, as the machines have it. -/
def sampleMachine : Environment where
  names := .none
  printf := .plain
  modelNo := "9105-22A".toList
  serialNo := "SIMP10R".toList
  dump_id := "00000001".toList
  dDay := "20240102030405".toList
  compression_type := "xz"
  size := 1000
  unlisted := 0

theorem not_laidOut_sampleMachine : ¬LaidOut sampleMachine :=
  not_laidOut (by decide) (by decide) rfl (by decide +kernel)

/-- The length is right, and the serial number stands one byte behind its place. -/
theorem sampleMachine_misplaced : ¬LaidOut sampleMachine ∧ (dumpHeader sampleMachine).length = 512 ∧
    ¬HasAt (dumpHeader sampleMachine) 96 (text sampleMachine.serialNo) ∧
    HasAt (dumpHeader sampleMachine) 97 (text sampleMachine.serialNo) := by
  have hmisplaced : ¬HasAt (dumpHeader sampleMachine) 96 (text sampleMachine.serialNo) := by
    rw [HasAt]
    decide +kernel
  refine ⟨fun h => hmisplaced ?_, by decide +kernel, hmisplaced, ?_⟩
  · exact field_mem h (by simp [-String.reduceToList, placed, headerFormat])
  · rw [HasAt]
    decide +kernel

end Misplaced

end DumpCollector.Dreport.Header
