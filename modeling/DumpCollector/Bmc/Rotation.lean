import DumpCollector.Bmc.Manager
import DumpCollector.Lib.Sums
import DumpCollector.Restore
import DumpCollector.Rotation

namespace DumpCollector.Bmc.Rotation

open Std Lib.Directory Lib.Effects Lib.Maps Lib.Sums Entries Requests State Frames Slots Bmc.Manager
open DumpCollector.Rotation

def kilobytes (disk : FileTree Content) (dir : Path) : Nat :=
  (disk.nodes.toList.map fun
    | (p, .file content) => if dir <+: p then (content.size + 1023) / 1024 else 0
    | (_, .dir) => 0).sum

variable {s : BmcDaemon} {j : Nat}

section Sizes

theorem getDirectorySize_listed {dir : Path} (h : s.disk.isDirectory dir = true) :
    getDirectorySize dir s = .ok (kilobytes s.disk dir) s := by
  simp only [getDirectorySize, get_bind, h, Bool.not_true, throwIf, Bool.false_eq_true, if_false, pure_bind_apply,
    pure_apply]
  rfl

theorem getDirectorySize_unlisted {dir : Path} (h : s.disk.isDirectory dir = false) :
    getDirectorySize dir s = .error .filesystemError s := by
  simp only [getDirectorySize, get_bind, h, Bool.not_false, throwIf, if_true, throw_bind_apply]

theorem getDirectorySize_ok {dir : Path} {size : Nat} {t : BmcDaemon} (h : getDirectorySize dir s = .ok size t) :
    t = s := by
  cases hdir : s.disk.isDirectory dir with
  | true =>
      rw [getDirectorySize_listed hdir] at h
      cases h
      rfl
  | false =>
      rw [getDirectorySize_unlisted hdir] at h
      cases h

end Sizes

section Removed

def kilobytesAt : Node Content → Nat
  | .file content => (content.size + 1023) / 1024
  | .dir => 0

def kilobytesOf (disk : FileTree Content) (P : Path → Bool) : Nat :=
  sumOver disk.nodes fun p node => if P p then kilobytesAt node else 0

/-- The directory that delete_ removes with the file of one of the entries, by their age. -/
def removedWith (s : BmcDaemon) (i : Nat) : Option Path :=
  match s.entries.keys[i]?.bind fun key => s.entries[key]? with
  | some (some e) => (DumpEntry.file e).map List.dropLast
  | _ => none

def directoryOf (s : BmcDaemon) (i : Nat) : Path := [toString (s.entries.keys.getD i 0)]

/-- A path below the directories of the files of the oldest entries. -/
def gone (s : BmcDaemon) (j : Nat) (p : Path) : Bool :=
  (List.range j).any fun i => (removedWith s i).any fun dir => dir.isPrefixOf p

/-- A path below the directories named by the ids of the oldest entries, as far as these are not
gone with an older entry. -/
def freed (s : BmcDaemon) (j : Nat) (p : Path) : Bool :=
  (List.range j).any fun i => (directoryOf s i).isPrefixOf p && !gone s i p

def Listed (s : BmcDaemon) (i : Nat) : Prop :=
  s.disk.isDirectory (directoryOf s i) = true ∧ gone s i (directoryOf s i) = false

instance (s : BmcDaemon) (i : Nat) : Decidable (Listed s i) := inferInstanceAs (Decidable (_ ∧ _))

variable {P Q : Path → Bool} {disk : FileTree Content}

theorem kilobytes_eq (disk : FileTree Content) (dir : Path) :
    kilobytes disk dir = kilobytesOf disk (dir.isPrefixOf ·) := by
  refine congrArg List.sum (List.map_congr_left fun x _ => ?_)
  obtain ⟨p, node⟩ := x
  cases node with
  | dir => simp [kilobytesAt]
  | file content => simp [kilobytesAt]

theorem kilobytesOf_split (disk : FileTree Content) (P Q : Path → Bool) :
    kilobytesOf disk P = kilobytesOf disk (fun p => P p && Q p) + kilobytesOf disk (fun p => P p && !Q p) := by
  rw [kilobytesOf, kilobytesOf, kilobytesOf, ← sumOver_add]
  refine congrArg (sumOver disk.nodes) (funext₂ fun p node => ?_)
  cases P p <;> cases Q p <;> simp

theorem kilobytesOf_removeAll (disk : FileTree Content) (dir : Path) (P : Path → Bool) :
    kilobytesOf (disk.removeAll dir) P = kilobytesOf disk (fun p => !dir.isPrefixOf p && P p) := by
  refine (sumOver_filter disk.nodes (fun p _ => !dir.isPrefixOf p) _).trans ?_
  refine congrArg (sumOver disk.nodes) (funext₂ fun p node => ?_)
  by_cases hdir : dir.isPrefixOf p = true <;> simp [hdir]

theorem kilobytesOf_or (h : ∀ p, P p = true → Q p = false) (disk : FileTree Content) :
    kilobytesOf disk (fun p => P p || Q p) = kilobytesOf disk P + kilobytesOf disk Q := by
  rw [kilobytesOf, kilobytesOf, kilobytesOf, ← sumOver_add]
  refine congrArg (sumOver disk.nodes) (funext₂ fun p node => ?_)
  cases hP : P p with
  | false => simp
  | true => simp [h p hP]

theorem gone_succ (s : BmcDaemon) (j : Nat) (p : Path) :
    gone s (j + 1) p = (gone s j p || (removedWith s j).any fun dir => dir.isPrefixOf p) := by
  rw [gone, List.range_succ, List.any_append, List.any_cons, List.any_nil, Bool.or_false]
  rfl

theorem freed_succ (s : BmcDaemon) (j : Nat) (p : Path) :
    freed s (j + 1) p = (freed s j p || (directoryOf s j).isPrefixOf p && !gone s j p) := by
  rw [freed, List.range_succ, List.any_append, List.any_cons, List.any_nil, Bool.or_false]
  rfl

theorem disk_discarded (hs : Keyed s) (hj : j < s.entries.keys.length) :
    (oldestRemoved s (j + 1)).disk =
      ((removedWith s j).map (oldestRemoved s j).disk.removeAll).getD (oldestRemoved s j).disk := by
  rw [oldestRemoved_succ hj, discarded, oldestRemoved_slot hs hj, removedWith, List.getElem?_eq_getElem hj,
    Option.bind_some]
  rcases s.entries[s.entries.keys[j]]? with _ | _ | e
  · rfl
  · rfl
  · simp only [Daemon.deleteEntry]
    cases DumpEntry.file e <;> rfl

theorem kilobytesOf_oldestRemoved (hs : Keyed s) (hj : j ≤ s.entries.keys.length) (P : Path → Bool) :
    kilobytesOf (oldestRemoved s j).disk P = kilobytesOf s.disk (fun p => !gone s j p && P p) := by
  induction j generalizing P with
  | zero => rfl
  | succ j ih =>
      have hgone := gone_succ s j
      rw [disk_discarded hs hj]
      cases hdir : removedWith s j with
      | none =>
          rw [hdir] at hgone
          refine (ih (by omega) P).trans ?_
          simp only [hgone, Option.any_none, Bool.or_false]
      | some dir =>
          rw [hdir] at hgone
          refine (kilobytesOf_removeAll _ dir P).trans ((ih (by omega) _).trans ?_)
          simp only [hgone, Option.any_some, Bool.not_or, Bool.and_assoc]

theorem isDirectory_oldestRemoved (hs : Keyed s) (hj : j ≤ s.entries.keys.length) (p : Path) :
    (oldestRemoved s j).disk.isDirectory p = true ↔ s.disk.isDirectory p = true ∧ gone s j p = false := by
  induction j with
  | zero => exact (and_iff_left rfl).symm
  | succ j ih =>
      rw [disk_discarded hs hj, gone_succ, Bool.or_eq_false_iff, ← and_assoc, ← ih (by omega)]
      cases removedWith s j with
      | none => exact (and_iff_left rfl).symm
      | some dir =>
          simp only [Option.map_some, Option.getD_some, Option.any_some, isDirectory_iff, removeAll_get]
          by_cases hdir : dir <+: p
          · simp [hdir]
          · have hnot : dir.isPrefixOf p = false := Bool.eq_false_iff.mpr (mt List.isPrefixOf_iff_prefix.mp hdir)
            simp [hdir, hnot]

/-- The directories of different entries have no path in common. -/
theorem freed_disjoint (hj : j < s.entries.keys.length) {p : Path} (h : freed s j p = true) :
    ((directoryOf s j).isPrefixOf p && !gone s j p) = false := by
  rw [Bool.and_eq_false_iff]
  left
  by_contra hdir
  rw [Bool.not_eq_false, List.isPrefixOf_iff_prefix] at hdir
  obtain ⟨i, hi, hfreed⟩ := List.any_eq_true.mp h
  have hi := List.mem_range.mp hi
  rw [Bool.and_eq_true, List.isPrefixOf_iff_prefix] at hfreed
  have hsame := List.prefix_of_prefix_length_le hfreed.1 hdir (by simp [directoryOf])
  have hname := List.cons.inj (hsame.eq_of_length (by simp [directoryOf]))
  rw [List.getD_eq_getElem _ _ hj, List.getD_eq_getElem _ _ (by omega)] at hname
  have hkeys := congrArg Restore.number hname.1
  rw [Restore.number_toString, Restore.number_toString] at hkeys
  have hnodup : s.entries.keys.Nodup := ExtTreeMap.nodup_keys
  have hsame := hnodup.getElem_inj_iff.mp hkeys
  omega

end Removed

variable (cfg : Config)

def room (s : BmcDaemon) (j : Nat) : Nat :=
  cfg.BMC_DUMP_TOTAL_SIZE - kilobytes s.disk [] + kilobytesOf s.disk (freed s j)

/-- The oldest entries are all needed for the room, and each one of them is there, with a directory. -/
structure Needed (s : BmcDaemon) (j : Nat) : Prop where
  le : j ≤ s.entries.size
  short : ∀ i < j, room cfg s i < cfg.BMC_DUMP_MIN_SPACE_REQD
  listed : ∀ i < j, Listed s i
  filled : Filled s j

/-- A dump of the largest size fits beside the files that stay; or what the directory has too much,
with the files that are counted as freed and stay, is no more than what goes without being counted. -/
def Covered (s : BmcDaemon) (j : Nat) : Prop :=
  cfg.BMC_DUMP_MAX_SIZE + kilobytesOf s.disk (fun p => !gone s j p) ≤ cfg.BMC_DUMP_TOTAL_SIZE ∨
    (kilobytes s.disk [] - cfg.BMC_DUMP_TOTAL_SIZE) + kilobytesOf s.disk (fun p => freed s j p && !gone s j p) ≤
      kilobytesOf s.disk (fun p => gone s j p && !freed s j p)

/-- The accumulator of getDirectorySize is an int. -/
def FitsInt (disk : FileTree Content) : Prop := disk.isDirectory [] = true → kilobytes disk [] < 2 ^ 31

def KeepsRoom (s : BmcDaemon) : Prop :=
  FitsInt s.disk ∧
  (∀ rounds size, s.entries.size ≤ rounds → rotate cfg rounds size s = rotate cfg s.entries.size size s) ∧
  match getAllowedSize cfg s with
  | .ok r t => cfg.BMC_DUMP_MIN_SPACE_REQD ≤ r ∧ r ≤ cfg.BMC_DUMP_MAX_SIZE ∧
      r + kilobytes t.disk [] ≤ cfg.BMC_DUMP_TOTAL_SIZE
  | .error e _ => e ≠ .nullDereference

/-- The entries that are needed make the room, and what is counted as freed is covered; or the next
entry has no directory. -/
def RoomMade (s : BmcDaemon) : Prop :=
  FitsInt s.disk ∧ (s.disk.isDirectory [] = false ∨
    ∃ j, Needed cfg s j ∧
      (room cfg s j < cfg.BMC_DUMP_MIN_SPACE_REQD ∧ j < s.entries.size ∧ ¬ Listed s j ∨
        cfg.BMC_DUMP_MIN_SPACE_REQD ≤ room cfg s j ∧ Covered cfg s j))

section Loop

variable {cfg}

theorem rotate_enough {size : Nat} (h : cfg.BMC_DUMP_MIN_SPACE_REQD ≤ size) (rounds : Nat) :
    rotate cfg rounds size s = .ok size s := by
  cases rounds with
  | zero =>
      have hnot : ¬ size < cfg.BMC_DUMP_MIN_SPACE_REQD := Nat.not_lt.mpr h
      simp only [rotate, throwIf, hnot, decide_false, Bool.false_eq_true, if_false, pure_bind_apply, pure_apply]
  | succ rounds => simp only [rotate, h, if_true, pure_apply]

theorem minElement_oldest (hs : Keyed s) (hj : j < s.entries.keys.length) :
    minElement (oldestRemoved s j) = .ok s.entries.keys[j] (oldestRemoved s j) := by
  have hmin : (oldestRemoved s j).entries.minKey? = some s.entries.keys[j] := by
    rw [ExtTreeMap.minKey?_eq_head?_keys, oldestRemoved_keys hs, List.drop_eq_getElem_cons hj, List.head?_cons]
  simp only [minElement, get_bind, hmin, pure_apply]

theorem minElement_empty (h : s.entries.size = 0) : minElement s = .error .nullDereference s := by
  have hmin : s.entries.minKey? = none := by
    rw [ExtTreeMap.minKey?_eq_head?_keys, List.eq_nil_of_length_eq_zero (ExtTreeMap.length_keys.trans h),
      List.head?_nil]
  simp only [minElement, get_bind, hmin, throw_apply]

theorem minElement_ok {key : Nat} {t : BmcDaemon} (h : minElement s = .ok key t) : t = s ∧ key ∈ s.entries := by
  cases hmin : s.entries.minKey? with
  | none =>
      simp only [minElement, get_bind, hmin, throw_apply] at h
      cases h
  | some k =>
      simp only [minElement, get_bind, hmin, pure_apply] at h
      cases h
      exact ⟨rfl, ExtTreeMap.minKey?_mem hmin⟩

theorem rotate_less {size : Nat} (h : size < cfg.BMC_DUMP_MIN_SPACE_REQD) (rounds : Nat) :
    rotate cfg (rounds + 1) size s = (minElement >>= fun delEntry =>
      getDirectorySize [toString delEntry] >>= fun freed =>
        deleteAt delEntry >>= fun _ => rotate cfg rounds (size + freed)) s := by
  have hnot : ¬ cfg.BMC_DUMP_MIN_SPACE_REQD ≤ size := Nat.not_le.mpr h
  simp only [rotate, hnot, if_false]

theorem rotate_empty {size : Nat} (h : size < cfg.BMC_DUMP_MIN_SPACE_REQD) (hempty : s.entries.size = 0)
    (rounds : Nat) : rotate cfg rounds size s = .error .nullDereference s := by
  cases rounds with
  | zero => simp only [rotate, throwIf, h, decide_true, if_true, throw_bind_apply]
  | succ rounds => rw [rotate_less h, bind_of_error (minElement_empty hempty)]

theorem rotate_rounds (hs : Keyed s) {rounds : Nat} (hrounds : s.entries.size ≤ rounds) (size : Nat) :
    rotate cfg (rounds + 1) size s = rotate cfg rounds size s := by
  induction rounds generalizing s size with
  | zero =>
      by_cases henough : cfg.BMC_DUMP_MIN_SPACE_REQD ≤ size
      · rw [rotate_enough henough, rotate_enough henough]
      · rw [rotate_empty (Nat.not_le.mp henough) (by omega), rotate_empty (Nat.not_le.mp henough) (by omega)]
  | succ rounds ih =>
      by_cases henough : cfg.BMC_DUMP_MIN_SPACE_REQD ≤ size
      · rw [rotate_enough henough, rotate_enough henough]
      · rw [rotate_less (Nat.not_le.mp henough), rotate_less (Nat.not_le.mp henough)]
        refine bind_congr_of_ok fun key u hmin => bind_congr_of_ok fun freed v hsize => ?_
        refine bind_congr_of_ok fun _ w hat => ?_
        obtain ⟨rfl, hmem⟩ := minElement_ok hmin
        obtain rfl := getDirectorySize_ok hsize
        obtain ⟨e, he, rfl⟩ := deleteAt_eq_ok.mp hat
        refine ih (slotsFrom_trimmed (trimmed_deleteEntry _ e) |>.keyed hs) ?_ _
        rw [deleteEntry_entries, hs key e he, ExtTreeMap.size_erase, if_pos (ExtTreeMap.contains_iff_mem.mpr hmem)]
        omega

theorem rotate_ends (hs : Keyed s) {rounds : Nat} (hrounds : s.entries.size ≤ rounds) (size : Nat) :
    rotate cfg rounds size s = rotate cfg s.entries.size size s := by
  induction rounds, hrounds using Nat.le_induction with
  | base => rfl
  | succ rounds hrounds ih => rw [rotate_rounds hs hrounds, ih]

theorem directoryOf_eq (hj : j < s.entries.keys.length) : directoryOf s j = [toString s.entries.keys[j]] := by
  rw [directoryOf, List.getD_eq_getElem _ _ hj]

theorem rotate_next (hs : Keyed s) {size : Nat} (hless : size < cfg.BMC_DUMP_MIN_SPACE_REQD)
    (hj : j < s.entries.keys.length) (hlisted : Listed s j) (rounds : Nat) :
    rotate cfg (rounds + 1) size (oldestRemoved s j) = (deleteAt s.entries.keys[j] >>= fun _ =>
      rotate cfg rounds (size + kilobytes (oldestRemoved s j).disk (directoryOf s j))) (oldestRemoved s j) := by
  have hdirectory := (isDirectory_oldestRemoved hs hj.le (directoryOf s j)).mpr hlisted
  rw [rotate_less hless, bind_of_ok (minElement_oldest hs hj), ← directoryOf_eq hj,
    bind_of_ok (getDirectorySize_listed hdirectory)]

variable (cfg) in
theorem room_zero (s : BmcDaemon) : room cfg s 0 = cfg.BMC_DUMP_TOTAL_SIZE - kilobytes s.disk [] := by
  have hnone : kilobytesOf s.disk (freed s 0) = 0 :=
    List.sum_eq_zero fun n hn => by
      obtain ⟨x, -, rfl⟩ := List.mem_map.mp hn
      rfl
  rw [room, hnone, Nat.add_zero]

theorem room_succ (hs : Keyed s) (hj : j < s.entries.keys.length) :
    room cfg s (j + 1) = room cfg s j + kilobytes (oldestRemoved s j).disk (directoryOf s j) := by
  have hfreed : kilobytesOf s.disk (freed s (j + 1)) =
      kilobytesOf s.disk (freed s j) + kilobytes (oldestRemoved s j).disk (directoryOf s j) := by
    rw [kilobytes_eq, kilobytesOf_oldestRemoved hs hj.le, funext (freed_succ s j),
      kilobytesOf_or (fun p => freed_disjoint hj)]
    simp only [Bool.and_comm]
  rw [room, room, hfreed, Nat.add_assoc]

def GoesOn (cfg : Config) (s : BmcDaemon) (j : Nat) : Prop :=
  room cfg s j < cfg.BMC_DUMP_MIN_SPACE_REQD ∧ j < s.entries.size ∧ Listed s j ∧ ¬ Hollow s j

theorem first_iff_needed : First (fun i => ¬ GoesOn cfg s i) s.entries.size j ↔ Needed cfg s j ∧ ¬ GoesOn cfg s j := by
  constructor
  · rintro ⟨hle, hend, hgoes⟩
    have hgoes i (hi : i < j) := not_not.mp (hgoes i hi)
    exact ⟨⟨hle, fun i hi => (hgoes i hi).1, fun i hi => (hgoes i hi).2.2.1, fun i hi => (hgoes i hi).2.2.2⟩, hend⟩
  · rintro ⟨hneeded, hend⟩
    refine ⟨hneeded.le, hend, fun i hi => not_not.mpr ⟨hneeded.short i hi, ?_, hneeded.listed i hi, hneeded.filled i hi⟩⟩
    exact hi.trans_le hneeded.le

variable (cfg) in
theorem rotate_skip (hs : Keyed s) (hneeded : Needed cfg s j) (rounds : Nat) :
    rotate cfg (rounds + j) (room cfg s 0) s = rotate cfg rounds (room cfg s j) (oldestRemoved s j) := by
  obtain ⟨hle, hshort, hlisted, hfull⟩ := hneeded
  induction j generalizing rounds with
  | zero => rfl
  | succ j ih =>
      have hlt : j < s.entries.keys.length := by
        rw [ExtTreeMap.length_keys]
        omega
      have hsum : rounds + (j + 1) = rounds + 1 + j := by omega
      rw [hsum, ih _ (by omega) (fun i hi => hshort i (by omega)) (fun i hi => hlisted i (by omega))
        (fun i hi => hfull i (by omega)), room_succ hs hlt]
      refine (rotate_next hs (hshort j (by omega)) hlt (hlisted j (by omega)) rounds).trans ?_
      exact bind_of_ok (deleteAt_oldest hs hlt (hfull j (by omega))) _

/-- The room is made where the loop ends, or the directory of the next entry is missing, or there
is no next entry. -/
theorem rotate_cases (hs : Keyed s) (hneeded : Needed cfg s j) (hend : ¬ GoesOn cfg s j) :
    (cfg.BMC_DUMP_MIN_SPACE_REQD ≤ room cfg s j ∧
      rotate cfg s.entries.size (room cfg s 0) s = .ok (room cfg s j) (oldestRemoved s j)) ∨
    (room cfg s j < cfg.BMC_DUMP_MIN_SPACE_REQD ∧ (j < s.entries.size ∧ ¬ Listed s j) ∧
      rotate cfg s.entries.size (room cfg s 0) s = .error .filesystemError (oldestRemoved s j)) ∨
    (room cfg s j < cfg.BMC_DUMP_MIN_SPACE_REQD ∧ ¬ (j < s.entries.size ∧ ¬ Listed s j) ∧
      rotate cfg s.entries.size (room cfg s 0) s = .error .nullDereference (oldestRemoved s j)) := by
  have hj := hneeded.le
  have hskip := rotate_skip cfg hs hneeded (s.entries.size - j)
  rw [Nat.sub_add_cancel hj] at hskip
  rw [hskip]
  by_cases henough : cfg.BMC_DUMP_MIN_SPACE_REQD ≤ room cfg s j
  · exact .inl ⟨henough, rotate_enough henough _⟩
  have hless := Nat.not_le.mp henough
  right
  have hkeys : s.entries.keys.length = s.entries.size := ExtTreeMap.length_keys
  by_cases hlast : j = s.entries.size
  · have hempty : (oldestRemoved s j).entries.size = 0 := by
      rw [← ExtTreeMap.length_keys, oldestRemoved_keys hs, List.length_drop]
      omega
    exact .inr ⟨hless, fun h => by omega, rotate_empty hless hempty _⟩
  · have hlt : j < s.entries.keys.length := by omega
    obtain ⟨rounds, hrounds⟩ : ∃ rounds, s.entries.size - j = rounds + 1 := ⟨s.entries.size - j - 1, by omega⟩
    rw [hrounds]
    by_cases hlisted : Listed s j
    · have hhollow : Hollow s j := by
        by_contra hfull
        exact hend ⟨hless, by omega, hlisted, hfull⟩
      refine .inr ⟨hless, fun h => h.2 hlisted, ?_⟩
      rw [rotate_next hs hless hlt hlisted, bind_of_error (deleteAt_hollow hs hlt hhollow)]
    · refine .inl ⟨hless, ⟨by omega, hlisted⟩, ?_⟩
      have hmissing : (oldestRemoved s j).disk.isDirectory (directoryOf s j) = false :=
        Bool.eq_false_iff.mpr (mt (isDirectory_oldestRemoved hs hlt.le _).mp hlisted)
      rw [rotate_less hless, bind_of_ok (minElement_oldest hs hlt), ← directoryOf_eq hlt,
        bind_of_error (getDirectorySize_unlisted hmissing)]

/-- What is left on the disk are the files that are not gone. -/
theorem covered_iff (hs : Keyed s) (hj : j ≤ s.entries.size) :
    min (room cfg s j) cfg.BMC_DUMP_MAX_SIZE + kilobytes (oldestRemoved s j).disk [] ≤ cfg.BMC_DUMP_TOTAL_SIZE ↔
      Covered cfg s j := by
  have hall (disk : FileTree Content) : kilobytes disk [] = kilobytesOf disk fun _ => true := kilobytes_eq disk []
  have hleft : kilobytes (oldestRemoved s j).disk [] = kilobytesOf s.disk fun p => !gone s j p := by
    rw [hall, kilobytesOf_oldestRemoved hs (by rwa [ExtTreeMap.length_keys])]
    simp only [Bool.and_true]
  have hused : kilobytesOf s.disk (fun _ => true) =
      kilobytesOf s.disk (gone s j) + kilobytesOf s.disk (fun p => !gone s j p) := by
    simpa only [Bool.true_and] using kilobytesOf_split s.disk (fun _ => true) (gone s j)
  have hgone := kilobytesOf_split s.disk (gone s j) (freed s j)
  have hfreed := kilobytesOf_split s.disk (freed s j) (gone s j)
  have hcommon : kilobytesOf s.disk (fun p => gone s j p && freed s j p) =
      kilobytesOf s.disk (fun p => freed s j p && gone s j p) := by simp only [Bool.and_comm]
  rw [Covered, room, hleft, hall]
  omega

theorem getAllowedSize_unlisted (h : s.disk.isDirectory [] = false) :
    getAllowedSize cfg s = .error .filesystemError s := bind_of_error (getDirectorySize_unlisted h) _

theorem getAllowedSize_rotates (hrotate : cfg.BMC_DUMP_ROTATE_CONFIG = true) (h : s.disk.isDirectory [] = true) :
    getAllowedSize cfg s = (rotate cfg s.entries.size (room cfg s 0) >>= fun size =>
      pure (min size cfg.BMC_DUMP_MAX_SIZE)) s := by
  have hmake (size : Nat) : makeRoom cfg size s = rotate cfg s.entries.size size s := by
    simp only [makeRoom, get_bind, hrotate, if_true]
  rw [room_zero]
  exact (bind_of_ok (getDirectorySize_listed h) _).trans (bind_of_eq (hmake _) _)

end Loop

variable {cfg} in
theorem keepsRoom_iff_roomMade (hrotate : cfg.BMC_DUMP_ROTATE_CONFIG = true)
    (hmax : cfg.BMC_DUMP_MIN_SPACE_REQD ≤ cfg.BMC_DUMP_MAX_SIZE) (hs : Keyed s) :
    KeepsRoom cfg s ↔ RoomMade cfg s := by
  rw [KeepsRoom, RoomMade, and_iff_right fun rounds size hrounds => rotate_ends hs hrounds size]
  refine and_congr_right fun _ => ?_
  cases hroot : s.disk.isDirectory [] with
  | false =>
      rw [getAllowedSize_unlisted hroot]
      exact iff_of_true nofun (.inl rfl)
  | true =>
      rw [getAllowedSize_rotates hrotate hroot]
      obtain ⟨j, hfirst⟩ : ∃ j, First (fun i => ¬ GoesOn cfg s i) s.entries.size j := by
        refine (first_or_none _ _).resolve_right fun hall => hall s.entries.size le_rfl fun h => ?_
        exact Nat.lt_irrefl _ h.2.1
      obtain ⟨hneeded, hend⟩ := first_iff_needed.mp hfirst
      have hone : (∃ i, Needed cfg s i ∧
          (room cfg s i < cfg.BMC_DUMP_MIN_SPACE_REQD ∧ i < s.entries.size ∧ ¬ Listed s i ∨
            cfg.BMC_DUMP_MIN_SPACE_REQD ≤ room cfg s i ∧ Covered cfg s i)) ↔
          (room cfg s j < cfg.BMC_DUMP_MIN_SPACE_REQD ∧ j < s.entries.size ∧ ¬ Listed s j ∨
            cfg.BMC_DUMP_MIN_SPACE_REQD ≤ room cfg s j ∧ Covered cfg s j) := by
        refine ⟨fun ⟨i, hi, h⟩ => ?_, fun h => ⟨j, hneeded, h⟩⟩
        have hlast : ¬ GoesOn cfg s i := by
          rintro ⟨hless, -, hlisted, -⟩
          rcases h with h | h
          · exact h.2.2 hlisted
          · omega
        exact (first_iff_needed.mpr ⟨hi, hlast⟩).unique hfirst ▸ h
      rw [hone, or_iff_right (by simp)]
      rcases rotate_cases hs hneeded hend with ⟨henough, hrun⟩ | ⟨hless, hnext, hrun⟩ | ⟨hless, hnext, hrun⟩
      · rw [bind_of_ok hrun, pure_apply, ← covered_iff hs hneeded.le]
        change _ ∧ _ ∧ min _ _ + kilobytes (oldestRemoved s j).disk [] ≤ _ ↔ _
        omega
      · rw [bind_of_error hrun]
        exact iff_of_true nofun (.inl ⟨hless, hnext⟩)
      · rw [bind_of_error hrun]
        refine iff_of_false (fun h => h rfl) ?_
        rintro (⟨-, h⟩ | ⟨henough, -⟩)
        · exact hnext h
        · omega

private def rotating : Config := { defaultConfig with BMC_DUMP_ROTATE_CONFIG := true }

private def oldDump : BmcEntry := create 1 1 1034240 (some ["1", "obmcdump_1_1.tar"]) .Completed "" 0 0

private def oneDump : BmcDaemon :=
  { (bare ⟨false⟩ ((FileTree.root.mkdir [] "1").write ["1"] "obmcdump_1_1.tar" ⟨1034240, none⟩) : BmcDaemon) with
    entries := (∅ : ExtTreeMap Nat (Option BmcEntry)).insert 1 (some oldDump) }

private theorem oneDump_get (k : Nat) : oneDump.entries[k]? = if 1 = k then some (some oldDump) else none :=
  (insert_get _ _ _ _).trans (if_congr Iff.rfl rfl ExtTreeMap.getElem?_empty)

private theorem keyed_oneDump : Keyed oneDump := by
  intro k e he
  rw [oneDump_get] at he
  split at he
  · cases he
    assumption
  · cases he

private theorem nonNull_oneDump : NonNull oneDump := by
  intro k
  rw [oneDump_get]
  split <;> simp

theorem rotated_dump_keeps_room : KeepsRoom rotating oneDump := by
  refine (keepsRoom_iff_roomMade rfl (by decide) keyed_oneDump).mpr ⟨fun _ => by decide +kernel, .inr ⟨1, ?_, ?_⟩⟩
  · refine ⟨by decide +kernel, fun i hi => ?_, fun i hi => ?_, filled_of_nonNull nonNull_oneDump 1⟩ <;>
      obtain rfl : i = 0 := Nat.lt_one_iff.mp hi
    · decide +kernel
    · decide +kernel
  · exact .inr ⟨by decide +kernel, .inr (by decide +kernel)⟩

private def crowded : FileTree Content := FileTree.root.write [] "core" ⟨1034240, none⟩

theorem crowded_directory_empties_map : ∃ s, Started rotating s ∧ s.entries.isEmpty = true ∧
    getAllowedSize rotating s = .error .nullDereference s ∧ ¬ KeepsRoom rotating s := by
  have hstart : Started rotating (bare ⟨false⟩ crowded) :=
    ⟨crowded, ⟨FileTree.children crowded, fun _ => true, 0⟩, (), by decide +kernel, fun _ => .rfl, rfl⟩
  have hcrash : getAllowedSize rotating (bare ⟨false⟩ crowded) = .error .nullDereference (bare ⟨false⟩ crowded) := rfl
  refine ⟨bare ⟨false⟩ crowded, hstart, rfl, hcrash, ?_⟩
  rintro ⟨-, -, h⟩
  rw [hcrash] at h
  exact h rfl

end DumpCollector.Bmc.Rotation
