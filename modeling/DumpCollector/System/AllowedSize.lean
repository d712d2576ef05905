import DumpCollector.System.Manager
import Mathlib.Algebra.GroupWithZero.Nat

namespace DumpCollector.System.AllowedSize

open Std Lib.Directory Requests State Manager

def contentSize : Node Content → Nat
  | .file content => content.size
  | .dir => 0

def usedBytes (disk : FileTree Content) : Nat := (disk.nodes.toList.map fun node => contentSize node.2).sum

def free (totalSize : Int) (bytes : Nat) : Int := max 0 (totalSize - bytes / 1024)

/-- What a caller is told: the smaller of the limit for one dump and what is left of the quota. -/
def quota (totalSize maxSize : Int) (required bytes : Nat) : Except Exn Int :=
  if free totalSize bytes < required then .error (.quotaExceeded "Not enough space: Delete old dumps")
  else .ok (min maxSize (free totalSize bytes))

def SameAnswer (maxSize : Int) (required : Nat) (a b : Int) : Prop :=
  a = b ∨ (a < required ∧ b < required) ∨ (maxSize ≤ a ∧ maxSize ≤ b)

instance decidableSameAnswer (maxSize : Int) (required : Nat) (a b : Int) :
    Decidable (SameAnswer maxSize required a b) :=
  inferInstanceAs (Decidable (_ ∨ _ ∧ _ ∨ _ ∧ _))

theorem int32_nat (n : Nat) :
    int32 n = if n % 2 ^ 32 < 2 ^ 31 then ((n % 2 ^ 32 : Nat) : Int) else (n % 2 ^ 32 : Nat) - 2 ^ 32 := by
  rw [int32, Int.bmod_eq_emod]
  split <;> split <;> omega

theorem int32_add_nat (a : Int) (n : Nat) : int32 (int32 a + n) = int32 (a + n) := Int.bmod_add_bmod

theorem counted_foldl (nodes : List (Path × Node Content)) (n : Nat) :
    nodes.foldl (fun size node =>
      match node.2 with
      | .file content => int32 (size + content.size)
      | .dir => size) (int32 n) = int32 ((n + (nodes.map fun node => contentSize node.2).sum : Nat) : Int) := by
  induction nodes generalizing n with
  | nil => rw [List.foldl_nil, List.map_nil, List.sum_nil, Nat.add_zero]
  | cons node nodes ih =>
      obtain ⟨p, _ | content⟩ := node
      · simpa [contentSize] using ih n
      · rw [List.foldl_cons, List.map_cons, List.sum_cons]
        dsimp only
        rw [int32_add_nat, ← Int.natCast_add, ih]
        simp only [contentSize, Nat.add_assoc]

/-- The bytes are counted modulo 2 ^ 32, and from 2 ^ 31 on the count is negative. -/
theorem directorySize_eq (disk : FileTree Content) : directorySize disk = int32 (usedBytes disk) := by
  have hzero : int32 (0 : Nat) = 0 := by decide
  have h := counted_foldl disk.nodes.toList 0
  rw [hzero, Nat.zero_add] at h
  exact h

theorem tdiv_kilobytes (n : Nat) : (int32 n).tdiv 1024 =
    if n % 2 ^ 32 < 2 ^ 31 then ((n % 2 ^ 32 / 1024 : Nat) : Int) else -((2 ^ 32 - n % 2 ^ 32) / 1024 : Nat) := by
  rw [int32_nat]
  split
  · exact rfl
  · rename_i h
    have hneg : ((n % 2 ^ 32 : Nat) : Int) - 2 ^ 32 = -((2 ^ 32 - n % 2 ^ 32 : Nat) : Int) := by omega
    rw [hneg, Int.neg_tdiv]
    rfl

variable {totalSize maxSize : Int} {required bytes : Nat}

/-- The difference as the code forms it, written over the low 32 bits of the count. -/
def difference (totalSize : Int) (bytes : Nat) : Int :=
  if bytes % 2 ^ 32 < 2 ^ 31 then totalSize - (bytes % 2 ^ 32 / 1024 : Nat)
  else totalSize + ((2 ^ 32 - bytes % 2 ^ 32) / 1024 : Nat)

theorem sizeLeft_counted (disk : FileTree Content) : sizeLeft totalSize ((directorySize disk).tdiv 1024) =
    if difference totalSize (usedBytes disk) < 0 then .ok 0
    else if difference totalSize (usedBytes disk) < (if totalSize < 2 ^ 31 then 2 ^ 31 else 2 ^ 63) then
      .ok (difference totalSize (usedBytes disk))
    else .error .signedOverflow := by
  have hdiff : totalSize - (directorySize disk).tdiv 1024 = difference totalSize (usedBytes disk) := by
    rw [directorySize_eq, tdiv_kilobytes, difference]
    split <;> omega
  rw [sizeLeft, hdiff]
  have hneg : totalSize < (directorySize disk).tdiv 1024 ↔ difference totalSize (usedBytes disk) < 0 := by omega
  simp only [hneg]

/-- When the count, of which only the low 32 bits are kept and which is negative from
2 ^ 31 on, gives the answer for the bytes that are there. -/
def CountsWell (totalSize maxSize : Int) (required bytes : Nat) : Prop :=
  if totalSize < 2 ^ 31 then
    if bytes % 2 ^ 32 < 2 ^ 31 then
      bytes < 2 ^ 32 ∨ maxSize ≤ free totalSize bytes ∨
        totalSize < required + (bytes % 2 ^ 32 / 1024 : Nat) ∨ totalSize ≤ (bytes % 2 ^ 32 / 1024 : Nat)
    else
      totalSize + ((2 ^ 32 - bytes % 2 ^ 32) / 1024 : Nat) < 2 ^ 31 ∧ maxSize ≤ free totalSize bytes
  else
    difference totalSize bytes < 2 ^ 63 ∧
      if difference totalSize bytes % 2 ^ 32 < 2 ^ 31 then
        free totalSize bytes = difference totalSize bytes % 2 ^ 32 ∨
          (free totalSize bytes < required ∧ difference totalSize bytes % 2 ^ 32 < required) ∨
          (maxSize ≤ free totalSize bytes ∧ maxSize ≤ difference totalSize bytes % 2 ^ 32)
      else free totalSize bytes < required

instance decidableCountsWell (totalSize maxSize : Int) (required bytes : Nat) :
    Decidable (CountsWell totalSize maxSize required bytes) := by
  unfold CountsWell
  infer_instance

theorem answer_iff {a b : Int} (h : required ≤ maxSize) :
    (if a < required then .error (.quotaExceeded "Not enough space: Delete old dumps") else .ok (min a maxSize) :
      Except Exn Int) =
      (if b < required then .error (.quotaExceeded "Not enough space: Delete old dumps")
        else .ok (min maxSize b)) ↔ SameAnswer maxSize required a b := by
  rw [SameAnswer]
  split <;> split
  · simp only [true_iff]
    omega
  · simp only [reduceCtorEq, false_iff]
    omega
  · simp only [reduceCtorEq, false_iff]
    omega
  · rw [Except.ok.injEq]
    omega

theorem int32_small {n : Int} (hlow : 0 ≤ n) (hhigh : n < 2 ^ 31) : int32 n = n := by
  rw [int32, Int.bmod_eq_emod]
  split <;> omega

theorem countsWell_small (hmin : required ≤ maxSize) (hmax : maxSize ≤ totalSize) (htotal : totalSize < 2 ^ 31) :
    CountsWell totalSize maxSize required bytes ↔ difference totalSize bytes < 2 ^ 31 ∧
      SameAnswer maxSize required (max 0 (difference totalSize bytes)) (free totalSize bytes) := by
  rw [CountsWell, if_pos htotal, SameAnswer, difference, free]
  split <;> omega

theorem countsWell_large (hmin : required ≤ maxSize) (htotal : ¬ totalSize < 2 ^ 31) :
    CountsWell totalSize maxSize required bytes ↔ difference totalSize bytes < 2 ^ 63 ∧
      SameAnswer maxSize required (int32 (difference totalSize bytes)) (free totalSize bytes) := by
  have hfree : 0 ≤ free totalSize bytes := by
    rw [free]
    omega
  rw [CountsWell, if_neg htotal, SameAnswer, int32, Int.bmod_eq_emod]
  refine and_congr_right fun _ => ?_
  split <;> split <;> omega

variable {cfg : Config} {disk : FileTree Content}

theorem getAllowedSize_eq (hdir : disk.isDirectory [] = true) : getAllowedSize cfg disk =
    (sizeLeft cfg.SYSTEM_DUMP_TOTAL_SIZE ((directorySize disk).tdiv 1024) >>= fun left =>
      if int32 left < cfg.SYSTEM_DUMP_MIN_SPACE_REQD then
        .error (.quotaExceeded "Not enough space: Delete old dumps")
      else .ok (min (int32 left) cfg.SYSTEM_DUMP_MAX_SIZE)) := by
  rw [getAllowedSize, allowedSize, hdir]
  rfl

/-- The int of the count is 32 bits wide while the sizes of the files are 64 bits wide:
from 2 GiB on the answer is right only where the loss does not matter. -/
theorem getAllowedSize_iff (hdir : disk.isDirectory [] = true)
    (hmin : cfg.SYSTEM_DUMP_MIN_SPACE_REQD ≤ cfg.SYSTEM_DUMP_MAX_SIZE)
    (hmax : cfg.SYSTEM_DUMP_MAX_SIZE ≤ cfg.SYSTEM_DUMP_TOTAL_SIZE) :
    getAllowedSize cfg disk =
        quota cfg.SYSTEM_DUMP_TOTAL_SIZE cfg.SYSTEM_DUMP_MAX_SIZE cfg.SYSTEM_DUMP_MIN_SPACE_REQD (usedBytes disk) ↔
      CountsWell cfg.SYSTEM_DUMP_TOTAL_SIZE cfg.SYSTEM_DUMP_MAX_SIZE cfg.SYSTEM_DUMP_MIN_SPACE_REQD
        (usedBytes disk) := by
  have hoverflow : ∀ e : Except Exn Int, e = quota cfg.SYSTEM_DUMP_TOTAL_SIZE cfg.SYSTEM_DUMP_MAX_SIZE
      cfg.SYSTEM_DUMP_MIN_SPACE_REQD (usedBytes disk) → e ≠ .error .signedOverflow := by
    rintro e rfl h
    rw [quota] at h
    split at h <;> cases h
  rw [getAllowedSize_eq hdir, sizeLeft_counted]
  by_cases htotal : cfg.SYSTEM_DUMP_TOTAL_SIZE < 2 ^ 31
  · rw [countsWell_small hmin hmax htotal, if_pos htotal]
    by_cases hneg : difference cfg.SYSTEM_DUMP_TOTAL_SIZE (usedBytes disk) < 0
    · have hzero : max 0 (difference cfg.SYSTEM_DUMP_TOTAL_SIZE (usedBytes disk)) = 0 := by omega
      rw [if_pos hneg, hzero, and_iff_right (by omega)]
      exact answer_iff hmin
    · have hleft : max 0 (difference cfg.SYSTEM_DUMP_TOTAL_SIZE (usedBytes disk)) =
          difference cfg.SYSTEM_DUMP_TOTAL_SIZE (usedBytes disk) := by omega
      rw [if_neg hneg, hleft]
      by_cases hfits : difference cfg.SYSTEM_DUMP_TOTAL_SIZE (usedBytes disk) < 2 ^ 31
      · rw [if_pos hfits, and_iff_right hfits]
        refine (answer_iff hmin).trans ?_
        rw [int32_small (by omega) hfits]
      · rw [if_neg hfits]
        exact iff_of_false (fun h => hoverflow _ h rfl) fun h => hfits h.1
  · have hneg : ¬ difference cfg.SYSTEM_DUMP_TOTAL_SIZE (usedBytes disk) < 0 := by
      rw [difference]
      split <;> omega
    rw [countsWell_large hmin htotal, if_neg hneg, if_neg htotal]
    by_cases hfits : difference cfg.SYSTEM_DUMP_TOTAL_SIZE (usedBytes disk) < 2 ^ 63
    · rw [if_pos hfits, and_iff_right hfits]
      exact answer_iff hmin
    · rw [if_neg hfits]
      exact iff_of_false (fun h => hoverflow _ h rfl) fun h => hfits h.1

private def filled (bytes : Nat) : FileTree Content :=
  (FileTree.root.mkdir [] "1").write ["1"] "obmcdump_1_1.tar.xz" ⟨bytes, none⟩

theorem getAllowedSize_filled :
    getAllowedSize defaultConfig (filled 524288) = quota 1024 500 50 (usedBytes (filled 524288)) :=
  (getAllowedSize_iff (by decide) (by decide) (by decide)).mpr (by decide)

/-- Two gigabytes are counted as a negative number, and a dump of the largest size is allowed. -/
theorem getAllowedSize_two_gigabytes :
    getAllowedSize defaultConfig (filled (2 ^ 31)) = .ok 500 ∧
      quota 1024 500 50 (usedBytes (filled (2 ^ 31))) = .error (.quotaExceeded "Not enough space: Delete old dumps") := by
  decide

end DumpCollector.System.AllowedSize
