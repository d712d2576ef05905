import DumpCollector.Lib.LittleEndian
import Mathlib.Tactic.IntervalCases

namespace DumpCollector.Lib.Hex

open LittleEndian

def bigEndian (width n : Nat) : List UInt8 := (toBytes width n).reverse

@[simp] theorem length_bigEndian (width n : Nat) : (bigEndian width n).length = width := by
  rw [bigEndian, List.length_reverse, length_toBytes]

theorem bigEndian_succ (width n : Nat) : bigEndian (width + 1) n = bigEndian width (n / 256) ++ [UInt8.ofNat n] := by
  rw [bigEndian, toBytes, List.reverse_cons, bigEndian]

theorem bigEndian_zero (width : Nat) : bigEndian width 0 = List.replicate width 0 := by
  induction width with
  | zero => rfl
  | succ width ih => rw [bigEndian_succ, Nat.zero_div, ih, List.replicate_succ']; rfl

def digitValue (c : Char) : Nat :=
  if '0' ≤ c ∧ c ≤ '9' then c.toNat - '0'.toNat
  else if 'a' ≤ c ∧ c ≤ 'f' then c.toNat - 'a'.toNat + 10
  else if 'A' ≤ c ∧ c ≤ 'F' then c.toNat - 'A'.toNat + 10
  else 0

/-- The bytes that are written with two digits each; a last digit without a second one is a
byte on its own. -/
def ofHex : List Char → List UInt8
  | [] => []
  | [c] => [UInt8.ofNat (digitValue c)]
  | c :: d :: rest => UInt8.ofNat (16 * digitValue c + digitValue d) :: ofHex rest

def evenDigits (n : Nat) : List Char :=
  if (Nat.toDigits 16 n).length % 2 = 1 then '0' :: Nat.toDigits 16 n else Nat.toDigits 16 n

theorem digitValue_digitChar {n : Nat} (h : n < 16) : digitValue n.digitChar = n := by
  interval_cases n <;> rfl

theorem length_evenDigits (n : Nat) : (evenDigits n).length % 2 = 0 := by
  rw [evenDigits]
  split
  · rw [List.length_cons]
    omega
  · omega

theorem evenDigits_lt {n : Nat} (h : n < 256) : evenDigits n = [(n / 16).digitChar, (n % 16).digitChar] := by
  rcases Nat.lt_or_ge n 16 with hlt | hge
  · have hzero : n / 16 = 0 := Nat.div_eq_of_lt hlt
    rw [evenDigits, Nat.toDigits_of_lt_base hlt, hzero, Nat.mod_eq_of_lt hlt]
    rfl
  · have hlt : n / 16 < 16 := by omega
    rw [evenDigits, Nat.toDigits_of_base_le (by decide) hge, Nat.toDigits_of_lt_base hlt]
    simp

/-- Two more digits at the end leave the count as odd or as even as it was. -/
theorem evenDigits_ge {n : Nat} (h : 256 ≤ n) :
    evenDigits n = evenDigits (n / 256) ++ [(n / 16 % 16).digitChar, (n % 16).digitChar] := by
  have hdigits : Nat.toDigits 16 n =
      Nat.toDigits 16 (n / 256) ++ [(n / 16 % 16).digitChar, (n % 16).digitChar] := by
    rw [Nat.toDigits_of_base_le (by decide) (by omega : 16 ≤ n),
      Nat.toDigits_of_base_le (by decide) (by omega : 16 ≤ n / 16), Nat.div_div_eq_div_mul, List.append_assoc]
    rfl
  have hlength : (Nat.toDigits 16 n).length = (Nat.toDigits 16 (n / 256)).length + 2 := by
    rw [hdigits, List.length_append]
    rfl
  rw [evenDigits, evenDigits, hlength, Nat.add_mod_right, hdigits]
  split <;> rfl

theorem ofHex_append {ds : List Char} (h : ds.length % 2 = 0) (es : List Char) :
    ofHex (ds ++ es) = ofHex ds ++ ofHex es := by
  induction ds using ofHex.induct with
  | case1 => rfl
  | case2 c => simp at h
  | case3 c d rest ih =>
      have hrest : rest.length % 2 = 0 := by
        simp only [List.length_cons] at h
        omega
      simp only [List.cons_append, ofHex, ih hrest]

theorem ofHex_last (n : Nat) : ofHex [(n / 16 % 16).digitChar, (n % 16).digitChar] = [UInt8.ofNat n] := by
  rw [ofHex, ofHex, digitValue_digitChar (Nat.mod_lt _ (by decide)), digitValue_digitChar (Nat.mod_lt _ (by decide))]
  congr 1
  apply UInt8.toNat_inj.mp
  rw [UInt8.toNat_ofNat', UInt8.toNat_ofNat']
  omega

/-- By induction on the width: with as many zeros as its digits leave, a number is written
in so many bytes. -/
theorem ofHex_evenDigits {width n : Nat} (hwidth : 0 < width) (h : n < 256 ^ width) :
    (evenDigits n).length / 2 ≤ width ∧
      List.replicate (width - (evenDigits n).length / 2) 0 ++ ofHex (evenDigits n) = bigEndian width n := by
  induction width generalizing n with
  | zero => cases hwidth
  | succ width ih =>
      rcases Nat.lt_or_ge n 256 with hlt | hge
      · have hdiv : n / 256 = 0 := Nat.div_eq_of_lt hlt
        have hmod : n / 16 % 16 = n / 16 := Nat.mod_eq_of_lt (by omega)
        have hlast := ofHex_last n
        rw [hmod] at hlast
        rw [evenDigits_lt hlt, hlast, bigEndian_succ, hdiv, bigEndian_zero]
        exact ⟨by simp, by simp⟩
      · have hpow : n / 256 < 256 ^ width := by
          rw [pow_succ'] at h
          exact Nat.div_lt_of_lt_mul h
        have hpos : 0 < width := by
          rcases Nat.eq_zero_or_pos width with rfl | hpos
          · rw [pow_zero] at hpow
            omega
          · exact hpos
        obtain ⟨hle, hbytes⟩ := ih hpos hpow
        have hcount : (evenDigits n).length / 2 = (evenDigits (n / 256)).length / 2 + 1 := by
          rw [evenDigits_ge hge, List.length_append]
          simp
        refine ⟨by omega, ?_⟩
        rw [hcount, Nat.add_sub_add_right, evenDigits_ge hge, ofHex_append (length_evenDigits _), ofHex_last,
          ← List.append_assoc, hbytes, bigEndian_succ]

end DumpCollector.Lib.Hex
