import Mathlib.Algebra.Order.Floor.Ring

namespace DumpCollector.Lib.Truncation

variable {R : Type} [Ring R] [LinearOrder R] [FloorRing R] {x y : R} {n : Int}

def truncated (x : R) : Int := if 0 ≤ x then ⌊x⌋ else ⌈x⌉

theorem truncated_of_nonneg (hx : 0 ≤ x) : truncated x = ⌊x⌋ := if_pos hx

theorem truncated_of_neg (hx : x < 0) : truncated x = ⌈x⌉ := if_neg (not_le.mpr hx)

theorem truncated_nonpos (hx : x < 0) : truncated x ≤ 0 := by
  rw [truncated_of_neg hx]
  exact Int.ceil_nonpos.mpr hx.le

theorem truncated_zero : truncated (0 : R) = 0 := by simp [truncated]

theorem truncated_mono (hxy : x ≤ y) : truncated x ≤ truncated y := by
  rcases lt_or_ge x 0 with hx | hx
  · rcases lt_or_ge y 0 with hy | hy
    · rw [truncated_of_neg hx, truncated_of_neg hy]
      exact Int.ceil_mono hxy
    · apply (truncated_nonpos hx).trans
      rw [truncated_of_nonneg hy]
      exact Int.floor_nonneg.mpr hy
  · rw [truncated_of_nonneg hx, truncated_of_nonneg (hx.trans hxy)]
    exact Int.floor_mono hxy

variable [IsStrictOrderedRing R]

theorem le_truncated_iff (hn : 0 < n) : n ≤ truncated x ↔ (n : R) ≤ x := by
  rcases lt_or_ge x 0 with hx | hx
  · have hcast : (0 : R) < n := Int.cast_pos.mpr hn
    constructor
    · intro h
      exact absurd (hn.trans_le h) (not_lt.mpr (truncated_nonpos hx))
    · intro h
      exact absurd (hcast.trans_le h) (not_lt.mpr hx.le)
  · rw [truncated_of_nonneg hx, Int.le_floor]

theorem truncated_nonneg_iff : 0 ≤ truncated x ↔ -1 < x := by
  rcases lt_or_ge x 0 with hx | hx
  · rw [truncated_of_neg hx, Int.le_ceil_iff, Int.cast_zero, zero_sub]
  · rw [truncated_of_nonneg hx]
    have hneg : (-1 : R) < x := neg_one_lt_zero.trans_le hx
    simp [hneg, Int.floor_nonneg.mpr hx]

end DumpCollector.Lib.Truncation
