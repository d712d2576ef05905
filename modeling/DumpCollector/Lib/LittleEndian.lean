import Mathlib.Algebra.Group.Nat.Defs

namespace DumpCollector.Lib.LittleEndian

/-- The bytes of a number, the least significant first; what is above them is dropped. -/
def toBytes : Nat → Nat → List UInt8
  | 0, _ => []
  | width + 1, n => UInt8.ofNat n :: toBytes width (n / 256)

def ofBytes : List UInt8 → Nat
  | [] => 0
  | b :: bs => b.toNat + 256 * ofBytes bs

@[simp] theorem length_toBytes (width n : Nat) : (toBytes width n).length = width := by
  induction width generalizing n with
  | zero => rfl
  | succ width ih => rw [toBytes, List.length_cons, ih]

theorem ofBytes_toBytes {width n : Nat} (h : n < 256 ^ width) : ofBytes (toBytes width n) = n := by
  induction width generalizing n with
  | zero =>
      rw [pow_zero, Nat.lt_one_iff] at h
      rw [h]
      rfl
  | succ width ih =>
      have hrest : n / 256 < 256 ^ width := by
        rw [pow_succ'] at h
        exact Nat.div_lt_of_lt_mul h
      rw [toBytes, ofBytes, ih hrest, UInt8.toNat_ofNat']
      omega

def readAt (width : Nat) (buffer : List UInt8) (offset : Nat) : Nat := ofBytes ((buffer.drop offset).take width)

theorem readAt_toBytes {width n : Nat} (h : n < 256 ^ width) {buffer front back : List UInt8} {offset k : Nat}
    (hbuffer : buffer.drop offset = front ++ (toBytes width n ++ back)) (hk : front.length = k) :
    readAt width buffer (offset + k) = n := by
  have hdrop : buffer.drop (offset + k) = toBytes width n ++ back := by
    rw [← List.drop_drop, hbuffer, ← hk, List.drop_left]
  rw [readAt, hdrop, List.take_left' (length_toBytes width n), ofBytes_toBytes h]

end DumpCollector.Lib.LittleEndian
