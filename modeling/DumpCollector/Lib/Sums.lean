import DumpCollector.Lib.Maps
import Mathlib.Algebra.BigOperators.Group.List.Basic
import Mathlib.Algebra.Order.BigOperators.Group.List
import Mathlib.Algebra.Order.Ring.Nat

namespace DumpCollector.Lib.Sums

open Std Maps

variable {κ α : Type} [Ord κ] [TransOrd κ]

def sumOver (m : ExtTreeMap κ α) (f : κ → α → Nat) : Nat := (m.toList.map fun x => f x.1 x.2).sum

variable {m : ExtTreeMap κ α} {f g : κ → α → Nat}

theorem sumOver_filter (m : ExtTreeMap κ α) (p : κ → α → Bool) (f : κ → α → Nat) :
    sumOver (m.filter p) f = sumOver m fun k a => if p k a then f k a else 0 := by
  rw [sumOver, sumOver, ExtTreeMap.toList_filter]
  induction m.toList with
  | nil => rfl
  | cons x l ih =>
      rw [List.filter_cons, List.map_cons, List.sum_cons, ← ih]
      cases p x.1 x.2 <;> simp

theorem sumOver_le (h : ∀ k a, f k a ≤ g k a) (m : ExtTreeMap κ α) : sumOver m f ≤ sumOver m g :=
  List.sum_le_sum fun x _ => h x.1 x.2

theorem sumOver_add (m : ExtTreeMap κ α) (f g : κ → α → Nat) :
    sumOver m (fun k a => f k a + g k a) = sumOver m f + sumOver m g := List.sum_map_add

variable [LawfulEqOrd κ]

theorem sumOver_congr (h : ∀ k a, m[k]? = some a → f k a = g k a) : sumOver m f = sumOver m g := by
  refine congrArg List.sum (List.map_congr_left fun x hx => h x.1 x.2 ?_)
  exact ExtTreeMap.mem_toList_iff_getElem?_eq_some.mp hx

theorem nodup_toList (m : ExtTreeMap κ α) : m.toList.Nodup := by
  refine List.Pairwise.imp ?_ (ExtTreeMap.distinct_keys_toList (t := m))
  rintro x y hne rfl
  exact hne ReflCmp.compare_self

theorem sumOver_of_mem {l : List (κ × α)} (hnodup : l.Nodup) (h : ∀ x, x ∈ l ↔ m[x.1]? = some x.2)
    (f : κ → α → Nat) : sumOver m f = (l.map fun x => f x.1 x.2).sum := by
  refine List.Perm.sum_eq (List.Perm.map _ ?_)
  refine (List.perm_ext_iff_of_nodup (nodup_toList m) hnodup).mpr fun x => ?_
  exact ExtTreeMap.mem_toList_iff_getElem?_eq_some.trans (h x).symm

variable [DecidableEq κ]

theorem sumOver_erase (m : ExtTreeMap κ α) (k : κ) (f : κ → α → Nat) :
    sumOver (m.erase k) f = sumOver m fun l a => if k = l then 0 else f l a := by
  have hfilter : m.erase k = m.filter fun l _ => !decide (k = l) := by
    refine ExtTreeMap.ext_getElem? fun l => ?_
    rw [erase_get, ExtTreeMap.getElem?_filter']
    by_cases hkl : k = l
    · simp [hkl]
    · rw [if_neg hkl]
      cases m[l]? with
      | none => rfl
      | some a => simp [hkl]; rfl
  rw [hfilter, sumOver_filter]
  refine sumOver_congr fun l a _ => ?_
  by_cases hkl : k = l <;> simp [hkl]

theorem sumOver_erase_le (m : ExtTreeMap κ α) (k : κ) (f : κ → α → Nat) : sumOver (m.erase k) f ≤ sumOver m f := by
  rw [sumOver_erase]
  refine sumOver_le (fun l a => ?_) m
  split
  · exact Nat.zero_le _
  · exact le_rfl

theorem sumOver_insert (m : ExtTreeMap κ α) (k : κ) (a : α) (f : κ → α → Nat) :
    sumOver (m.insert k a) f = f k a + sumOver (m.erase k) f := by
  have hnot (b : α) : (k, b) ∉ (m.erase k).toList := fun h => by
    have hget := ExtTreeMap.mem_toList_iff_getElem?_eq_some.mp h
    rw [erase_get, if_pos rfl] at hget
    cases hget
  rw [sumOver_of_mem (l := (k, a) :: (m.erase k).toList) (List.nodup_cons.mpr ⟨hnot a, nodup_toList _⟩)]
  · rfl
  · rintro ⟨l, b⟩
    rw [List.mem_cons, insert_get, ExtTreeMap.mem_toList_iff_getElem?_eq_some, erase_get, Prod.mk.injEq]
    by_cases hkl : k = l
    · simp [hkl, eq_comm]
    · simp [hkl, Ne.symm hkl]

end DumpCollector.Lib.Sums
