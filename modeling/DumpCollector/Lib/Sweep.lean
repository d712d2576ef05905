import DumpCollector.Lib.Effects
import DumpCollector.Lib.Maps

namespace DumpCollector.Lib.Sweep

open Std Lib.Effects Lib.Maps

variable {ε σ β : Type} (entries : σ → ExtTreeMap Nat β) (p : Nat × β → Prop)

/-- The operation takes the item out of the map if it has the property, and otherwise throws
and leaves the map alone. -/
structure Removes (m : EStateM ε σ PUnit) (x : Nat × β) : Prop where
  succeeds : p x → ∀ s, ∃ t, m s = .ok ⟨⟩ t ∧ entries t = (entries s).erase x.1
  fails : ¬p x → ∀ s, ∃ e t, m s = .error e t ∧ entries t = entries s

def Swept (m m' : ExtTreeMap Nat β) : Prop := ∀ k v, m'[k]? = some v ↔ m[k]? = some v ∧ ¬p (k, v)

def Unobstructed (m : ExtTreeMap Nat β) : Prop :=
  ∀ k v l w, m[k]? = some v → m[l]? = some w → k < l → p (l, w) → p (k, v)

def Reached (xs : List (Nat × β)) (x : Nat × β) : Prop := ∀ y ∈ xs, y.1 ≤ x.1 → p y

variable {entries p} {k : Nat × β → EStateM ε σ PUnit} {xs : List (Nat × β)} {a x : Nat × β} {s : σ}

theorem reached_cons_head (ha : p a) (hsorted : (a :: xs).Pairwise fun x y => x.1 < y.1) : Reached p (a :: xs) a := by
  intro y hy hle
  rcases List.mem_cons.mp hy with rfl | hy
  · exact ha
  · have hlt := List.rel_of_pairwise_cons hsorted hy
    omega

theorem reached_cons_iff (hsorted : (a :: xs).Pairwise fun x y => x.1 < y.1) (hx : x ∈ xs) :
    Reached p (a :: xs) x ↔ p a ∧ Reached p xs x := by
  constructor
  · intro h
    have hlt := List.rel_of_pairwise_cons hsorted hx
    exact ⟨h a List.mem_cons_self (Nat.le_of_lt hlt), fun y hy => h y (List.mem_cons_of_mem a hy)⟩
  · rintro ⟨ha, h⟩ y hy hle
    rcases List.mem_cons.mp hy with rfl | hy
    · exact ha
    · exact h y hy hle

theorem forM_get (hk : ∀ x ∈ xs, Removes entries p (k x) x) (hsorted : xs.Pairwise fun x y => x.1 < y.1)
    (l : Nat) (v : β) :
    (entries (final (forM xs k s)))[l]? = some v ↔
      (entries s)[l]? = some v ∧ ¬∃ x ∈ xs, x.1 = l ∧ Reached p xs x := by
  induction xs generalizing s with
  | nil => simp
  | cons a xs ih =>
      have hrest (t : σ) := ih (s := t) (fun x hx => hk x (List.mem_cons_of_mem a hx)) hsorted.of_cons
      rw [List.forM_cons]
      by_cases ha : p a
      · obtain ⟨t, hok, ht⟩ := (hk a List.mem_cons_self).succeeds ha s
        rw [bind_of_ok hok, hrest t, ht, erase_get]
        constructor
        · rintro ⟨hl, hgone⟩
          split at hl
          · cases hl
          · rename_i hal
            refine ⟨hl, ?_⟩
            rintro ⟨x, hx, rfl, hreached⟩
            rcases List.mem_cons.mp hx with rfl | hx
            · exact hal rfl
            · exact hgone ⟨x, hx, rfl, ((reached_cons_iff hsorted hx).mp hreached).2⟩
        · rintro ⟨hl, hgone⟩
          have hal : ¬a.1 = l := fun hal =>
            hgone ⟨a, List.mem_cons_self, hal, reached_cons_head ha hsorted⟩
          rw [if_neg hal]
          refine ⟨hl, ?_⟩
          rintro ⟨x, hx, rfl, hreached⟩
          exact hgone ⟨x, List.mem_cons_of_mem a hx, rfl, (reached_cons_iff hsorted hx).mpr ⟨ha, hreached⟩⟩
      · obtain ⟨e, t, herror, ht⟩ := (hk a List.mem_cons_self).fails ha s
        rw [bind_of_error herror, final_error, ht]
        constructor
        · intro hl
          refine ⟨hl, ?_⟩
          rintro ⟨x, hx, -, hreached⟩
          rcases List.mem_cons.mp hx with rfl | hx
          · exact ha (hreached x List.mem_cons_self (Nat.le_refl x.1))
          · exact ha ((reached_cons_iff hsorted hx).mp hreached).1
        · exact And.left

/-- A loop over a whole map that is left at the first failure takes out all items that it
could take out, exactly if none that fails comes before one of them. -/
theorem sweep_iff (hk : ∀ x ∈ (entries s).toList, Removes entries p (k x) x) :
    Swept p (entries s) (entries (final (forM (entries s).toList k s))) ↔ Unobstructed p (entries s) := by
  have hsorted : (entries s).toList.Pairwise fun x y => x.1 < y.1 :=
    ExtTreeMap.ordered_keys_toList.imp Nat.compare_eq_lt.mp
  have hget := fun l v => forM_get (s := s) hk hsorted l v
  constructor
  · intro h l v l' w hl hl' hlt hw
    by_contra hv
    have hgone : ¬(entries (final (forM (entries s).toList k s)))[l']? = some w := fun hstays =>
      ((h l' w).mp hstays).2 hw
    rw [hget] at hgone
    refine hgone ⟨hl', ?_⟩
    rintro ⟨x, -, rfl, hreached⟩
    exact hv (hreached (l, v) (ExtTreeMap.mem_toList_iff_getElem?_eq_some.mpr hl) (Nat.le_of_lt hlt))
  · intro h l v
    rw [hget]
    refine and_congr_right fun hl => not_congr ?_
    constructor
    · rintro ⟨x, -, rfl, hreached⟩
      exact hreached (x.1, v) (ExtTreeMap.mem_toList_iff_getElem?_eq_some.mpr hl) (Nat.le_refl x.1)
    · intro hv
      refine ⟨(l, v), ExtTreeMap.mem_toList_iff_getElem?_eq_some.mpr hl, rfl, ?_⟩
      rintro ⟨l', w⟩ hy hle
      have hw := ExtTreeMap.mem_toList_iff_getElem?_eq_some.mp hy
      rcases Nat.lt_or_eq_of_le hle with hlt | rfl
      · exact h l' w l v hw hl hlt hv
      · rw [hl] at hw
        cases hw
        exact hv

end DumpCollector.Lib.Sweep
