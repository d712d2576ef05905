import Std.Data.ExtTreeMap
import Std.Data.ExtTreeSet
import Mathlib.Data.List.Perm.Subperm

namespace DumpCollector.Lib.Maps

open Std

variable {α β γ : Type} [Ord α] [TransOrd α] [LawfulEqOrd α] [DecidableEq α]

variable (m : ExtTreeMap α β) (k l : α)

theorem insert_get (v : β) : (m.insert k v)[l]? = if k = l then some v else m[l]? := by
  simp only [ExtTreeMap.getElem?_insert, LawfulEqCmp.compare_eq_iff_eq]

theorem erase_get : (m.erase k)[l]? = if k = l then none else m[l]? := by
  simp only [ExtTreeMap.getElem?_erase, LawfulEqCmp.compare_eq_iff_eq]

theorem alter_get (f : Option β → Option β) :
    (m.alter k f)[l]? = if k = l then f m[k]? else m[l]? := by
  simp only [ExtTreeMap.getElem?_alter, LawfulEqCmp.compare_eq_iff_eq]

variable {m k} in
theorem alter_of_present {v : β} (h : m[k]? = some v) (f : β → β) : m.alter k (Option.map f) = m.insert k (f v) := by
  refine ExtTreeMap.ext_getElem? fun l => ?_
  rw [alter_get, insert_get, h]
  rfl

theorem insertIfNew_get (v : β) :
    (m.insertIfNew k v)[l]? = if k = l then some (m[l]?.getD v) else m[l]? := by
  rw [ExtTreeMap.getElem?_insertIfNew]
  by_cases hkl : k = l
  · subst hkl
    by_cases hk : k ∈ m
    · simp [hk]
    · simp [hk]
  · simp [hkl, LawfulEqCmp.compare_eq_iff_eq]

variable {m k} in
theorem insertIfNew_new (h : k ∉ m) (v : β) : (m.insertIfNew k v)[k]? = some v := by
  rw [insertIfNew_get, if_pos rfl, ExtTreeMap.getElem?_eq_none h]
  rfl

variable {m k} in
theorem insertIfNew_of_absent (h : m[k]? = none) (v : β) : m.insertIfNew k v = m.insert k v := by
  refine ExtTreeMap.ext_getElem? fun l => ?_
  rw [insertIfNew_get, insert_get]
  split
  · rename_i hkl
    rw [← hkl, h]
    rfl
  · rfl

variable {m k} in
theorem insertIfNew_of_present {w : β} (h : m[k]? = some w) (v : β) : m.insertIfNew k v = m := by
  refine ExtTreeMap.ext_getElem? fun l => ?_
  rw [insertIfNew_get]
  split
  · rename_i hkl
    rw [← hkl, h]
    rfl
  · rfl

variable {m k l} in
theorem insertIfNew_cases {v w : β} (h : (m.insertIfNew k v)[l]? = some w) :
    m[l]? = some w ∨ k = l ∧ m[l]? = none ∧ w = v := by
  rw [insertIfNew_get] at h
  cases hl : m[l]? with
  | some x =>
      rw [hl] at h
      split at h <;> exact .inl h
  | none =>
      rw [hl] at h
      split at h
      · rename_i hkl
        exact .inr ⟨hkl, rfl, (Option.some.inj h).symm⟩
      · cases h

omit [DecidableEq α] in
theorem map_get (f : α → β → γ) : (m.map f)[k]? = m[k]?.map (f k) :=
  ExtTreeMap.getElem?_map

omit [DecidableEq α] [LawfulEqOrd α] in
theorem mem_iff : k ∈ m ↔ ∃ v, m[k]? = some v := by
  rw [ExtTreeMap.mem_iff_isSome_getElem?, Option.isSome_iff_exists]

omit [DecidableEq α] [LawfulEqOrd α] in
theorem not_mem_iff : k ∉ m ↔ m[k]? = none := by
  rw [ExtTreeMap.mem_iff_isSome_getElem?, Option.not_isSome_iff_eq_none]

variable {m k} in
omit [DecidableEq α] in
theorem get_of_toList (h : m.toList = []) : m[k]? = none := by
  cases hk : m[k]? with
  | none => rfl
  | some v =>
      have hmem := ExtTreeMap.mem_toList_iff_getElem?_eq_some.mpr hk
      rw [h] at hmem
      cases hmem

section Find

variable {m k} {p : α × β → Bool} {v w : β}

omit [DecidableEq α] in
theorem find_get (h : m.toList.find? p = some (k, v)) : m[k]? = some v ∧ p (k, v) = true :=
  ⟨ExtTreeMap.mem_toList_iff_getElem?_eq_some.mp (List.mem_of_find?_eq_some h), List.find?_some h⟩

omit [DecidableEq α] in
theorem find_none (h : m.toList.find? p = none) (hk : m[k]? = some v) : p (k, v) = false :=
  Bool.eq_false_iff.mpr (List.find?_eq_none.mp h _ (ExtTreeMap.mem_toList_iff_getElem?_eq_some.mpr hk))

variable {l} in
omit [DecidableEq α] in
theorem find_least (h : m.toList.find? p = some (k, v)) (hl : m[l]? = some w) (hp : p (l, w) = true) :
    k = l ∨ compare k l = .lt := by
  obtain ⟨-, as, bs, htoList, has⟩ := List.find?_eq_some_iff_append.mp h
  have hordered := ExtTreeMap.ordered_keys_toList (t := m)
  have hmem : (l, w) ∈ as ++ (k, v) :: bs := htoList ▸ ExtTreeMap.mem_toList_iff_getElem?_eq_some.mpr hl
  rw [htoList] at hordered
  rcases List.mem_append.mp hmem with hmem | hmem
  · have hno := has _ hmem
    rw [hp] at hno
    cases hno
  · rcases List.mem_cons.mp hmem with heq | hmem
    · cases heq
      exact .inl rfl
    · exact .inr (List.rel_of_pairwise_cons (List.pairwise_append.mp hordered).2.1 hmem)

end Find

theorem find_iff_least {m : ExtTreeMap Nat β} {p : Nat × β → Bool} {k : Nat} {v : β} :
    m.toList.find? p = some (k, v) ↔
      m[k]? = some v ∧ p (k, v) = true ∧ ∀ (l : Nat) (w : β), m[l]? = some w → p (l, w) = true → k ≤ l := by
  constructor
  · intro hfind
    obtain ⟨hk, hp⟩ := find_get hfind
    refine ⟨hk, hp, fun l w hl hw => ?_⟩
    rcases find_least hfind hl hw with heq | hlt
    · exact Nat.le_of_eq heq
    · exact Nat.le_of_lt (Nat.compare_eq_lt.mp hlt)
  · rintro ⟨hk, hp, hleast⟩
    cases hfind : m.toList.find? p with
    | none => exact absurd hp (Bool.eq_false_iff.mp (find_none hfind hk))
    | some x =>
        obtain ⟨l, w⟩ := x
        obtain ⟨hl, hw⟩ := find_get hfind
        obtain rfl : l = k := by
          rcases find_least hfind hk hp with heq | hlt
          · exact heq
          · have hkl := hleast l w hl hw
            have := Nat.compare_eq_lt.mp hlt
            omega
        rw [Option.some.inj (hl.symm.trans hk)]

theorem find_iff_absent {m : ExtTreeMap Nat β} {p : Nat × β → Bool} :
    m.toList.find? p = none ↔ ∀ (k : Nat) (v : β), m[k]? = some v → p (k, v) = false := by
  refine ⟨fun hfind k v hk => find_none hfind hk, fun h => List.find?_eq_none.mpr fun x hx => ?_⟩
  exact Bool.eq_false_iff.mp (h x.1 x.2 (ExtTreeMap.mem_toList_iff_getElem?_eq_some.mp hx))

variable {m k} in
omit [DecidableEq α] in
theorem keys_erase_first {ks : List α} (h : m.keys = k :: ks) : (m.erase k).keys = ks := by
  have hordered : (k :: ks).Pairwise fun a b => compare a b = .lt := h ▸ ExtTreeMap.ordered_keys
  have hnodup : (k :: ks).Nodup := h ▸ ExtTreeMap.nodup_keys
  have hperm : (m.erase k).keys.Perm ks := by
    refine (List.perm_ext_iff_of_nodup ExtTreeMap.nodup_keys hnodup.of_cons).mpr fun a => ?_
    rw [ExtTreeMap.mem_keys, ExtTreeMap.mem_erase, ← ExtTreeMap.mem_keys, h, List.mem_cons, ne_eq,
      LawfulEqCmp.compare_eq_iff_eq]
    constructor
    · rintro ⟨hne, rfl | hmem⟩
      · exact absurd rfl hne
      · exact hmem
    · intro hmem
      refine ⟨?_, .inr hmem⟩
      rintro rfl
      exact (List.nodup_cons.mp hnodup).1 hmem
  refine hperm.eq_of_pairwise (fun a b _ _ hab hba => ?_) ExtTreeMap.ordered_keys hordered.of_cons
  rw [OrientedCmp.gt_of_lt hba] at hab
  cases hab

variable {m k} in
omit [DecidableEq α] in
theorem size_le_of_subset {m' : ExtTreeMap α γ} (h : ∀ k ∈ m, k ∈ m') : m.size ≤ m'.size := by
  rw [← ExtTreeMap.length_keys, ← ExtTreeMap.length_keys]
  refine (List.subperm_of_subset ExtTreeMap.nodup_keys fun k hk => ?_).length_le
  exact ExtTreeMap.mem_keys.mpr (h k (ExtTreeMap.mem_keys.mp hk))

variable {m k} in
omit [DecidableEq α] [LawfulEqOrd α] in
theorem size_insert_of_absent (h : k ∉ m) (v : β) : (m.insert k v).size = m.size + 1 := by
  rw [ExtTreeMap.size_insert, if_neg (by rwa [ExtTreeMap.contains_iff_mem])]

variable {m k} in
omit [DecidableEq α] [LawfulEqOrd α] in
theorem size_insertIfNew_le (v : β) : (m.insertIfNew k v).size ≤ m.size + 1 := by
  rw [ExtTreeMap.size_insertIfNew]
  split <;> omega

omit [DecidableEq α] in
theorem mem_set_insert (t : ExtTreeSet α) (x y : α) : y ∈ t.insert x ↔ x = y ∨ y ∈ t := by
  rw [ExtTreeSet.mem_insert, LawfulEqCmp.compare_eq_iff_eq]

omit [DecidableEq α] in
theorem mem_set_erase (t : ExtTreeSet α) (x y : α) : y ∈ t.erase x ↔ x ≠ y ∧ y ∈ t := by
  rw [ExtTreeSet.mem_erase, ne_eq, ne_eq, LawfulEqCmp.compare_eq_iff_eq]

end DumpCollector.Lib.Maps
