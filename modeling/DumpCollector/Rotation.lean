import DumpCollector.Slots
import Mathlib.Data.Nat.Find
import Mathlib.Data.List.Nodup

namespace DumpCollector.Rotation

open Std Lib.Directory Lib.Effects Lib.Maps Entries State Frames Slots

section First

variable {P : Nat → Prop} {n m : Nat}

def First (P : Nat → Prop) (n m : Nat) : Prop := m ≤ n ∧ P m ∧ ∀ j < m, ¬ P j

instance [DecidablePred P] : Decidable (First P n m) := inferInstanceAs (Decidable (_ ∧ _ ∧ _))

theorem first_or_none (P : Nat → Prop) (n : Nat) : (∃ m, First P n m) ∨ ∀ m ≤ n, ¬ P m := by
  classical
  by_cases h : ∃ m, m ≤ n ∧ P m
  · obtain ⟨hle, hP⟩ := Nat.find_spec h
    refine .inl ⟨Nat.find h, hle, hP, fun j hj hPj => Nat.find_min h hj ⟨?_, hPj⟩⟩
    omega
  · exact .inr fun m hm hP => h ⟨m, hm, hP⟩

theorem First.unique {m' : Nat} (h : First P n m) (h' : First P n m') : m = m' := by
  obtain ⟨-, hP, hmin⟩ := h
  obtain ⟨-, hP', hmin'⟩ := h'
  rcases Nat.lt_trichotomy m m' with hlt | heq | hgt
  · exact absurd hP (hmin' m hlt)
  · exact heq
  · exact absurd hP' (hmin m' hgt)

end First

variable {E X C : Type} [DumpEntry E] {s : Daemon E X C} {m : Nat}

def discarded (s : Daemon E X C) (key : Nat) : Daemon E X C :=
  match s.entries[key]? with
  | some (some e) => s.deleteEntry e
  | _ => { s with entries := s.entries.erase key }

def oldestRemoved (s : Daemon E X C) (m : Nat) : Daemon E X C := (s.entries.keys.take m).foldl discarded s

def Hollow (s : Daemon E X C) (m : Nat) : Prop :=
  ∃ h : m < s.entries.keys.length, s.entries[s.entries.keys[m]]? = some none

def Filled (s : Daemon E X C) (m : Nat) : Prop := ∀ j < m, ¬ Hollow s j

omit [DumpEntry E] in
theorem filled_of_nonNull (hn : NonNull s) (m : Nat) : Filled s m := fun _ _ ⟨_, h⟩ => hn _ h

section Discard

theorem discarded_entries (hs : Keyed s) (key : Nat) : (discarded s key).entries = s.entries.erase key := by
  rw [discarded]
  split
  · rename_i e he
    rw [deleteEntry_entries, hs key e he]
  · rfl

theorem discarded_keyed (hs : Keyed s) (key : Nat) : Keyed (discarded s key) := by
  intro k e he
  rw [discarded_entries hs, erase_get] at he
  split at he
  · cases he
  · exact hs k e he

theorem discards_keyed (hs : Keyed s) (keys : List Nat) : Keyed (keys.foldl discarded s) := by
  induction keys generalizing s with
  | nil => exact hs
  | cons key keys ih => exact ih (discarded_keyed hs key)

theorem discards_get (hs : Keyed s) (keys : List Nat) (k : Nat) :
    (keys.foldl discarded s).entries[k]? = if k ∈ keys then none else s.entries[k]? := by
  induction keys generalizing s with
  | nil => simp
  | cons key keys ih =>
      rw [List.foldl_cons, ih (discarded_keyed hs key), discarded_entries hs, erase_get]
      by_cases hk : key = k
      · simp [hk]
      · simp [hk, Ne.symm hk]

end Discard

section Oldest

theorem oldestRemoved_succ (hm : m < s.entries.keys.length) :
    oldestRemoved s (m + 1) = discarded (oldestRemoved s m) s.entries.keys[m] := by
  rw [oldestRemoved, List.take_succ_eq_append_getElem hm, List.foldl_append]
  rfl

theorem oldestRemoved_keyed (hs : Keyed s) (m : Nat) : Keyed (oldestRemoved s m) := discards_keyed hs _

theorem oldestRemoved_get (hs : Keyed s) (m k : Nat) :
    (oldestRemoved s m).entries[k]? = if k ∈ s.entries.keys.take m then none else s.entries[k]? :=
  discards_get hs _ k

omit [DumpEntry E] in
theorem not_mem_take (hm : m < s.entries.keys.length) : s.entries.keys[m] ∉ s.entries.keys.take m := by
  intro h
  have hnodup : s.entries.keys.Nodup := ExtTreeMap.nodup_keys
  obtain ⟨i, hi, heq⟩ := List.mem_take_iff_getElem.mp h
  have := hnodup.getElem_inj_iff.mp heq
  omega

theorem oldestRemoved_slot (hs : Keyed s) (hm : m < s.entries.keys.length) :
    (oldestRemoved s m).entries[s.entries.keys[m]]? = s.entries[s.entries.keys[m]]? := by
  rw [oldestRemoved_get hs, if_neg (not_mem_take hm)]

theorem oldestRemoved_keys (hs : Keyed s) (m : Nat) :
    (oldestRemoved s m).entries.keys = s.entries.keys.drop m := by
  induction m with
  | zero => rfl
  | succ m ih =>
      by_cases hm : m < s.entries.keys.length
      · rw [List.drop_eq_getElem_cons hm] at ih
        rw [oldestRemoved_succ hm, discarded_entries (oldestRemoved_keyed hs m)]
        exact keys_erase_first ih
      · rw [List.drop_eq_nil_of_le (by omega), oldestRemoved, List.take_of_length_le (by omega)]
        rw [List.drop_eq_nil_of_le (by omega), oldestRemoved, List.take_of_length_le (by omega)] at ih
        exact ih

theorem isEmpty_oldestRemoved (hs : Keyed s) (m : Nat) :
    (oldestRemoved s m).entries.isEmpty = true ↔ s.entries.size ≤ m := by
  rw [← ExtTreeMap.isEmpty_keys, oldestRemoved_keys hs, List.isEmpty_iff, List.drop_eq_nil_iff,
    ExtTreeMap.length_keys]

theorem deleteAt_oldest (hs : Keyed s) (hm : m < s.entries.keys.length) (hfull : ¬ Hollow s m) :
    deleteAt s.entries.keys[m] (oldestRemoved s m) = .ok () (oldestRemoved s (m + 1)) := by
  obtain ⟨v, hv⟩ := (mem_iff _ _).mp (ExtTreeMap.mem_keys.mp (List.getElem_mem hm))
  cases v with
  | none => exact absurd ⟨hm, hv⟩ hfull
  | some e =>
      have hslot := (oldestRemoved_slot hs hm).trans hv
      rw [deleteAt_some hslot, oldestRemoved_succ hm, discarded, hslot]

theorem deleteAt_hollow (hs : Keyed s) (hm : m < s.entries.keys.length) (hhollow : Hollow s m) :
    deleteAt s.entries.keys[m] (oldestRemoved s m) = .error .nullDereference (oldestRemoved s m) := by
  obtain ⟨_, hv⟩ := hhollow
  refine deleteAt_empty fun e he => ?_
  rw [oldestRemoved_slot hs hm, hv] at he
  cases he

end Oldest

end DumpCollector.Rotation
