import Mathlib.Data.List.Nodup

namespace DumpCollector.Lib.Firsts

variable {α κ : Type} [DecidableEq κ] {key : α → κ}

/-- The items whose key is not among the seen ones and has not been met earlier in the list. -/
def firsts (key : α → κ) : List κ → List α → List α
  | _, [] => []
  | seen, a :: l => if key a ∈ seen then firsts key seen l else a :: firsts key (key a :: seen) l

variable {seen : List κ} {l : List α} {a : α} {k : κ}

theorem mem_firsts_iff : a ∈ firsts key seen l ↔ key a ∉ seen ∧ l.find? (fun b => key b = key a) = some a := by
  induction l generalizing seen with
  | nil => simp [firsts]
  | cons b l ih =>
      rw [firsts]
      by_cases hkey : key b = key a
      · rw [List.find?_cons_of_pos (by simpa using hkey)]
        by_cases hseen : key b ∈ seen
        · rw [if_pos hseen, ih]
          simp [hkey ▸ hseen]
        · rw [if_neg hseen, List.mem_cons, ih]
          simp [← hkey, hseen, eq_comm]
      · rw [List.find?_cons_of_neg (by simpa using hkey)]
        by_cases hseen : key b ∈ seen
        · rw [if_pos hseen, ih]
        · rw [if_neg hseen, List.mem_cons, ih]
          have hne : a ≠ b := by
            rintro rfl
            exact hkey rfl
          simp [hne, Ne.symm hkey]

theorem mem_of_mem_firsts (h : a ∈ firsts key seen l) : a ∈ l := List.mem_of_find?_eq_some (mem_firsts_iff.mp h).2

theorem nodup_keys_firsts : ((firsts key seen l).map key).Nodup := by
  induction l generalizing seen with
  | nil => simp [firsts]
  | cons b l ih =>
      rw [firsts]
      by_cases hseen : key b ∈ seen
      · rw [if_pos hseen]
        exact ih
      · rw [if_neg hseen, List.map_cons, List.nodup_cons]
        refine ⟨fun hmem => ?_, ih⟩
        obtain ⟨a, ha, hkey⟩ := List.mem_map.mp hmem
        apply (mem_firsts_iff.mp ha).1
        simp [hkey]

theorem exists_mem_firsts (key : α → κ) (ha : a ∈ l) (hseen : key a ∉ seen) :
    ∃ b ∈ firsts key seen l, key b = key a := by
  have hsome : (l.find? fun b => key b = key a).isSome := List.find?_isSome.mpr ⟨a, ha, by simp⟩
  obtain ⟨b, hb⟩ := Option.isSome_iff_exists.mp hsome
  have hkey : key b = key a := by simpa using List.find?_some hb
  exact ⟨b, mem_firsts_iff.mpr ⟨hkey ▸ hseen, hkey ▸ hb⟩, hkey⟩

theorem firsts_of_nodup (hnodup : (l.map key).Nodup) (hseen : ∀ a ∈ l, key a ∉ seen) : firsts key seen l = l := by
  induction l generalizing seen with
  | nil => rfl
  | cons b l ih =>
      rw [List.map_cons, List.nodup_cons] at hnodup
      rw [firsts, if_neg (hseen b List.mem_cons_self), ih hnodup.2]
      intro a ha hmem
      rcases List.mem_cons.mp hmem with heq | hmem
      · exact hnodup.1 (heq ▸ List.mem_map_of_mem ha)
      · exact hseen a (List.mem_cons_of_mem b ha) hmem

theorem find_iff_of_nodup (hnodup : (l.map key).Nodup) :
    l.find? (fun b => key b = k) = some a ↔ a ∈ l ∧ key a = k := by
  have hfirsts : firsts key [] l = l := firsts_of_nodup hnodup (by simp)
  constructor
  · intro h
    exact ⟨List.mem_of_find?_eq_some h, by simpa using List.find?_some h⟩
  · rintro ⟨ha, rfl⟩
    rw [← hfirsts] at ha
    exact (mem_firsts_iff.mp ha).2

theorem find_map_iff_of_nodup {β : Type} {val : α → β} {b : β} (hnodup : (l.map key).Nodup) :
    (l.find? fun a => key a = k).map val = some b ↔ ∃ a ∈ l, key a = k ∧ val a = b := by
  rw [Option.map_eq_some_iff]
  simp only [find_iff_of_nodup hnodup, and_assoc]

end DumpCollector.Lib.Firsts
