import DumpCollector.Lib.Maps
import Mathlib.Data.List.Infix

namespace DumpCollector.Lib.Directory

open Std Maps

/-- A path is the list of its components below a fixed directory, the empty list
being that directory itself. -/
abbrev Path := List String

def filename (p : Path) : String := p.getLast?.getD ""

@[simp] theorem filename_append (p : Path) (x : String) : filename (p ++ [x]) = x := by
  simp [filename]

inductive Node (α : Type)
  | dir
  | file (content : α)
  deriving DecidableEq

variable {α : Type}

abbrev Nodes (α : Type) := ExtTreeMap Path (Node α)

/-- A directory tree as a map from paths. Every node other than the root lies in
a directory, so a path below a file or below nothing cannot be stored. -/
structure FileTree (α : Type) where
  nodes : Nodes α
  closed : ∀ p x, p ++ [x] ∈ nodes → nodes[p]? = some .dir

def FileTree.isDirectory (t : FileTree α) (p : Path) : Bool :=
  match t.nodes[p]? with
  | some .dir => true
  | _ => false

def FileTree.content (t : FileTree α) (p : Path) : Option α :=
  match t.nodes[p]? with
  | some (.file a) => some a
  | _ => none

theorem isDirectory_iff (t : FileTree α) (p : Path) : t.isDirectory p = true ↔ t.nodes[p]? = some .dir := by
  rw [FileTree.isDirectory]
  rcases t.nodes[p]? with _ | (_ | _) <;> simp

theorem content_eq_some (t : FileTree α) (p : Path) (a : α) :
    t.content p = some a ↔ t.nodes[p]? = some (.file a) := by
  rw [FileTree.content]
  rcases t.nodes[p]? with _ | (_ | _) <;> simp

theorem not_isDirectory_of_content {t : FileTree α} {p : Path} {a : α} (h : t.content p = some a) :
    t.isDirectory p = false := by
  rw [content_eq_some] at h
  simp [FileTree.isDirectory, h]

def FileTree.root : FileTree α where
  nodes := (∅ : Nodes α).insert [] .dir
  closed := by simp [ExtTreeMap.mem_insert]

theorem insert_closed (t : FileTree α) (p : Path) (x : String) (n : Node α)
    (hp : t.isDirectory p = true) (hx : t.isDirectory (p ++ [x]) = false) (q : Path) (y : String)
    (h : q ++ [y] ∈ t.nodes.insert (p ++ [x]) n) :
    (t.nodes.insert (p ++ [x]) n)[q]? = some .dir := by
  have hq : t.nodes[q]? = some .dir := by
    rcases ExtTreeMap.mem_insert.mp h with h | h
    · obtain ⟨rfl, -⟩ := List.append_inj' (LawfulEqCmp.compare_eq_iff_eq.mp h) rfl
      exact (isDirectory_iff t p).mp hp
    · exact t.closed q y h
  have hne : p ++ [x] ≠ q := by
    rintro rfl
    rw [(isDirectory_iff t _).mpr hq] at hx
    cases hx
  rw [insert_get, if_neg hne, hq]

def FileTree.mkdir (t : FileTree α) (p : Path) (x : String) : FileTree α :=
  if h : t.isDirectory p = true ∧ p ++ [x] ∉ t.nodes then
    { nodes := t.nodes.insert (p ++ [x]) .dir
      closed := insert_closed t p x .dir h.1 (by simp [isDirectory, ExtTreeMap.getElem?_eq_none h.2]) }
  else t

def FileTree.write (t : FileTree α) (p : Path) (x : String) (a : α) : FileTree α :=
  if h : t.isDirectory p = true ∧ t.isDirectory (p ++ [x]) = false then
    { nodes := t.nodes.insert (p ++ [x]) (.file a)
      closed := insert_closed t p x (.file a) h.1 h.2 }
  else t

def without (m : Nodes α) (p : Path) : Nodes α := m.filter fun q _ => !p.isPrefixOf q

theorem without_get (m : Nodes α) (p q : Path) :
    (without m p)[q]? = if p <+: q then none else m[q]? := by
  rw [without, ExtTreeMap.getElem?_filter']
  by_cases hq : p <+: q
  · simp [List.isPrefixOf_iff_prefix.mpr hq, hq]
  · simp only [Bool.eq_false_iff.mpr (mt List.isPrefixOf_iff_prefix.mp hq), Bool.not_false, hq, if_false]
    cases m[q]? <;> rfl

def FileTree.removeAll (t : FileTree α) (p : Path) : FileTree α where
  nodes := without t.nodes p
  closed := by
    intro q y h
    rw [ExtTreeMap.mem_iff_isSome_getElem?, without_get] at h
    have hqy : ¬ p <+: q ++ [y] := by
      intro hp
      rw [if_pos hp] at h
      cases h
    rw [if_neg hqy] at h
    rw [without_get, if_neg (fun hp => hqy (hp.trans (List.prefix_append _ _)))]
    exact t.closed q y (ExtTreeMap.mem_iff_isSome_getElem?.mpr h)

theorem mkdir_get (t : FileTree α) (p q : Path) (x : String) :
    (t.mkdir p x).nodes[q]? =
      if p ++ [x] = q ∧ t.isDirectory p = true ∧ p ++ [x] ∉ t.nodes then some .dir else t.nodes[q]? := by
  rw [FileTree.mkdir]
  split
  · rename_i h
    simp only [insert_get, h, and_true, not_false_eq_true]
  · rename_i h
    rw [if_neg (fun hq => h hq.2)]

theorem write_get (t : FileTree α) (p q : Path) (x : String) (a : α) :
    (t.write p x a).nodes[q]? =
      if p ++ [x] = q ∧ t.isDirectory p = true ∧ t.isDirectory (p ++ [x]) = false then some (.file a)
      else t.nodes[q]? := by
  rw [FileTree.write]
  split
  · rename_i h
    simp only [insert_get, h, and_true]
  · rename_i h
    rw [if_neg (fun hq => h hq.2)]

theorem removeAll_get (t : FileTree α) (p q : Path) :
    (t.removeAll p).nodes[q]? = if p <+: q then none else t.nodes[q]? := without_get t.nodes p q

theorem isDirectory_of_mkdir {t : FileTree α} {p q : Path} {x : String} (h : (t.mkdir p x).isDirectory q = true) :
    t.isDirectory q = true ∨ q = p ++ [x] := by
  rw [isDirectory_iff, mkdir_get] at h
  split at h
  · rename_i hq
    exact .inr hq.1.symm
  · exact .inl ((isDirectory_iff t q).mpr h)

theorem isDirectory_of_write {t : FileTree α} {p q : Path} {x : String} {a : α}
    (h : (t.write p x a).isDirectory q = true) : t.isDirectory q = true := by
  rw [isDirectory_iff, write_get] at h
  split at h
  · cases h
  · exact (isDirectory_iff t q).mpr h

theorem isDirectory_of_removeAll {t : FileTree α} {p q : Path} (h : (t.removeAll p).isDirectory q = true) :
    t.isDirectory q = true := by
  rw [isDirectory_iff, removeAll_get] at h
  split at h
  · cases h
  · exact (isDirectory_iff t q).mpr h

def FileTree.children (t : FileTree α) (p : Path) : List String :=
  t.nodes.keys.filterMap fun q => if q.dropLast = p then q.getLast? else none

theorem mem_children (t : FileTree α) (p : Path) (x : String) : x ∈ t.children p ↔ p ++ [x] ∈ t.nodes := by
  rw [FileTree.children, List.mem_filterMap]
  constructor
  · rintro ⟨q, hq, hx⟩
    split at hx
    · rename_i hp
      obtain ⟨ys, rfl⟩ := List.getLast?_eq_some_iff.mp hx
      rw [List.dropLast_concat] at hp
      exact hp ▸ ExtTreeMap.mem_keys.mp hq
    · cases hx
  · intro h
    refine ⟨p ++ [x], ExtTreeMap.mem_keys.mpr h, ?_⟩
    rw [List.dropLast_concat, if_pos rfl, List.getLast?_concat]

theorem isDirectory_parent {t : FileTree α} {p : Path} {x : String} (h : t.isDirectory (p ++ [x]) = true) :
    t.isDirectory p = true := by
  refine (isDirectory_iff t p).mpr (t.closed p x ?_)
  exact (mem_iff _ _).mpr ⟨.dir, (isDirectory_iff t _).mp h⟩

end DumpCollector.Lib.Directory
