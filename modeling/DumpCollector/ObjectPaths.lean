import DumpCollector.FileNames
import Mathlib.Data.List.Infix

namespace DumpCollector.ObjectPaths

def isPathChar (c : Char) : Bool := c.isAlphanum || c = '_'

/-- An object path of the bus. The library refuses a message with any other text in its
place, so neither blanks nor signs nor empty elements reach a conversion of an element. -/
structure ObjectPath where
  elements : List String
  valid : ∀ e ∈ elements, e ≠ "" ∧ e.toList.all isPathChar = true

def ObjectPath.str (p : ObjectPath) : List Char :=
  match p.elements with
  | [] => ['/']
  | es => es.flatMap fun e => '/' :: e.toList

/-- The member function filename of a path: what follows the last separator. -/
def ObjectPath.filename (p : ObjectPath) : List Char := (p.str.reverse.takeWhile (· ≠ '/')).reverse

theorem slash_not_mem {p : ObjectPath} {e : String} (he : e ∈ p.elements) : '/' ∉ e.toList := by
  intro hmem
  have hall := List.all_eq_true.mp (p.valid e he).2 '/' hmem
  exact absurd hall (by decide)

theorem filename_of_last {p : ObjectPath} {dir : List String} {e : String} (h : p.elements = dir ++ [e]) :
    p.filename = e.toList := by
  have hstr : p.str = (dir.flatMap fun e => '/' :: e.toList) ++ '/' :: e.toList := by
    rw [ObjectPath.str, h]
    cases dir with
    | nil => simp
    | cons d dir => simp
  have hslash : '/' ∉ e.toList := slash_not_mem (h ▸ List.mem_append_right _ (List.mem_singleton_self e))
  have htake : (e.toList.reverse ++ '/' :: (dir.flatMap fun e => '/' :: e.toList).reverse).takeWhile (· ≠ '/') =
      e.toList.reverse := by
    rw [List.takeWhile_append_of_pos]
    · simp
    · intro c hc
      have hne : c ≠ '/' := fun heq => hslash (heq ▸ List.mem_reverse.mp hc)
      simpa using hne
  rw [ObjectPath.filename, hstr, List.reverse_append, List.reverse_cons, List.append_assoc, List.singleton_append,
    htake, List.reverse_reverse]

end DumpCollector.ObjectPaths
