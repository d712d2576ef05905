import DumpCollector.Dreport.Plugins
import DumpCollector.Lib.Runs
import DumpCollector.Lib.Sums
import Mathlib.Algebra.GroupWithZero.Nat

namespace DumpCollector.Dreport.Size

open Std Lib.Maps Lib.Runs Lib.Sums Plugins

/-- The limit of the option is given in kilobytes. -/
def exported (verbose : Bool) (size : Option Nat) : Variables := ⟨verbose, size.map (· * 1024)⟩

def started (log : Nat) : Collection := ⟨∅, log, 0⟩

def total (items : NameDir) : Nat := sumOver items fun _ item => item.raw

variable (verbose : Bool) (K : Nat) (archive : Compressor)

def Within (items : NameDir) (log : Nat) : Prop := total items ≤ K * 1024 ∨ archive items log ≤ K * 1024

def logged (line log : Nat) : Nat := if verbose then log + line else log

def others (items : NameDir) (copied : List (String × Item)) : Nat :=
  sumOver items fun name item => if (copied.map Prod.fst).contains name then 0 else item.raw

def added : List (String × Item) → Nat
  | [] => 0
  | (name, item) :: copied => (if (copied.map Prod.fst).contains name then 0 else item.raw) + added copied

variable (name : String) (copied : List (String × Item)) (line : Nat) (s : Collection)

/-- The item that is checked is within the limit with what this plugin has counted. -/
def QuickCheck : Prop := ((laid s.items copied name).map Item.size).getD 0 + s.cur_dump_size ≤ K * 1024

instance : Decidable (QuickCheck K name copied s) := inferInstanceAs (Decidable (_ ≤ _))

def packed : NameDir := measured (copyAll s.items copied) name

/-- Only the file that is refused has been copied, and what else is there is within the limit: as it
was, or, where a file has been overwritten or a line is logged, raw or in an archive of its own. -/
structure Restores : Prop where
  file : (laid s.items copied name).any Item.isDirectory = false
  alone : ∀ x ∈ copied, x.1 = name
  rest : total (s.items.erase name) ≤ K * 1024 ∨ (s.items[name]? = none ∧ verbose = false) ∨
    archive (s.items.erase name) (logged verbose line s.log) ≤ K * 1024

/-- An item that its plugin lets pass is within the limit beside everything that is there; one
that passes with the archive is not pushed past it by the line that a verbose report logs; and one
that is refused leaves nothing behind. -/
structure CheckBounds : Prop where
  counted : QuickCheck K name copied s → others s.items copied + added copied ≤ K * 1024
  compressed : ¬ QuickCheck K name copied s → archive (packed name copied s) s.log ≤ K * 1024 → verbose = true →
    others s.items copied + added copied ≤ K * 1024 ∨ archive (packed name copied s) (s.log + line) ≤ K * 1024
  refused : ¬ QuickCheck K name copied s → K * 1024 < archive (packed name copied s) s.log →
    others s.items copied + added copied ≤ K * 1024 ∨ Restores verbose K archive name copied line s

/-- A command or a copy that fails leaves what is within the limit, raw or in an archive with the line
of the error. -/
def Bounds (s : Collection) : Event → Prop
  | .plugin => True
  | .addCmdOutput name none line =>
      (s.items[name]?.any Item.isDirectory = false ∧ total (s.items.erase name) ≤ K * 1024) ∨ total s.items ≤ K * 1024 ∨
        archive (rm s.items name) (s.log + line) ≤ K * 1024
  | .addCmdOutput name (some output) line =>
      if s.items[name]?.any Item.isDirectory then
        total s.items ≤ K * 1024 ∨ archive s.items (s.log + line) ≤ K * 1024
      else CheckBounds verbose K archive name [(name, .file (contentOf s.items name ++ output))] line s
  | .addCopyFile name copied true line => CheckBounds verbose K archive name copied line s
  | .addCopyFile _ copied false line =>
      others s.items copied + added copied ≤ K * 1024 ∨ archive (copyAll s.items copied) (s.log + line) ≤ K * 1024

section Totals

theorem total_erase_le (items : NameDir) (name : String) : total (items.erase name) ≤ total items :=
  sumOver_erase_le _ _ _

theorem total_rm_le (items : NameDir) (name : String) : total (rm items name) ≤ total items := by
  rw [rm]
  split
  · exact le_rfl
  · exact total_erase_le _ _

theorem total_measured_le (items : NameDir) (name : String) : total (measured items name) ≤ total items := by
  rw [measured]
  split
  · exact total_erase_le _ _
  · exact le_rfl

/-- By induction on the copies: one that is overwritten later counts for nothing. -/
theorem total_copyAll (items : NameDir) (copied : List (String × Item)) :
    total (copyAll items copied) = others items copied + added copied := by
  induction copied generalizing items with
  | nil => rfl
  | cons x copied ih =>
      obtain ⟨name, item⟩ := x
      refine (ih (items.insert name item)).trans ?_
      rw [others, sumOver_insert, sumOver_erase, others, added, Nat.add_comm (ite _ _ _), Nat.add_assoc]
      congr 1
      refine sumOver_congr fun other rest _ => ?_
      by_cases hname : name = other
      · simp [hname]
      · rw [if_neg hname, List.map_cons, List.contains_cons, beq_eq_false_iff_ne.mpr (Ne.symm hname), Bool.false_or]

theorem erase_copyAll {name : String} {copied : List (String × Item)} (h : ∀ x ∈ copied, x.1 = name) (items : NameDir) :
    (copyAll items copied).erase name = items.erase name := by
  refine ExtTreeMap.ext_getElem? fun other => ?_
  rw [erase_get, erase_get]
  by_cases hname : name = other
  · rw [if_pos hname, if_pos hname]
  · rw [if_neg hname, if_neg hname, copyAll_get, laid]
    have hnone : (copied.reverse.find? fun x => x.1 = other) = none := by
      refine List.find?_eq_none.mpr fun x hx => ?_
      rw [h x (List.mem_reverse.mp hx), decide_eq_true_eq]
      exact hname
    rw [hnone]
    rfl

end Totals

section Steps

variable {verbose K archive name copied line s}

theorem within_logged {items : NameDir} {log : Nat} (h : total items ≤ K * 1024 ∨ archive items log ≤ K * 1024)
    (hverbose : verbose = true → total items ≤ K * 1024 ∨ archive items (log + line) ≤ K * 1024) :
    Within K archive items (logged verbose line log) := by
  cases verbose with
  | false => exact h
  | true => exact hverbose rfl

theorem within_restored (hs : Within K archive s.items s.log) (h : Restores verbose K archive name copied line s) :
    Within K archive (s.items.erase name) (logged verbose line s.log) := by
  rcases h.rest with hraw | ⟨hnew, hquiet⟩ | harchive
  · exact .inl hraw
  · have hsame : s.items.erase name = s.items := by
      refine ExtTreeMap.ext_getElem? fun other => ?_
      rw [erase_get]
      split
      · rename_i hname
        rw [← hname, hnew]
      · rfl
    subst hquiet
    rw [hsame]
    exact hs
  · exact .inr harchive

theorem checkSize_within (hs : Within K archive s.items s.log) (h : CheckBounds verbose K archive name copied line s) :
    Within K archive
      (checkSize name (exported verbose (some K)) archive { s with items := copyAll s.items copied }).1.items
      (logVerbose (exported verbose (some K)) line
        (checkSize name (exported verbose (some K)) archive { s with items := copyAll s.items copied }).1).log := by
  have hlimit : (exported verbose (some K)).dump_size = some (K * 1024) := rfl
  have hchecked := checkSize_checked name archive { s with items := copyAll s.items copied } hlimit
  generalize checkSize name (exported verbose (some K)) archive { s with items := copyAll s.items copied } = r
    at hchecked
  have hsize : sourceSize (measured (copyAll s.items copied) name) name =
      ((laid s.items copied name).map Item.size).getD 0 := by rw [sourceSize_eq, measured_item, copyAll_get]
  have hraw : total (packed name copied s) ≤ others s.items copied + added copied :=
    total_copyAll s.items copied ▸ total_measured_le _ _
  cases hchecked with
  | counted hquick _ =>
      rw [hsize] at hquick
      exact .inl (hraw.trans (h.counted hquick))
  | compressed hlarge hsmall _ =>
      rw [hsize] at hlarge
      refine within_logged (.inr hsmall) fun hverbose => ?_
      exact (h.compressed (Nat.not_le.mpr hlarge) hsmall hverbose).imp_left hraw.trans
  | refused hlarge hpacked =>
      rw [hsize] at hlarge
      rcases h.refused (Nat.not_le.mpr hlarge) hpacked with hall | hrestores
      · exact .inl ((total_rm_le _ _).trans (hraw.trans hall))
      · have hfile : (copyAll s.items copied)[name]?.any Item.isDirectory = false := by
          rw [copyAll_get]
          exact hrestores.file
        have hleft : rm (measured (copyAll s.items copied) name) name = s.items.erase name := by
          rw [measured_file hfile, rm, hfile, if_neg Bool.false_ne_true, erase_copyAll hrestores.alone]
        dsimp only
        rw [hleft]
        exact within_restored hs hrestores

theorem step_within {e : Event} {t : Collection} (hs : Within K archive s.items s.log)
    (h : Bounds verbose K archive s e) (hstep : step (exported verbose (some K)) archive s e = some t) :
    Within K archive t.items t.log := by
  cases e with
  | plugin =>
      cases hstep
      exact hs
  | addCmdOutput name output line =>
      cases hstep
      cases output with
      | none =>
          rcases h with ⟨hfile, hraw⟩ | hraw | harchive
          · have hrm : rm s.items name = s.items.erase name := by
              rw [rm, hfile]
              rfl
            exact .inl ((congrArg total hrm).trans_le hraw)
          · exact .inl ((total_rm_le _ _).trans hraw)
          · exact .inr harchive
      | some output =>
          rw [addCmdOutput]
          rw [Bounds] at h
          by_cases hdirectory : s.items[name]?.any Item.isDirectory = true
          · rw [if_pos hdirectory] at h ⊢
            exact h
          · rw [if_neg hdirectory] at h ⊢
            rw [append_copied hdirectory]
            exact checkSize_within hs h
  | addCopyFile name copied succeeds line =>
      cases hstep
      cases succeeds with
      | true => exact checkSize_within hs h
      | false => exact h.imp_left fun hraw => (total_copyAll s.items copied).trans_le hraw

theorem within_started (log : Nat) : Within K archive (started log).items log := .inl (Nat.zero_le _)

end Steps

section Processes

private def halved : Compressor := fun items log => (total items + log) / 2

private def onePlugin : List Event :=
  [.plugin, .addCopyFile "journal" [("journal", .directory 1000 1000)] true 0,
    .addCopyFile "pstore" [("pstore", .directory 1000 1000)] true 0]

private def page : Content := List.replicate 1000 0

private def uncompressed : Compressor := fun items log => total items + log

private def twoPlugins : List Event :=
  [.plugin, .addCmdOutput "meminfo.log" (some page) 0, .plugin, .addCmdOutput "dmesg.log" (some page) 0]

end Processes

end DumpCollector.Dreport.Size
