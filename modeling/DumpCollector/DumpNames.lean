import DumpCollector.FileNames

namespace DumpCollector.DumpNames

open FileNames Requests

def Digits (ds : List Char) : Prop := ds ≠ [] ∧ ∀ c ∈ ds, c.isDigit = true

/-- The pattern matches at the head of the characters: what follows the first character
of the extension is not looked at. -/
def Matches (cs ids epochs : List Char) : Prop :=
  Digits ids ∧ Digits epochs ∧ ∃ c rest, c.isAlphanum = true ∧
    cs = dumpPrefix ++ (ids ++ '_' :: (epochs ++ '.' :: c :: rest))

def Occurs (cs : List Char) : Prop := ∃ front back ids epochs, cs = front ++ back ∧ Matches back ids epochs

/-- Alphanumeric parts that are separated by dots. -/
def Extension (ext : List Char) : Prop :=
  ∃ parts : List (List Char), parts ≠ [] ∧ (∀ p ∈ parts, p ≠ [] ∧ ∀ c ∈ p, c.isAlphanum = true) ∧
    ext = ['.'].intercalate parts

def Documented (cs ids epochs : List Char) : Prop :=
  Digits ids ∧ Digits epochs ∧ ∃ ext, Extension ext ∧ cs = dumpPrefix ++ (ids ++ '_' :: (epochs ++ '.' :: ext))

theorem span_digits {cs ds rest : List Char} {c : Char} (h : cs.takeWhile Char.isDigit = ds)
    (hrest : cs.dropWhile Char.isDigit = c :: rest) : cs = ds ++ c :: rest ∧ ∀ d ∈ ds, d.isDigit = true := by
  refine ⟨?_, fun d hd => ?_⟩
  · rw [← h, ← hrest, List.takeWhile_append_dropWhile]
  · rw [← h] at hd
    exact List.all_eq_true.mp List.all_takeWhile d hd

theorem isPrefixOf?_some {xs cs rest : List Char} (h : xs.isPrefixOf? cs = some rest) : cs = xs ++ rest := by
  induction xs generalizing cs with
  | nil => simpa [List.isPrefixOf?] using h
  | cons x xs ih =>
      cases cs with
      | nil => simp [List.isPrefixOf?] at h
      | cons c cs =>
          rw [List.isPrefixOf?] at h
          split at h
          · rename_i hx
            rw [eq_of_beq hx, ih h, List.cons_append]
          · cases h

theorem matchHere_iff {cs ids epochs : List Char} : matchHere cs = some (ids, epochs) ↔ Matches cs ids epochs := by
  constructor
  · intro h
    rw [matchHere] at h
    split at h
    · cases h
    · rename_i rest hrest
      split at h
      · rename_i d ds rest' hds hrest'
        obtain ⟨hid, hidd⟩ := span_digits hds hrest'
        split at h
        · rename_i t ts c rest'' hts hrest''
          obtain ⟨hepoch, hepochd⟩ := span_digits hts hrest''
          split at h
          · rename_i hc
            cases h
            refine ⟨⟨by simp, hidd⟩, ⟨by simp, hepochd⟩, c, rest'', hc, ?_⟩
            rw [isPrefixOf?_some hrest, hid, hepoch]
          · cases h
        · cases h
      · cases h
  · rintro ⟨⟨hid, hidd⟩, ⟨hepoch, hepochd⟩, c, rest, hc, rfl⟩
    obtain ⟨d, ds, rfl⟩ := List.exists_cons_of_ne_nil hid
    obtain ⟨t, ts, rfl⟩ := List.exists_cons_of_ne_nil hepoch
    exact matchHere_of_form hidd hepochd hc rest

theorem not_matches_nil {ids epochs : List Char} : ¬ Matches [] ids epochs := by
  rintro ⟨-, -, c, rest, -, hcs⟩
  cases hcs

theorem regexSearch_some {cs ids epochs : List Char} (h : regexSearch cs = some (ids, epochs)) :
    ∃ front back, cs = front ++ back ∧ Matches back ids epochs := by
  induction cs with
  | nil => cases h
  | cons c cs ih =>
      rw [regexSearch] at h
      split at h
      · rename_i m hm
        cases h
        exact ⟨[], c :: cs, rfl, matchHere_iff.mp hm⟩
      · obtain ⟨front, back, rfl, hback⟩ := ih h
        exact ⟨c :: front, back, rfl, hback⟩

theorem regexSearch_none {cs : List Char} (h : regexSearch cs = none) : ¬ Occurs cs := by
  rintro ⟨front, back, ids, epochs, hcs, hback⟩
  induction cs generalizing front with
  | nil =>
      obtain ⟨-, rfl⟩ := List.append_eq_nil_iff.mp hcs.symm
      exact not_matches_nil hback
  | cons c cs ih =>
      rw [regexSearch] at h
      split at h
      · cases h
      · rename_i hhere
        cases front with
        | nil =>
            rw [List.nil_append] at hcs
            rw [hcs, matchHere_iff.mpr hback] at hhere
            cases hhere
        | cons _ front => exact ih h front (List.cons.inj hcs).2

theorem regexSearch_eq_none_iff {cs : List Char} : regexSearch cs = none ↔ ¬ Occurs cs := by
  refine ⟨regexSearch_none, fun h => ?_⟩
  cases hm : regexSearch cs with
  | none => rfl
  | some m =>
      obtain ⟨front, back, hcs, hback⟩ := regexSearch_some hm
      exact absurd ⟨front, back, _, _, hcs, hback⟩ h

theorem extension_head {ext : List Char} (h : Extension ext) : ∃ c rest, ext = c :: rest ∧ c.isAlphanum = true := by
  obtain ⟨parts, hparts, hchars, rfl⟩ := h
  obtain ⟨p, ps, rfl⟩ := List.exists_cons_of_ne_nil hparts
  obtain ⟨hp, hpc⟩ := hchars p (by simp)
  obtain ⟨c, cs, rfl⟩ := List.exists_cons_of_ne_nil hp
  cases ps with
  | nil => exact ⟨c, cs, by simp [List.intercalate], hpc c (by simp)⟩
  | cons q qs => exact ⟨c, cs ++ '.' :: ['.'].intercalate (q :: qs), by simp [List.intercalate], hpc c (by simp)⟩

theorem documented_matches {cs ids epochs : List Char} (h : Documented cs ids epochs) : Matches cs ids epochs := by
  obtain ⟨hid, hepoch, ext, hext, rfl⟩ := h
  obtain ⟨c, rest, rfl, hc⟩ := extension_head hext
  exact ⟨hid, hepoch, c, rest, hc, rfl⟩

theorem regexSearch_documented {cs ids epochs : List Char} (h : Documented cs ids epochs) :
    regexSearch cs = some (ids, epochs) := regexSearch_of_matchHere (matchHere_iff.mpr (documented_matches h))

theorem parseName_absent {plat : Platform} {name : String} (h : ¬ Occurs name.toList) :
    parseName plat name = .ok none := by
  rw [parseName, regexSearch_eq_none_iff.mpr h]

def padded (zeros n : Nat) : String := String.ofList (List.replicate zeros '0') ++ toString n

theorem padded_toList (zeros n : Nat) : (padded zeros n).toList = List.replicate zeros '0' ++ (toString n).toList := by
  simp [padded]

theorem value_zeros (zeros : Nat) (ds : List Char) : value (List.replicate zeros '0' ++ ds) = value ds := by
  induction zeros with
  | zero => rfl
  | succ zeros ih =>
      rw [List.replicate_succ, List.cons_append, ← ih]
      rfl

theorem value_padded (zeros n : Nat) : value (padded zeros n).toList = n := by
  obtain ⟨d, ds, hd, -, hvalue⟩ := digits_of_nat n
  rw [padded_toList, value_zeros, hd]
  exact hvalue

theorem digits_padded (zeros n : Nat) : Digits (padded zeros n).toList := by
  obtain ⟨d, ds, hd, hdigits, -⟩ := digits_of_nat n
  rw [padded_toList, hd]
  refine ⟨by simp, fun c hc => ?_⟩
  rcases List.mem_append.mp hc with hc | hc
  · rw [List.eq_of_mem_replicate hc]
    rfl
  · exact hdigits c hc

end DumpCollector.DumpNames
