import DumpCollector.Requests
import Mathlib.Algebra.Group.Nat.Defs
import Mathlib.Data.List.Infix

namespace DumpCollector.FileNames

open Requests

/-- The widths that std::stoul and a narrowing to uint32_t depend on. The length
of unsigned long is that of the target, 32 or 64 bits. -/
structure Platform where
  ulongMax : Nat

def Platform.bits32 : Platform := ⟨2 ^ 32 - 1⟩

def uint32 (n : Nat) : Nat := n % 2 ^ 32

def uint64 (n : Nat) : Nat := n % 2 ^ 64

theorem uint32_eq {n : Nat} (h : n < 2 ^ 32) : uint32 n = n := Nat.mod_eq_of_lt h

def stoul (plat : Platform) (digits : List Char) : Except Exn Nat :=
  if Nat.ofDigitChars 10 digits 0 ≤ plat.ulongMax then .ok (Nat.ofDigitChars 10 digits 0)
  else .error .outOfRange

def stoull (digits : List Char) : Except Exn Nat :=
  if Nat.ofDigitChars 10 digits 0 < 2 ^ 64 then .ok (Nat.ofDigitChars 10 digits 0)
  else .error .outOfRange

def value (digits : List Char) : Nat := Nat.ofDigitChars 10 digits 0

def dumpPrefix : List Char := "obmcdump_".toList

/-- The pattern obmcdump_([0-9]+)_([0-9]+)\.([a-zA-Z0-9]+) at the head of the
characters. A shorter run of digits would be followed by a digit and not by the
separator, so the longest run is the only one that can match. -/
def matchHere (cs : List Char) : Option (List Char × List Char) :=
  match dumpPrefix.isPrefixOf? cs with
  | none => none
  | some rest =>
      match rest.takeWhile Char.isDigit, rest.dropWhile Char.isDigit with
      | d :: ds, '_' :: rest =>
          match rest.takeWhile Char.isDigit, rest.dropWhile Char.isDigit with
          | t :: ts, '.' :: c :: _ => if c.isAlphanum then some (d :: ds, t :: ts) else none
          | _, _ => none
      | _, _ => none

/-- The function std::regex_search takes the first position at which the pattern
matches, anywhere in the name. -/
def regexSearch : List Char → Option (List Char × List Char)
  | [] => none
  | c :: cs =>
      match matchHere (c :: cs) with
      | some m => some m
      | none => regexSearch cs

/-- The id, as an unsigned long, and the time stamp that are read off a file name:
nothing where the pattern is absent, an exception where a number does not fit. -/
def parseName (plat : Platform) (name : String) : Except Exn (Option (Nat × Nat)) :=
  match regexSearch name.toList with
  | none => .ok none
  | some (idString, epoch) => do
      let timestamp ← stoull epoch
      let id ← stoul plat idString
      return some (id, uint64 (timestamp * 1000 * 1000))

def namedId (plat : Platform) (name : String) : Option Nat :=
  match parseName plat name with
  | .ok (some (id, _)) => some (uint32 id)
  | _ => none

def archiveName (id epoch : Nat) (ext : String) : String :=
  "obmcdump_" ++ toString id ++ "_" ++ toString epoch ++ "." ++ ext

theorem toList_append₆ (a b c d e f : String) : (a ++ b ++ c ++ d ++ e ++ f).toList =
    a.toList ++ (b.toList ++ (c.toList ++ (d.toList ++ (e.toList ++ f.toList)))) := by
  simp only [String.toList_append, List.append_assoc]

theorem archiveName_toList (id epoch : Nat) (ext : String) : (archiveName id epoch ext).toList =
    dumpPrefix ++ ((toString id).toList ++ (['_'] ++ ((toString epoch).toList ++ (['.'] ++ ext.toList)))) :=
  toList_append₆ _ _ _ _ _ _

theorem isPrefixOf?_append (xs ys : List Char) : xs.isPrefixOf? (xs ++ ys) = some ys := by
  induction xs with
  | nil => simp [List.isPrefixOf?]
  | cons x xs ih => simp [List.isPrefixOf?, ih]

theorem takeWhile_digits {ds : List Char} (hds : ∀ c ∈ ds, c.isDigit = true) {c : Char}
    (hc : c.isDigit = false) (rest : List Char) :
    (ds ++ c :: rest).takeWhile Char.isDigit = ds ∧ (ds ++ c :: rest).dropWhile Char.isDigit = c :: rest := by
  induction ds with
  | nil => simp [hc]
  | cons d ds ih =>
      have hd := hds d (by simp)
      have h := ih (fun c hc => hds c (by simp [hc]))
      simp [hd, h]

theorem matchHere_of_form {d t : Char} {ds ts : List Char} (hds : ∀ c ∈ d :: ds, c.isDigit = true)
    (hts : ∀ c ∈ t :: ts, c.isDigit = true) {c : Char} (hc : c.isAlphanum = true) (rest : List Char) :
    matchHere (dumpPrefix ++ (d :: ds ++ '_' :: (t :: ts ++ '.' :: c :: rest))) = some (d :: ds, t :: ts) := by
  have h₁ := takeWhile_digits hds (c := '_') (by decide) (t :: ts ++ '.' :: c :: rest)
  have h₂ := takeWhile_digits hts (c := '.') (by decide) (c :: rest)
  rw [matchHere, isPrefixOf?_append]
  simp only [h₁.1, h₁.2, h₂.1, h₂.2, hc, if_true]

theorem regexSearch_of_matchHere {cs : List Char} {m : List Char × List Char}
    (h : matchHere cs = some m) : regexSearch cs = some m := by
  cases cs with
  | nil =>
      have hnil : matchHere [] = none := by decide
      rw [hnil] at h
      cases h
  | cons c cs => rw [regexSearch, h]

theorem parseName_found {plat : Platform} {name : String} {ids epochs : List Char}
    (h : regexSearch name.toList = some (ids, epochs)) {details : Option (Nat × Nat)} :
    parseName plat name = .ok details ↔ value epochs < 2 ^ 64 ∧ value ids ≤ plat.ulongMax ∧
      details = some (value ids, uint64 (value epochs * 1000 * 1000)) := by
  rw [parseName, h]
  dsimp only
  have hull : stoull epochs = if value epochs < 2 ^ 64 then .ok (value epochs) else .error .outOfRange := rfl
  have hul : stoul plat ids = if value ids ≤ plat.ulongMax then .ok (value ids) else .error .outOfRange := rfl
  rw [hull, hul]
  by_cases hepoch : value epochs < 2 ^ 64
  · rw [if_pos hepoch]
    by_cases hid : value ids ≤ plat.ulongMax
    · rw [if_pos hid]
      constructor
      · intro hdetails
        cases hdetails
        exact ⟨hepoch, hid, rfl⟩
      · rintro ⟨-, -, rfl⟩
        rfl
    · rw [if_neg hid]
      refine iff_of_false (fun hdetails => ?_) fun hdetails => hid hdetails.2.1
      cases hdetails
  · rw [if_neg hepoch]
    refine iff_of_false (fun hdetails => ?_) fun hdetails => hepoch hdetails.1
    cases hdetails

theorem digits_of_nat (n : Nat) :
    ∃ d ds, (toString n).toList = d :: ds ∧ (∀ c ∈ d :: ds, c.isDigit = true) ∧
      Nat.ofDigitChars 10 (d :: ds) 0 = n := by
  have hlist : (toString n).toList = Nat.toDigits 10 n := by simp
  obtain ⟨d, ds, hd⟩ := List.exists_cons_of_ne_nil (Nat.toDigits_ne_nil (n := n) (b := 10))
  refine ⟨d, ds, hlist.trans hd, ?_, ?_⟩
  · rw [← hd]
    exact fun c hc => Nat.isDigit_of_mem_toDigits (by omega) (by omega) hc
  · rw [← hd]
    exact Nat.ofDigitChars_toDigits (by omega) (by omega)

section Archives

variable {plat : Platform} {id epoch : Nat} {ext : String} {c : Char} {cs : List Char} (hext : ext.toList = c :: cs)
  (hc : c.isAlphanum = true)
include hext hc

theorem regexSearch_archiveName :
    regexSearch (archiveName id epoch ext).toList = some ((toString id).toList, (toString epoch).toList) := by
  obtain ⟨d, ds, hd, hdd, -⟩ := digits_of_nat id
  obtain ⟨t, ts, ht, htd, -⟩ := digits_of_nat epoch
  have hname : (archiveName id epoch ext).toList =
      dumpPrefix ++ (d :: ds ++ '_' :: (t :: ts ++ '.' :: c :: cs)) := by
    rw [archiveName_toList, hd, ht, hext]
    rfl
  rw [hname, hd, ht]
  exact regexSearch_of_matchHere (matchHere_of_form hdd htd hc cs)

theorem parseName_archive_iff {details : Option (Nat × Nat)} :
    parseName plat (archiveName id epoch ext) = .ok details ↔
      epoch < 2 ^ 64 ∧ id ≤ plat.ulongMax ∧ details = some (id, uint64 (epoch * 1000 * 1000)) := by
  obtain ⟨d, ds, hd, -, hid⟩ := digits_of_nat id
  obtain ⟨t, ts, ht, -, hepoch⟩ := digits_of_nat epoch
  have hsearch : regexSearch (archiveName id epoch ext).toList = some (d :: ds, t :: ts) := by
    rw [← hd, ← ht]
    exact regexSearch_archiveName hext hc
  have h : parseName plat (archiveName id epoch ext) = .ok details ↔ _ := parseName_found hsearch
  rwa [value, value, hid, hepoch] at h

end Archives

theorem parseName_error {plat : Platform} {name : String} {e : Exn} (h : parseName plat name = .error e) :
    e = .outOfRange := by
  rw [parseName] at h
  cases hm : regexSearch name.toList with
  | none =>
      rw [hm] at h
      cases h
  | some m =>
      simp only [hm, stoull, stoul, bind, Except.bind] at h
      split at h
      · rename_i he
        split at he
        · cases he
        · cases he
          cases h
          rfl
      · split at h
        · rename_i he
          split at he
          · cases he
          · cases he
            cases h
            rfl
        · cases h

theorem parseName_lt {plat : Platform} {name : String} {id timestamp : Nat}
    (h : parseName plat name = .ok (some (id, timestamp))) : timestamp < 2 ^ 64 := by
  rw [parseName] at h
  cases hm : regexSearch name.toList with
  | none =>
      rw [hm] at h
      cases h
  | some m =>
      simp only [hm, bind, Except.bind] at h
      split at h
      · cases h
      · split at h
        · cases h
        · cases h
          exact Nat.mod_lt _ (by decide)

theorem namedId_eq_some {plat : Platform} {name : String} {n : Nat} :
    namedId plat name = some n ↔ ∃ id timestamp, parseName plat name = .ok (some (id, timestamp)) ∧ uint32 id = n := by
  rw [namedId]
  rcases parseName plat name with _ | _ | ⟨id, timestamp⟩ <;> simp

theorem namedId_of_parseName {plat : Platform} {name : String} {id timestamp : Nat}
    (h : parseName plat name = .ok (some (id, timestamp))) : namedId plat name = some (uint32 id) :=
  namedId_eq_some.mpr ⟨id, timestamp, h, rfl⟩

end DumpCollector.FileNames
