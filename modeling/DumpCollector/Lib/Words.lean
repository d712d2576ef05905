import DumpCollector.Lib.Globs
import Mathlib.Data.List.DropRight
import Mathlib.Data.List.Nodup

namespace DumpCollector.Lib.Words

open Globs

abbrev Word := List Char

def isBlank (c : Char) : Bool := c = ' ' || c = '\t' || c = '\n'

/-- The pathnames that exist, as the words may spell them, in the order of the locale. -/
structure Pathnames where
  locale : CharLocale
  present : List Word
  nodup : present.Nodup
  named : ∀ u ∈ present, u ≠ [] ∧ Char.ofNat 0 ∉ u
  parents : ∀ u ∈ present, ∀ parent rest, u = parent ++ '/' :: rest → parent ≠ [] → parent ∈ present

def fields (s : Word) : List Word := (s.splitOnP isBlank).filter fun w => !w.isEmpty

variable (names : Pathnames)

def matching (w : Word) : List Word := names.present.filter (selects names.locale .start w)

/-- A pattern that matches nothing stands for itself. -/
def expandWord (w : Word) : List Word := if (matching names w).isEmpty then [w] else matching names w

/-- What the expansion of an unquoted variable comes to: it is split at blanks, and each
field is expanded to the names it matches. -/
def expand (s : Word) : List Word := (fields s).flatMap (expandWord names)

def echo (args : List Word) : Word := [' '].intercalate args ++ ['\n']

/-- The second of the fields that a delimiter separates, or the line itself without one. -/
def cutLine (delimiter : Char) (line : Word) : Word :=
  match line.splitOnP (· = delimiter) with
  | [] => []
  | [whole] => whole
  | _ :: field :: _ => field

def cut (delimiter : Char) (text : Word) : Word :=
  ['\n'].intercalate ((text.splitOnP (· = '\n')).map (cutLine delimiter))

/-- The newlines at the end are no part of what a command is substituted by. -/
def substitution (output : Word) : Word := output.rdropWhile (· = '\n')

def Pathnames.empty (locale : CharLocale) : Pathnames := ⟨locale, [], .nil, nofun, nofun⟩

def Pathnames.none : Pathnames := .empty posix

variable {names} {locale : CharLocale} {s u w : Word}

theorem mem_splitOnP {α : Type} {p : α → Bool} {xs ys : List α} (h : ys ∈ xs.splitOnP p) {x : α} (hx : x ∈ ys) :
    x ∈ xs ∧ p x = false := by
  induction xs generalizing ys with
  | nil =>
      rw [List.splitOnP_nil, List.mem_singleton] at h
      subst h
      cases hx
  | cons a as ih =>
      rw [List.splitOnP_cons_eq_if_modifyHead] at h
      split at h
      · rcases List.mem_cons.mp h with rfl | h
        · cases hx
        · exact (ih h hx).imp_left (List.mem_cons_of_mem a)
      · rename_i ha
        cases hsplit : as.splitOnP p with
        | nil => exact absurd hsplit (List.splitOnP_ne_nil p as)
        | cons b bs =>
            rw [hsplit, List.modifyHead_cons] at h
            rcases List.mem_cons.mp h with rfl | h
            · rcases List.mem_cons.mp hx with rfl | hx
              · exact ⟨List.mem_cons_self, Bool.eq_false_iff.mpr ha⟩
              · exact (ih (hsplit ▸ List.mem_cons_self) hx).imp_left (List.mem_cons_of_mem a)
            · exact (ih (hsplit ▸ List.mem_cons_of_mem b h) hx).imp_left (List.mem_cons_of_mem a)

theorem fields_word (hne : s ≠ []) (h : ∀ c ∈ s, isBlank c = false) : fields s = [s] := by
  rw [fields, List.splitOnP_eq_singleton h, List.filter_cons_of_pos (by simpa using hne)]
  rfl

theorem ne_nil_of_mem_fields (h : w ∈ fields s) : w ≠ [] := by
  have hne := (List.mem_filter.mp h).2
  simpa using hne

theorem of_mem_fields (h : w ∈ fields s) {c : Char} (hc : c ∈ w) : c ∈ s ∧ isBlank c = false :=
  mem_splitOnP (List.mem_filter.mp h).1 hc

theorem mem_matching : u ∈ matching names w ↔ u ∈ names.present ∧ selects names.locale .start w u = true :=
  List.mem_filter

/-- A word that selects no name but itself is left as it is. -/
theorem expandWord_self (h : ∀ u ∈ names.present, selects names.locale .start w u = true → u = w) :
    expandWord names w = [w] := by
  rw [expandWord]
  split
  · rfl
  · rename_i hne
    have hall : ∀ u ∈ matching names w, u = w := fun u hu => h u (mem_matching.mp hu).1 (mem_matching.mp hu).2
    obtain ⟨u, rest, hcons⟩ := List.exists_cons_of_ne_nil (mt List.isEmpty_iff.mpr hne)
    have hnodup : (matching names w).Nodup := names.nodup.filter _
    rw [hcons] at hall hnodup ⊢
    obtain rfl := hall u List.mem_cons_self
    cases rest with
    | nil => rfl
    | cons v rest =>
        obtain rfl := hall v (List.mem_cons_of_mem u List.mem_cons_self)
        exact absurd List.mem_cons_self (List.nodup_cons.mp hnodup).1

theorem expandWord_plain (h : ∀ c ∈ w, isPattern c = false) : expandWord names w = [w] :=
  expandWord_self fun _ _ hu => absurd hu (Bool.eq_false_iff.mp (not_selects (not_isGlob h)))

theorem mem_expandWord (h : u ∈ expandWord names w) : u = w ∨ u ∈ names.present := by
  rw [expandWord] at h
  split at h
  · exact .inl (List.mem_singleton.mp h)
  · exact .inr (mem_matching.mp h).1

theorem expand_empty (locale : CharLocale) (s : Word) : expand (.empty locale) s = fields s :=
  List.flatMap_singleton' (fields s)

theorem expand_nil : expand names [] = [] := rfl

theorem expand_word (hne : s ≠ []) (hblank : ∀ c ∈ s, isBlank c = false) :
    expand names s = expandWord names s := by
  rw [expand, fields_word hne hblank, List.flatMap_singleton]

theorem ne_nil_of_mem_expand (h : w ∈ expand names s) : w ≠ [] := by
  obtain ⟨v, hv, hw⟩ := List.mem_flatMap.mp h
  rcases mem_expandWord hw with rfl | hpresent
  · exact ne_nil_of_mem_fields hv
  · exact (names.named w hpresent).1

section Only

def path (u : Word) : List Word :=
  u :: ((List.range u.length).filter fun i => i ≠ 0 ∧ u[i]? = some '/').map u.take

theorem mem_path {v : Word} : v ∈ path u ↔ v = u ∨ v ≠ [] ∧ ∃ rest, u = v ++ '/' :: rest := by
  rw [path, List.mem_cons, List.mem_map]
  refine or_congr_right ⟨?_, ?_⟩
  · rintro ⟨i, hi, rfl⟩
    obtain ⟨hlt, hi⟩ := List.mem_filter.mp hi
    have hlt := List.mem_range.mp hlt
    obtain ⟨hne, hget⟩ := of_decide_eq_true hi
    refine ⟨?_, u.drop (i + 1), ?_⟩
    · rw [Ne, List.take_eq_nil_iff, not_or]
      exact ⟨hne, List.ne_nil_of_length_pos (by omega)⟩
    · rw [← (List.getElem?_eq_some_iff.mp hget).2, List.getElem_cons_drop, List.take_append_drop]
  · rintro ⟨hne, rest, rfl⟩
    refine ⟨v.length, List.mem_filter.mpr ⟨List.mem_range.mpr (by simp), ?_⟩, List.take_left⟩
    simpa using hne

theorem nodup_path (u : Word) : (path u).Nodup := by
  refine List.nodup_cons.mpr ⟨fun h => ?_, ?_⟩
  · obtain ⟨i, hi, heq⟩ := List.mem_map.mp h
    have hlt := List.mem_range.mp (List.mem_filter.mp hi).1
    have hlength := congrArg List.length heq
    rw [List.length_take] at hlength
    omega
  · refine List.Nodup.map_on (fun i hi j hj heq => ?_) (List.nodup_range.filter _)
    have hi := List.mem_range.mp (List.mem_filter.mp hi).1
    have hj := List.mem_range.mp (List.mem_filter.mp hj).1
    have hlength := congrArg List.length heq
    rw [List.length_take, List.length_take] at hlength
    omega

def Pathnames.only (locale : CharLocale) (u : Word) (hne : u ≠ []) (hnull : Char.ofNat 0 ∉ u) : Pathnames where
  locale
  present := path u
  nodup := nodup_path u
  named v hv := by
    rcases mem_path.mp hv with rfl | ⟨hsome, rest, rfl⟩
    · exact ⟨hne, hnull⟩
    · exact ⟨hsome, fun hmem => hnull (List.mem_append_left _ hmem)⟩
  parents v hv parent rest heq hparent := by
    refine mem_path.mpr (.inr ⟨hparent, ?_⟩)
    rcases mem_path.mp hv with rfl | ⟨-, rest', rfl⟩
    · exact ⟨rest, heq⟩
    · exact ⟨rest ++ '/' :: rest', by rw [heq, List.append_assoc]; rfl⟩

variable {hne : u ≠ []} {hnull : Char.ofNat 0 ∉ u}

theorem expandWord_only (h : selects locale .start w u = true) :
    expandWord (.only locale u hne hnull) w = [u] := by
  have hselected : matching (.only locale u hne hnull) w = [u] := by
    have hparents : (((List.range u.length).filter fun i => i ≠ 0 ∧ u[i]? = some '/').map u.take).filter
        (selects locale .start w) = [] := by
      refine List.filter_eq_nil_iff.mpr fun v hv hselects => ?_
      -- A directory on the way has fewer slashes than the pattern.
      obtain rfl | ⟨-, rest, heq⟩ := mem_path.mp (List.mem_cons_of_mem u hv)
      · exact (List.nodup_cons.mp (nodup_path v)).1 hv
      · rw [selects, Bool.and_eq_true] at h hselects
        have hslashes := (fits_slashes h.2).trans (fits_slashes hselects.2).symm
        rw [heq, List.count_append, List.count_cons_self] at hslashes
        omega
    change (path u).filter (selects locale .start w) = [u]
    rw [path, List.filter_cons_of_pos h, hparents]
  rw [expandWord, hselected]
  rfl

theorem expand_fields (h : ∀ v ∈ expand names s, v ∉ names.present) : expand names s = fields s := by
  have hword : ∀ w ∈ fields s, expandWord names w = [w] := by
    intro w hw
    rw [expandWord]
    split
    · rfl
    · rename_i hne
      obtain ⟨u, rest, hcons⟩ := List.exists_cons_of_ne_nil (mt List.isEmpty_iff.mpr hne)
      have hu : u ∈ matching names w := hcons ▸ List.mem_cons_self
      refine absurd (mem_matching.mp hu).1 (h u (List.mem_flatMap.mpr ⟨w, hw, ?_⟩))
      rwa [expandWord, if_neg hne]
  rw [expand, List.flatMap_congr hword, List.flatMap_singleton']

end Only

section Fields

theorem mem_intercalate {sep : Word} {xs : List Word} {c : Char} (h : c ∈ sep.intercalate xs) :
    c ∈ sep ∨ ∃ x ∈ xs, c ∈ x := by
  induction xs with
  | nil => cases h
  | cons x xs ih =>
      cases xs with
      | nil =>
          rw [List.intercalate_singleton] at h
          exact .inr ⟨x, List.mem_cons_self, h⟩
      | cons y ys =>
          rw [List.intercalate_cons_cons, List.mem_append, List.mem_append] at h
          rcases h with (hx | hsep) | hrest
          · exact .inr ⟨x, List.mem_cons_self, hx⟩
          · exact .inl hsep
          · exact (ih hrest).imp_right fun hy => by
              obtain ⟨z, hz, hc⟩ := hy
              exact ⟨z, List.mem_cons_of_mem x hz, hc⟩

theorem mem_cutLine {delimiter c : Char} {line : Word} (h : c ∈ cutLine delimiter line) : c ∈ line ∧ c ≠ delimiter := by
  have hpart : ∃ part ∈ line.splitOnP (· = delimiter), c ∈ part := by
    rw [cutLine] at h
    split at h
    · cases h
    · rename_i whole heq
      exact ⟨whole, heq ▸ List.mem_cons_self, h⟩
    · rename_i first field rest heq
      exact ⟨field, heq ▸ List.mem_cons_of_mem first List.mem_cons_self, h⟩
  obtain ⟨part, hpart, hc⟩ := hpart
  exact (mem_splitOnP hpart hc).imp_right fun hne => by simpa using hne

theorem mem_cut {delimiter c : Char} {text : Word} (h : c ∈ cut delimiter text) :
    c = '\n' ∨ c ∈ text ∧ c ≠ delimiter := by
  rcases mem_intercalate h with hsep | ⟨x, hx, hc⟩
  · exact .inl (List.mem_singleton.mp hsep)
  · obtain ⟨line, hline, rfl⟩ := List.mem_map.mp hx
    obtain ⟨hmem, hne⟩ := mem_cutLine hc
    exact .inr ⟨(mem_splitOnP hline hmem).1, hne⟩

theorem mem_echo {args : List Word} {c : Char} (h : c ∈ echo args) : c = ' ' ∨ c = '\n' ∨ ∃ x ∈ args, c ∈ x := by
  rcases List.mem_append.mp h with h | h
  · rcases mem_intercalate h with hsep | hx
    · exact .inl (List.mem_singleton.mp hsep)
    · exact .inr (.inr hx)
  · exact .inr (.inl (List.mem_singleton.mp h))

theorem mem_substitution {output : Word} {c : Char} (h : c ∈ substitution output) : c ∈ output :=
  (List.rdropWhile_prefix _ output).subset h

theorem cutLine_pair {delimiter : Char} {key value : Word} (hkey : ∀ c ∈ key, c ≠ delimiter)
    (hvalue : ∀ c ∈ value, c ≠ delimiter) : cutLine delimiter (key ++ delimiter :: value) = value := by
  rw [cutLine, List.splitOnP_append_cons_of_forall_mem (by simpa using hkey) delimiter (by simp),
    List.splitOnP_eq_singleton (by simpa using hvalue)]

/-- The second field of a single line, as a command substitution gives it. -/
theorem substitution_cut_echo {delimiter : Char} {key value : Word} (hkey : ∀ c ∈ key, c ≠ delimiter ∧ c ≠ '\n')
    (hvalue : ∀ c ∈ value, c ≠ delimiter ∧ c ≠ '\n') (hdelimiter : delimiter ≠ '\n') :
    substitution (cut delimiter (echo [key ++ delimiter :: value])) = value := by
  have hline : ∀ c ∈ key ++ delimiter :: value, c ≠ '\n' := by
    intro c hc
    rcases List.mem_append.mp hc with hc | hc
    · exact (hkey c hc).2
    · rcases List.mem_cons.mp hc with rfl | hc
      · exact hdelimiter
      · exact (hvalue c hc).2
  have hcut : cut delimiter (echo [key ++ delimiter :: value]) = value ++ ['\n'] := by
    rw [cut, echo, List.intercalate_singleton,
      List.splitOnP_append_cons_of_forall_mem (by simpa using hline) '\n' (by simp), List.splitOnP_nil,
      List.map_cons, List.map_singleton, cutLine_pair (fun c hc => (hkey c hc).1) fun c hc => (hvalue c hc).1,
      List.intercalate_cons_cons, List.intercalate_singleton]
    simp [cutLine, List.splitOnP_nil]
  rw [hcut, substitution, List.rdropWhile_concat_pos _ _ _ (by simp), List.rdropWhile_eq_self_iff]
  intro hne
  simpa using (hvalue _ (List.getLast_mem hne)).2

theorem flatten_splitOnP {α : Type} (p : α → Bool) (xs : List α) :
    (xs.splitOnP p).flatten = xs.filter fun x => !p x := by
  induction xs with
  | nil => rfl
  | cons x xs ih =>
      rw [List.splitOnP_cons_eq_if_modifyHead]
      split
      · rename_i hx
        rw [List.flatten_cons, List.nil_append, ih, List.filter_cons_of_neg (by simpa using hx)]
      · rename_i hx
        cases hsplit : xs.splitOnP p with
        | nil => exact absurd hsplit (List.splitOnP_ne_nil p xs)
        | cons w ws =>
            rw [hsplit] at ih
            rw [List.modifyHead_cons, List.flatten_cons, List.cons_append, ← List.flatten_cons, ih,
              List.filter_cons_of_pos (by simpa using hx)]

theorem flatten_fields (s : Word) : (fields s).flatten = s.filter fun c => !isBlank c := by
  rw [fields, List.flatten_filter_not_isEmpty, flatten_splitOnP]

theorem filter_substitution (output : Word) :
    ((substitution output).filter fun c => !isBlank c) = output.filter fun c => !isBlank c := by
  conv_rhs => rw [← List.rdropWhile_append_rtakeWhile (p := fun c => decide (c = '\n')) (l := output)]
  rw [List.filter_append, substitution, List.self_eq_append_right, List.filter_eq_nil_iff]
  intro c hc
  have hnewline : c = '\n' := by simpa using List.mem_rtakeWhile_imp hc
  rw [hnewline]
  decide

theorem sublist_of_mem_splitOnP {α : Type} {p : α → Bool} {xs ys : List α} (h : ys ∈ xs.splitOnP p) :
    ys.Sublist xs := by
  have hflatten := List.sublist_flatten_of_mem h
  rw [flatten_splitOnP] at hflatten
  exact hflatten.trans List.filter_sublist

theorem cutLine_sublist (delimiter : Char) (line : Word) : (cutLine delimiter line).Sublist line := by
  rw [cutLine]
  split
  · exact List.nil_sublist line
  · rename_i whole heq
    exact sublist_of_mem_splitOnP (heq ▸ List.mem_cons_self)
  · rename_i first field rest heq
    exact sublist_of_mem_splitOnP (heq ▸ List.mem_cons_of_mem first List.mem_cons_self)

theorem splitOnP_append_left {α : Type} {p : α → Bool} {xs : List α} (h : ∀ x ∈ xs, p x = false) (ys : List α) :
    (xs ++ ys).splitOnP p = (ys.splitOnP p).modifyHead (xs ++ ·) := by
  induction xs with
  | nil => exact (congrFun List.modifyHead_id (ys.splitOnP p)).symm
  | cons x xs ih =>
      rw [List.cons_append, List.splitOnP_cons_eq_if_modifyHead,
        if_neg (by rw [h x List.mem_cons_self]; exact Bool.false_ne_true),
        ih fun y hy => h y (List.mem_cons_of_mem x hy)]
      simp [Function.comp_def]

theorem filter_intercalate {sep : Word} (hsep : ∀ c ∈ sep, isBlank c = true) (xs : List Word) :
    ((sep.intercalate xs).filter fun c => !isBlank c) = xs.flatten.filter fun c => !isBlank c := by
  have hnone : (sep.filter fun c => !isBlank c) = [] := List.filter_eq_nil_iff.mpr fun c hc => by simp [hsep c hc]
  induction xs with
  | nil => rfl
  | cons x xs ih =>
      cases xs with
      | nil => simp
      | cons y ys =>
          rw [List.intercalate_cons_cons, List.filter_append, List.filter_append, ih, hnone, List.append_nil,
            ← List.filter_append, ← List.flatten_cons]

theorem filter_cut (delimiter : Char) (text : Word) : ((cut delimiter text).filter fun c => !isBlank c) =
    ((text.splitOnP (· = '\n')).map (cutLine delimiter)).flatten.filter fun c => !isBlank c :=
  filter_intercalate (by simp [isBlank]) _

theorem flatten_map_sublist {f : Word → Word} (hf : ∀ w, (f w).Sublist w) (ws : List Word) :
    (ws.map f).flatten.Sublist ws.flatten := by
  induction ws with
  | nil => exact List.Sublist.refl []
  | cons w ws ih => exact (hf w).append ih

theorem filter_cut_sublist {delimiter : Char} {key value : Word} (hkey : ∀ c ∈ key, c ≠ delimiter ∧ c ≠ '\n')
    (hdelimiter : delimiter ≠ '\n') :
    ((cut delimiter (key ++ delimiter :: value)).filter fun c => !isBlank c).Sublist value := by
  have hfront : ∀ c ∈ key ++ [delimiter], decide (c = '\n') = false := by
    intro c hc
    rcases List.mem_append.mp hc with hc | hc
    · simpa using (hkey c hc).2
    · rw [List.mem_singleton.mp hc]
      simpa using hdelimiter
  have happend : key ++ delimiter :: value = key ++ [delimiter] ++ value := by simp
  rw [filter_cut, happend, splitOnP_append_left hfront]
  cases hlines : value.splitOnP (· = '\n') with
  | nil => exact absurd hlines (List.splitOnP_ne_nil _ value)
  | cons line lines =>
      have hline : (cutLine delimiter (key ++ [delimiter] ++ line)).Sublist line := by
        have hsplit : (key ++ [delimiter] ++ line).splitOnP (· = delimiter) = key :: line.splitOnP (· = delimiter) := by
          rw [List.append_assoc, List.singleton_append, List.splitOnP_append_cons_of_forall_mem _ _ (by simp)]
          simpa using fun c hc => (hkey c hc).1
        rw [cutLine, hsplit]
        cases hfields : line.splitOnP (· = delimiter) with
        | nil => exact absurd hfields (List.splitOnP_ne_nil _ line)
        | cons field rest => exact sublist_of_mem_splitOnP (hfields ▸ List.mem_cons_self)
      rw [List.modifyHead_cons, List.map_cons, List.flatten_cons]
      refine List.filter_sublist.trans ((hline.append (flatten_map_sublist (cutLine_sublist delimiter) lines)).trans ?_)
      rw [← List.flatten_cons, ← hlines, flatten_splitOnP]
      exact List.filter_sublist

theorem sublist_filter_cut {delimiter : Char} {line text : Word} (hline : line ∈ text.splitOnP (· = '\n'))
    (hplain : ∀ c ∈ line, c ≠ delimiter ∧ isBlank c = false) :
    line.Sublist ((cut delimiter text).filter fun c => !isBlank c) := by
  have hwhole : cutLine delimiter line = line := by
    rw [cutLine, List.splitOnP_eq_singleton (by simpa using fun c hc => (hplain c hc).1)]
  have hself : (line.filter fun c => !isBlank c) = line := List.filter_eq_self.mpr fun c hc => by simp [hplain c hc]
  rw [filter_cut, ← hself]
  exact (List.sublist_flatten_of_mem (List.mem_map.mpr ⟨line, hline, hwhole⟩)).filter _

/-- The newline that echo writes does not change what is cut. -/
theorem filter_cut_echo (delimiter : Char) (w : Word) : ((cut delimiter (echo [w])).filter fun c => !isBlank c) =
    (cut delimiter w).filter fun c => !isBlank c := by
  rw [filter_cut, filter_cut, echo, List.intercalate_singleton, List.splitOnP_append_cons _ _ (by simp)]
  simp [List.splitOnP_nil, cutLine]

end Fields

section Tokens

variable {α : Type} {p : α → Bool} {xs ys : List α}

def tokens (p : α → Bool) (xs : List α) : List (List α) := (xs.splitOnP p).filter fun w => !w.isEmpty

/-- What follows the last separator is a piece of its own, and grows with what is appended. -/
theorem splitOnP_last (p : α → Bool) (xs : List α) : ∃ front last, xs.splitOnP p = front ++ [last] ∧
    ∀ ys, (∀ y ∈ ys, p y = false) → (xs ++ ys).splitOnP p = front ++ [last ++ ys] := by
  induction xs with
  | nil =>
      refine ⟨[], [], List.splitOnP_nil, fun ys hys => ?_⟩
      exact List.splitOnP_eq_singleton hys
  | cons x xs ih =>
      obtain ⟨front, last, hsplit, happend⟩ := ih
      by_cases hx : p x = true
      · refine ⟨[] :: front, last, ?_, fun ys hys => ?_⟩
        · rw [List.splitOnP_cons_eq_if_modifyHead, if_pos hx, hsplit, List.cons_append]
        · rw [List.cons_append, List.splitOnP_cons_eq_if_modifyHead, if_pos hx, happend ys hys, List.cons_append]
      · cases front with
        | nil =>
            refine ⟨[], x :: last, ?_, fun ys hys => ?_⟩
            · rw [List.splitOnP_cons_eq_if_modifyHead, if_neg hx, hsplit]
              rfl
            · rw [List.cons_append, List.splitOnP_cons_eq_if_modifyHead, if_neg hx, happend ys hys]
              rfl
        | cons w front =>
            refine ⟨(x :: w) :: front, last, ?_, fun ys hys => ?_⟩
            · rw [List.splitOnP_cons_eq_if_modifyHead, if_neg hx, hsplit]
              rfl
            · rw [List.cons_append, List.splitOnP_cons_eq_if_modifyHead, if_neg hx, happend ys hys]
              rfl

theorem tokens_last (p : α → Bool) (xs : List α) : ∃ front last,
    tokens p xs = front ++ (if last = [] then [] else [last]) ∧
    ∀ ys, ys ≠ [] → (∀ y ∈ ys, p y = false) → tokens p (xs ++ ys) = front ++ [last ++ ys] := by
  obtain ⟨front, last, hsplit, happend⟩ := splitOnP_last p xs
  refine ⟨front.filter fun w => !w.isEmpty, last, ?_, fun ys hne hys => ?_⟩
  · rw [tokens, hsplit, List.filter_append]
    cases last <;> simp
  · rw [tokens, happend ys hys, List.filter_append]
    simp [hne]

end Tokens

end DumpCollector.Lib.Words
