import DumpCollector.Lib.Words
import DumpCollector.Requests
import Mathlib.Data.List.GetD

namespace DumpCollector.Dreport.Args

open Std Lib.Globs Lib.Words Requests

section Encoder

def argKeys : List String := ["bf_ip", "bf_username", "bf_password"]

def position (key : String) : Option Nat :=
  if key = "bf_ip" then some 0
  else if key = "bf_username" then some 1
  else if key = "bf_password" then some 2
  else none

def kvPair (key value : String) : Word := key.toList ++ '=' :: value.toList

def setArg (addArgs : List Word) (key value : String) : List Word :=
  match position key with
  | some i => addArgs.set i (kvPair key value)
  | none => addArgs

def addParam (addArgs : List Word) (param : String × Variant) : Except Exn (List Word) :=
  match param.2 with
  | .str value => .ok (setArg addArgs param.1 value)
  | .num _ => .error .badVariantAccess

def addArgs (params : DumpCreateParams) : Except Exn (List Word) := params.toList.foldlM addParam [[], [], []]

/-- The values of the options -a that executeDreport starts dreport with. -/
def executeDreport (addArgs : List Word) : List Word := addArgs.map fun arg => arg.takeWhile (· ≠ Char.ofNat 0)

end Encoder

section Decoder

variable (names : Pathnames)

/-- The variable in the pipeline that echo starts is not quoted. -/
def optionValue (arg : Word) : Word := substitution (cut '=' (echo (expand names arg)))

/-- The option -a, read by the loop over the options. -/
def pluginArgs (options : List Word) : List Word :=
  options.filterMap fun arg => if '=' ∈ arg then some (optionValue names arg) else none

/-- The arguments a plugin is started with, from an array that is not quoted. -/
def positional (pluginArgs : List Word) : List Word := pluginArgs.flatMap (expand names)

def received (addArgs : List Word) : List Word := positional names (pluginArgs names (executeDreport addArgs))

end Decoder

def value (params : DumpCreateParams) (key : String) : Word :=
  match params[key]? with
  | some (.str s) => s.toList
  | _ => []

def values (params : DumpCreateParams) : List Word := argKeys.map (value params)

/-- The arguments are the values, one for each key in its place; what is not there reads as
an empty argument. -/
def Matches (args values : List Word) : Prop := ∀ i, args.getD i [] = values.getD i []

/-- The characters that word splitting, cut and the two ends of the command line leave as they
are. -/
def isPlain (c : Char) : Bool := !(c = '=' || isBlank c || c = Char.ofNat 0)

/-- No value is found after one that is empty or absent, and each is left alone by the shell. A
value that is a pattern is only left alone if, behind the equals sign of its option, it matches
nothing but itself. -/
def Plain (locale : CharLocale) (values : List Word) : Prop :=
  (values.Pairwise fun v v' => v = [] → v' = []) ∧
    ∀ v ∈ values, (∀ c ∈ v, isPlain c = true) ∧ ∀ u, selects locale .inside v u = true → u = v

section Slots

variable {params : DumpCreateParams}

theorem position_injective {k l : String} {i : Nat} (hk : position k = some i) (hl : position l = some i) : k = l := by
  simp only [position] at hk hl
  grind

theorem setArg_same {args : List Word} {key : String} {i : Nat} (hi : position key = some i) (hlen : i < args.length)
    (s : String) : (setArg args key s)[i]? = some (kvPair key s) := by
  rw [setArg, hi]
  exact List.getElem?_set_self hlen

theorem setArg_other {args : List Word} {key key' : String} {i : Nat} (hi : position key = some i) (hne : key' ≠ key)
    (s : String) : (setArg args key' s)[i]? = args[i]? := by
  rw [setArg]
  split
  · rename_i j hj
    refine List.getElem?_set_ne ?_
    rintro rfl
    exact hne (position_injective hj hi)
  · rfl

theorem setArg_length (args : List Word) (key s : String) : (setArg args key s).length = args.length := by
  rw [setArg]
  split
  · exact List.length_set
  · rfl

theorem addParams_slots {xs : List (String × Variant)} {args₀ args : List Word}
    (hkeys : xs.Pairwise fun x y => x.1 ≠ y.1) (h : xs.foldlM addParam args₀ = .ok args) {key : String} {i : Nat}
    (hi : position key = some i) (hlen : i < args₀.length) :
    (∀ n, (key, .num n) ∉ xs) ∧ (∀ s, (key, .str s) ∈ xs → args[i]? = some (kvPair key s)) ∧
      ((∀ v, (key, v) ∉ xs) → args[i]? = args₀[i]?) := by
  induction xs generalizing args₀ with
  | nil =>
      cases h
      exact ⟨fun n => List.not_mem_nil, fun s hs => absurd hs List.not_mem_nil, fun _ => rfl⟩
  | cons x xs ih =>
      obtain ⟨key', v'⟩ := x
      obtain ⟨hfirst, hrest⟩ := List.pairwise_cons.mp hkeys
      cases v' with
      | num n =>
          rw [List.foldlM_cons] at h
          cases h
      | str s' =>
          rw [List.foldlM_cons] at h
          change xs.foldlM addParam (setArg args₀ key' s') = .ok args at h
          obtain ⟨hnum, hstr, habsent⟩ := ih hrest h (by rwa [setArg_length])
          by_cases hkey : key' = key
          · subst hkey
            have hnot : ∀ v, (key', v) ∉ xs := fun v hv => hfirst _ hv rfl
            have hset : args[i]? = some (kvPair key' s') := (habsent hnot).trans (setArg_same hi hlen s')
            refine ⟨fun n hn => ?_, fun s hs => ?_, fun hno => absurd List.mem_cons_self (hno (.str s'))⟩
            · rcases List.mem_cons.mp hn with heq | hn
              · cases heq
              · exact hnot _ hn
            · rcases List.mem_cons.mp hs with heq | hs
              · cases heq
                exact hset
              · exact absurd hs (hnot _)
          · have hother : ∀ v, (key, v) ∈ (key', .str s') :: xs → (key, v) ∈ xs := fun v hv => by
              rcases List.mem_cons.mp hv with heq | hv
              · cases heq
                exact absurd rfl hkey
              · exact hv
            refine ⟨fun n hn => hnum n (hother _ hn), fun s hs => hstr s (hother _ hs), fun hno => ?_⟩
            exact (habsent fun v hv => hno v (List.mem_cons_of_mem _ hv)).trans (setArg_other hi hkey s')

def slot (params : DumpCreateParams) (key : String) : Word :=
  match params[key]? with
  | some (.str s) => kvPair key s
  | _ => []

theorem addArgs_slot {args : List Word} (h : addArgs params = .ok args) {key : String} {i : Nat}
    (hi : position key = some i) (hlen : i < 3) : args[i]? = some (slot params key) := by
  have hkeys : params.toList.Pairwise fun x y => x.1 ≠ y.1 := by
    refine ExtTreeMap.ordered_keys_toList.imp fun hlt heq => ?_
    rw [heq, compare_self] at hlt
    cases hlt
  obtain ⟨hnum, hstr, habsent⟩ := addParams_slots hkeys h hi hlen
  have hmem : ∀ v, params[key]? = some v ↔ (key, v) ∈ params.toList := fun v =>
    ExtTreeMap.mem_toList_iff_getElem?_eq_some.symm
  rw [slot]
  cases hget : params[key]? with
  | none =>
      have hno : ∀ v, (key, v) ∉ params.toList := fun v hv => by
        rw [(hmem v).mpr hv] at hget
        cases hget
      rw [habsent hno]
      have hempty : ∀ j < 3, ([[], [], []] : List Word)[j]? = some [] := by decide
      exact hempty i hlen
  | some v =>
      cases v with
      | str s => exact hstr s ((hmem _).mp hget)
      | num n => exact absurd ((hmem _).mp hget) (hnum n)

theorem addParams_length {xs : List (String × Variant)} {args₀ args : List Word}
    (h : xs.foldlM addParam args₀ = .ok args) : args.length = args₀.length := by
  induction xs generalizing args₀ with
  | nil =>
      cases h
      rfl
  | cons x xs ih =>
      obtain ⟨key, v⟩ := x
      rw [List.foldlM_cons] at h
      cases v with
      | num n => cases h
      | str s => exact (ih h).trans (setArg_length args₀ key s)

theorem addArgs_eq {args : List Word} (h : addArgs params = .ok args) : args = argKeys.map (slot params) := by
  refine List.ext_getElem? fun i => ?_
  match i with
  | 0 => exact addArgs_slot h rfl (by decide)
  | 1 => exact addArgs_slot h rfl (by decide)
  | 2 => exact addArgs_slot h rfl (by decide)
  | j + 3 =>
      have hlength : args.length = 3 := addParams_length h
      rw [List.getElem?_eq_none (by omega)]
      rfl

end Slots

section Words

variable {names : Pathnames} {params : DumpCreateParams}

def argWords (names : Pathnames) (arg : Word) : List Word :=
  if '=' ∈ arg then expand names (optionValue names arg) else []

theorem received_eq (args : List Word) :
    received names args = (executeDreport args).flatMap (argWords names) := by
  rw [received, positional, pluginArgs]
  induction executeDreport args with
  | nil => rfl
  | cons arg rest ih =>
      rw [List.flatMap_cons, argWords, ← ih]
      by_cases heq : '=' ∈ arg
      · simp [heq]
      · simp [heq]

theorem isPlain_iff {c : Char} : isPlain c = true ↔ c ≠ '=' ∧ isBlank c = false ∧ c ≠ Char.ofNat 0 := by
  simp [isPlain, and_assoc]

theorem ne_newline {c : Char} (h : isBlank c = false) : c ≠ '\n' := by
  rintro rfl
  cases h

theorem pair_blank {key value : Word} (hkey : ∀ c ∈ key, isPlain c = true) (hvalue : ∀ c ∈ value, isPlain c = true) :
    ∀ c ∈ key ++ '=' :: value, isBlank c = false := by
  intro c hc
  rcases List.mem_append.mp hc with hc | hc
  · exact (isPlain_iff.mp (hkey c hc)).2.1
  · rcases List.mem_cons.mp hc with rfl | hc
    · rfl
    · exact (isPlain_iff.mp (hvalue c hc)).2.1

theorem optionValue_pair {key value : Word} (hkey : ∀ c ∈ key, isPlain c = true)
    (hvalue : ∀ c ∈ value, isPlain c = true)
    (hword : expandWord names (key ++ '=' :: value) = [key ++ '=' :: value]) :
    optionValue names (key ++ '=' :: value) = value := by
  have hblank : ∀ c ∈ key ++ '=' :: value, isBlank c = false := pair_blank hkey hvalue
  have hfield : ∀ w : Word, (∀ c ∈ w, isPlain c = true) → ∀ c ∈ w, c ≠ '=' ∧ c ≠ '\n' := fun w hw c hc =>
    ⟨(isPlain_iff.mp (hw c hc)).1, ne_newline (isPlain_iff.mp (hw c hc)).2.1⟩
  rw [optionValue, expand_word (by simp) hblank, hword]
  exact substitution_cut_echo (hfield key hkey) (hfield value hvalue) (by decide)

theorem argKeys_plain {key : String} (h : key ∈ argKeys) :
    ∀ c ∈ key.toList, isPlain c = true ∧ isPattern c = false ∧ c ≠ '\\' ∧ c ≠ '/' := by
  have hall : ∀ key ∈ argKeys,
      (key.toList.all fun c => isPlain c && !isPattern c && c != '\\' && c != '/') = true := by
    decide +kernel
  intro c hc
  simpa [and_assoc] using List.all_eq_true.mp (hall key h) c hc

/-- The key of an option stands for itself in what is taken for a pattern. -/
theorem option_literal {key : String} (h : key ∈ argKeys) :
    ∀ c ∈ key.toList ++ ['='], isPattern c = false ∧ c ≠ '\\' := by
  intro c hc
  rcases List.mem_append.mp hc with hc | hc
  · exact ⟨(argKeys_plain h c hc).2.1, (argKeys_plain h c hc).2.2.1⟩
  · obtain rfl := List.mem_singleton.mp hc
    exact ⟨rfl, nofun⟩

theorem option_selects {key : String} (h : key ∈ argKeys) {locale : CharLocale} {v u : Word} :
    selects locale .start (key.toList ++ '=' :: v) u = true ↔
      ∃ u', u = key.toList ++ '=' :: u' ∧ selects locale .inside v u' = true := by
  have hslash : '/' ∉ key.toList ++ ['='] := by
    intro hmem
    rcases List.mem_append.mp hmem with hmem | hmem
    · exact (argKeys_plain h _ hmem).2.2.2 rfl
    · exact absurd (List.mem_singleton.mp hmem) (by decide)
  simpa only [List.append_assoc, List.singleton_append] using
    selects_append (w := v) (u := u) (option_literal h) (by simp) hslash

theorem takeWhile_option {key : String} (hkey : key ∈ argKeys) {v : Word} (hvalue : ∀ c ∈ v, isPlain c = true) :
    (key.toList ++ '=' :: v).takeWhile (· ≠ Char.ofNat 0) = key.toList ++ '=' :: v := by
  refine List.takeWhile_eq_self_iff.mpr fun c hc => ?_
  rcases List.mem_append.mp hc with hc | hc
  · simpa using (isPlain_iff.mp (argKeys_plain hkey c hc).1).2.2
  · rcases List.mem_cons.mp hc with rfl | hc
    · decide
    · simpa using (isPlain_iff.mp (hvalue c hc)).2.2

theorem slot_eq {key : String} (hne : value params key ≠ []) :
    slot params key = key.toList ++ '=' :: value params key := by
  cases hget : params[key]? with
  | none => simp [value, hget] at hne
  | some v =>
      cases v with
      | num n => simp [value, hget] at hne
      | str s =>
          rw [slot, value, hget]
          rfl

theorem argWords_option {key : String} (hkey : key ∈ argKeys) (hne : value params key ≠ [])
    (hvalue : ∀ c ∈ value params key, isPlain c = true) :
    argWords names ((slot params key).takeWhile (· ≠ Char.ofNat 0)) =
      expand names (optionValue names (key.toList ++ '=' :: value params key)) := by
  rw [slot_eq hne, takeWhile_option hkey hvalue, argWords, if_pos (by simp)]

theorem argWords_slot {key : String} (hkey : key ∈ argKeys) (hvalue : ∀ c ∈ value params key, isPlain c = true)
    (hword : expandWord names (key.toList ++ '=' :: value params key) = [key.toList ++ '=' :: value params key]) :
    argWords names ((slot params key).takeWhile (· ≠ Char.ofNat 0)) = expand names (value params key) := by
  have hplain : ∀ c ∈ key.toList, isPlain c = true := fun c hc => (argKeys_plain hkey c hc).1
  cases hget : params[key]? with
  | none => simp [slot, value, hget, argWords, expand_nil]
  | some v =>
      cases v with
      | num n => simp [slot, value, hget, argWords, expand_nil]
      | str s =>
          have hslot : slot params key = key.toList ++ '=' :: value params key := by
            rw [slot, value, hget]
            rfl
          rw [hslot, takeWhile_option hkey hvalue, argWords, if_pos (by simp), optionValue_pair hplain hvalue hword]

theorem received_flatMap {args : List Word} (h : addArgs params = .ok args) : received names args =
    argKeys.flatMap fun key => argWords names ((slot params key).takeWhile (· ≠ Char.ofNat 0)) := by
  rw [received_eq, addArgs_eq h, executeDreport, List.flatMap_map, List.flatMap_map]

theorem plain_of_received {locale : CharLocale} {args : List Word} {w : Word} (hw : w ∈ received (.empty locale) args)
    {c : Char} (hc : c ∈ w) : isPlain c = true := by
  rw [received_eq] at hw
  obtain ⟨arg, harg, hw⟩ := List.mem_flatMap.mp hw
  rw [argWords] at hw
  split at hw
  · rw [expand_empty] at hw
    obtain ⟨hmem, hblank⟩ := of_mem_fields hw hc
    rcases mem_cut (mem_substitution hmem) with rfl | ⟨hecho, hne⟩
    · cases hblank
    · rcases mem_echo hecho with rfl | rfl | ⟨x, hx, hcx⟩
      · cases hblank
      · cases hblank
      · rw [expand_empty] at hx
        have hmemarg : c ∈ arg := (of_mem_fields hx hcx).1
        obtain ⟨arg₀, -, rfl⟩ := List.mem_map.mp harg
        have hnull : c ≠ Char.ofNat 0 := by simpa using List.mem_takeWhile_imp hmemarg
        exact isPlain_iff.mpr ⟨hne, hblank, hnull⟩
  · cases hw

end Words

section Positions

variable {names : Pathnames} {params : DumpCreateParams}

theorem matches_filter {vs : List Word} (h : vs.Pairwise fun v v' => v = [] → v' = []) :
    Matches (vs.filter fun v => !v.isEmpty) vs := by
  induction vs with
  | nil => exact fun i => rfl
  | cons v vs ih =>
      obtain ⟨hfirst, hrest⟩ := List.pairwise_cons.mp h
      by_cases hv : v = []
      · have hall : ∀ u ∈ v :: vs, u = [] := fun u hu => by
          rcases List.mem_cons.mp hu with rfl | hu
          · exact hv
          · exact hfirst u hu hv
        have hnone : ((v :: vs).filter fun v => !v.isEmpty) = [] := by
          refine List.filter_eq_nil_iff.mpr fun u hu => ?_
          simp [hall u hu]
        intro i
        rw [hnone, List.getD_nil]
        by_cases hi : i < (v :: vs).length
        · rw [List.getD_eq_getElem _ _ hi]
          exact (hall _ (List.getElem_mem hi)).symm
        · rw [List.getD_eq_default _ _ (Nat.le_of_not_lt hi)]
      · rw [List.filter_cons_of_pos (by simpa using hv)]
        intro i
        cases i with
        | zero => rfl
        | succ i => exact ih hrest i

theorem ne_nil_of_received {args : List Word} {w : Word} (hw : w ∈ received names args) : w ≠ [] := by
  rw [received_eq] at hw
  obtain ⟨arg, -, hw⟩ := List.mem_flatMap.mp hw
  rw [argWords] at hw
  split at hw
  · exact ne_nil_of_mem_expand hw
  · cases hw

theorem mem_of_getD {xs : List Word} {i : Nat} (h : xs.getD i [] ≠ []) : xs.getD i [] ∈ xs := by
  by_cases hi : i < xs.length
  · rw [List.getD_eq_getElem _ _ hi]
    exact List.getElem_mem hi
  · rw [List.getD_eq_default _ _ (Nat.le_of_not_lt hi)] at h
    exact absurd rfl h

theorem pairwise_of_matches {ws vs : List Word} (hne : ∀ w ∈ ws, w ≠ []) (h : Matches ws vs) :
    vs.Pairwise fun v v' => v = [] → v' = [] := by
  refine List.pairwise_iff_getElem.mpr fun i j hi hj hij hempty => ?_
  have hwi : ws.getD i [] = [] := by rw [h i, List.getD_eq_getElem _ _ hi, hempty]
  have hlength : ws.length ≤ i := by
    by_contra hlt
    rw [List.getD_eq_getElem _ _ (by omega)] at hwi
    exact hne _ (List.getElem_mem _) hwi
  have hwj := h j
  rw [List.getD_eq_default _ _ (by omega), List.getD_eq_getElem _ _ hj] at hwj
  exact hwj.symm

theorem filter_values (f : String → Word) (keys : List String) :
    ((keys.map f).filter fun v => !v.isEmpty) = keys.flatMap fun key => if f key = [] then [] else [f key] := by
  induction keys with
  | nil => rfl
  | cons key keys ih =>
      rw [List.map_cons, List.flatMap_cons, ← ih]
      by_cases hempty : f key = []
      · rw [if_pos hempty, hempty]
        rfl
      · rw [if_neg hempty, List.filter_cons_of_pos (by simpa using hempty)]
        rfl

theorem expand_value {names : Pathnames} {v : Word} (hchars : ∀ c ∈ v, isPlain c = true)
    (hself : ∀ u ∈ names.present, selects names.locale .start v u = true → u = v) :
    expand names v = if v = [] then [] else [v] := by
  split
  · rename_i hempty
    rw [hempty]
    exact expand_nil
  · rename_i hne
    rw [expand_word hne fun c hc => (isPlain_iff.mp (hchars c hc)).2.1, expandWord_self hself]

theorem mem_values {v : Word} (hv : v ∈ values params) : ∃ i, (values params).getD i [] = v := by
  obtain ⟨i, hi, hvi⟩ := List.getElem_of_mem hv
  exact ⟨i, by rw [List.getD_eq_getElem _ _ hi, hvi]⟩

theorem plain_of_matches {locale : CharLocale} {args : List Word}
    (h : Matches (received (.empty locale) args) (values params)) : ∀ v ∈ values params, ∀ c ∈ v, isPlain c = true := by
  intro v hv c hc
  obtain ⟨i, rfl⟩ := mem_values hv
  rw [← h i] at hc
  exact plain_of_received (mem_of_getD (List.ne_nil_of_mem hc)) hc

theorem eq_filter_of_matches {ws vs : List Word} (hne : ∀ w ∈ ws, w ≠ []) (h : Matches ws vs) :
    ws = vs.filter fun v => !v.isEmpty := by
  have hfilter : ∀ w ∈ vs.filter fun v => !v.isEmpty, w ≠ [] := fun w hw => by
    simpa using (List.mem_filter.mp hw).2
  have hsame (i : Nat) : ws.getD i [] = (vs.filter fun v => !v.isEmpty).getD i [] :=
    (h i).trans (matches_filter (pairwise_of_matches hne h) i).symm
  refine List.ext_getElem? fun i => ?_
  have hi := hsame i
  rw [List.getD_eq_getElem?_getD, List.getD_eq_getElem?_getD] at hi
  cases hw : ws[i]? with
  | none =>
      cases hv : (vs.filter fun v => !v.isEmpty)[i]? with
      | none => rfl
      | some v =>
          rw [hw, hv] at hi
          exact absurd hi.symm (hfilter v (List.mem_of_getElem? hv))
  | some w =>
      cases hv : (vs.filter fun v => !v.isEmpty)[i]? with
      | none =>
          rw [hw, hv] at hi
          exact absurd hi (hne w (List.mem_of_getElem? hw))
      | some v =>
          rw [hw, hv] at hi
          exact congrArg some hi

theorem matches_of_plain {args : List Word} (h : addArgs params = .ok args)
    (hplain : Plain names.locale (values params)) : Matches (received names args) (values params) := by
  obtain ⟨hpairwise, hvalues⟩ := hplain
  have hreceived : received names args = (values params).filter fun v => !v.isEmpty := by
    rw [received_flatMap h, values, filter_values]
    refine List.flatMap_congr fun key hkey => ?_
    obtain ⟨hchars, hself⟩ := hvalues _ (List.mem_map_of_mem hkey)
    rw [argWords_slot hkey hchars (expandWord_self fun u _ hu => ?_)]
    · refine expand_value hchars fun u _ hu => hself u (selects_inside hu)
    · obtain ⟨u', rfl, hu'⟩ := (option_selects hkey).mp hu
      rw [hself u' hu']
  rw [hreceived]
  exact matches_filter hpairwise

section Necessity

variable {locale : CharLocale} {key : String} {u : Word}

theorem flatMap_cancel {keys : List String} {f g : String → List Word} (hnodup : keys.Nodup) (hkey : key ∈ keys)
    (hother : ∀ k ∈ keys, k ≠ key → f k = g k) (h : keys.flatMap f = keys.flatMap g) : f key = g key := by
  induction keys with
  | nil => cases hkey
  | cons k keys ih =>
      obtain ⟨hk, hnodup⟩ := List.nodup_cons.mp hnodup
      rw [List.flatMap_cons, List.flatMap_cons] at h
      rcases List.mem_cons.mp hkey with rfl | hkey
      · have hrest : keys.flatMap f = keys.flatMap g := List.flatMap_congr fun k' hk' =>
          hother k' (List.mem_cons_of_mem key hk') fun heq => hk (heq ▸ hk')
        rwa [hrest, List.append_left_inj] at h
      · have hne : k ≠ key := fun heq => hk (heq ▸ hkey)
        rw [hother k List.mem_cons_self hne, List.append_right_inj] at h
        exact ih hnodup hkey (fun k' hk' => hother k' (List.mem_cons_of_mem k hk')) h

theorem option_of_mem_path {v : Word} (hkey : '/' ∉ key.toList) (h : v ∈ path (key.toList ++ '=' :: u)) :
    ∃ u', v = key.toList ++ '=' :: u' := by
  rcases mem_path.mp h with rfl | ⟨-, rest, heq⟩
  · exact ⟨u, rfl⟩
  · rcases List.append_eq_append_iff.mp heq with ⟨w, rfl, hw⟩ | ⟨w, hv, hw⟩
    · cases w with
      | nil => cases hw
      | cons c w =>
          obtain ⟨rfl, -⟩ := List.cons.inj hw
          exact ⟨w, rfl⟩
    · cases w with
      | nil => cases hw
      | cons c w =>
          obtain ⟨rfl, -⟩ := List.cons.inj hw
          rw [hv] at hkey
          exact absurd (List.mem_append_right _ List.mem_cons_self) hkey

theorem option_key {k : String} (hk : k ∈ argKeys) (hkey : key ∈ argKeys) {a b : Word}
    (h : k.toList ++ '=' :: a = key.toList ++ '=' :: b) : k = key := by
  have hnone {k : String} (hk : k ∈ argKeys) : '=' ∉ k.toList := fun hmem =>
    (isPlain_iff.mp (argKeys_plain hk _ hmem).1).1 rfl
  have hfront {k : String} (hk : k ∈ argKeys) (w : Word) : (k.toList ++ '=' :: w).takeWhile (· ≠ '=') = k.toList := by
    rw [List.takeWhile_append_of_pos fun c hc => by simpa using ne_of_mem_of_not_mem hc (hnone hk)]
    simp
  rw [← String.toList_inj, ← hfront hk a, h, hfront hkey b]

theorem fields_value {v : Word} (hchars : ∀ c ∈ v, isPlain c = true) : fields v = if v = [] then [] else [v] := by
  rw [← expand_empty posix]
  exact expand_value hchars nofun

/-- No word that is received has the name of a file in it if the name is that of an option. -/
theorem not_present_of_matches {args : List Word} (h : addArgs params = .ok args)
    (hplain : ∀ v ∈ values params, ∀ c ∈ v, isPlain c = true) (hpresent : ∀ w ∈ names.present, '=' ∈ w)
    (hmatches : Matches (received names args) (values params)) {k : String} (hk : k ∈ argKeys) {w : Word}
    (hw : w ∈ argWords names ((slot params k).takeWhile (· ≠ Char.ofNat 0))) : w ∉ names.present := by
  intro hmem
  have hreceived : w ∈ received names args := by
    rw [received_flatMap h]
    exact List.mem_flatMap.mpr ⟨k, hk, hw⟩
  have hvalue : w ∈ values params := by
    rw [eq_filter_of_matches (fun w hw => ne_nil_of_received hw) hmatches] at hreceived
    exact (List.mem_filter.mp hreceived).1
  exact (isPlain_iff.mp (hplain w hvalue _ (hpresent w hmem))).1 rfl

/-- A name that a value matches behind its equals sign is cut and split to the value itself. -/
theorem fields_of_matches {args : List Word} (h : addArgs params = .ok args)
    (hall : ∀ names : Pathnames, names.locale = locale → Matches (received names args) (values params))
    (hkey : key ∈ argKeys) (hne : value params key ≠ []) (hnull : Char.ofNat 0 ∉ u)
    (hu : selects locale .inside (value params key) u = true) :
    fields (substitution (cut '=' (echo [key.toList ++ '=' :: u]))) = [value params key] := by
  have hnull : Char.ofNat 0 ∉ key.toList ++ '=' :: u := by
    intro hmem
    rcases List.mem_append.mp hmem with hmem | hmem
    · exact (isPlain_iff.mp (argKeys_plain hkey _ hmem).1).2.2 rfl
    · exact hnull ((List.mem_cons.mp hmem).resolve_left (by decide))
  have hslash : '/' ∉ key.toList := fun hmem => (argKeys_plain hkey _ hmem).2.2.2 rfl
  have hplain := plain_of_matches (hall (.empty locale) rfl)
  have hchars {k : String} (hk : k ∈ argKeys) : ∀ c ∈ value params k, isPlain c = true :=
    hplain _ (List.mem_map_of_mem hk)
  -- The only file is named by the option as a pattern.
  let names : Pathnames := .only locale (key.toList ++ '=' :: u) (by simp) hnull
  have hmatches := hall names rfl
  have hpresent {w : Word} (hw : w ∈ names.present) : ∃ u', w = key.toList ++ '=' :: u' := option_of_mem_path hslash hw
  have hnone {k : String} (hk : k ∈ argKeys) {w : Word}
      (hw : w ∈ argWords names ((slot params k).takeWhile (· ≠ Char.ofNat 0))) : w ∉ names.present := by
    refine not_present_of_matches h hplain (fun w hw => ?_) hmatches hk hw
    obtain ⟨u', rfl⟩ := hpresent hw
    simp
  have hflat : (argKeys.flatMap fun k => argWords names ((slot params k).takeWhile (· ≠ Char.ofNat 0))) =
      argKeys.flatMap fun k => if value params k = [] then [] else [value params k] := by
    rw [← received_flatMap h, ← filter_values]
    exact eq_filter_of_matches (fun w hw => ne_nil_of_received hw) hmatches
  have hother : ∀ k ∈ argKeys, k ≠ key → argWords names ((slot params k).takeWhile (· ≠ Char.ofNat 0)) =
      if value params k = [] then [] else [value params k] := by
    intro k hk hkne
    have hslot : argWords names ((slot params k).takeWhile (· ≠ Char.ofNat 0)) = expand names (value params k) := by
      refine argWords_slot hk (hchars hk) (expandWord_self fun w hw hselects => ?_)
      obtain ⟨u', rfl⟩ := hpresent hw
      obtain ⟨u'', heq, -⟩ := (option_selects hk).mp hselects
      exact absurd (option_key hkey hk heq).symm hkne
    rw [hslot, expand_fields fun w hw => hnone hk (hslot ▸ hw), fields_value (hchars hk)]
  have hwords := flatMap_cancel (by decide) hkey hother hflat
  have hword : expand names (key.toList ++ '=' :: value params key) = [key.toList ++ '=' :: u] := by
    rw [expand_word (by simp) (pair_blank (fun c hc => (argKeys_plain hkey c hc).1) (hchars hkey))]
    exact expandWord_only ((option_selects hkey).mpr ⟨u, rfl, hu⟩)
  have hoption : argWords names ((slot params key).takeWhile (· ≠ Char.ofNat 0)) =
      expand names (substitution (cut '=' (echo [key.toList ++ '=' :: u]))) := by
    rw [argWords_option hkey hne (hchars hkey), optionValue, hword]
  have hfields := expand_fields fun w hw => hnone hkey (hoption ▸ hw)
  rw [← hfields, ← hoption, hwords, if_neg hne]

/-- The letters that are left of the name are those of the value. -/
theorem letters_of_matches {args : List Word} (h : addArgs params = .ok args)
    (hall : ∀ names : Pathnames, names.locale = locale → Matches (received names args) (values params))
    (hkey : key ∈ argKeys) (hne : value params key ≠ []) (hnull : Char.ofNat 0 ∉ u)
    (hu : selects locale .inside (value params key) u = true) :
    ((cut '=' (key.toList ++ '=' :: u)).filter fun c => !isBlank c) = value params key := by
  rw [← filter_cut_echo, ← filter_substitution, ← flatten_fields, fields_of_matches h hall hkey hne hnull hu]
  exact List.append_nil _

/-- A line that a star may stand for, between two newlines. -/
def line (n : Nat) : Word := '\n' :: (List.replicate n 'x' ++ ['\n'])

theorem free_line (n : Nat) : Free (line n) := by
  intro c hc
  rcases List.mem_cons.mp hc with rfl | hc
  · decide
  · rcases List.mem_append.mp hc with hc | hc
    · rw [List.eq_of_mem_replicate hc]
      decide
    · rw [List.mem_singleton.mp hc]
      decide

theorem mem_lines (front back : Word) (n : Nat) :
    List.replicate n 'x' ∈ (front ++ line n ++ back).splitOnP (· = '\n') := by
  have heq : front ++ line n ++ back = front ++ '\n' :: (List.replicate n 'x' ++ '\n' :: back) := by simp [line]
  have hnewline : ∀ c ∈ List.replicate n 'x', decide (c = '\n') = false := fun c hc => by
    rw [List.eq_of_mem_replicate hc]
    decide
  rw [heq, List.splitOnP_append_cons _ _ (by simp), List.splitOnP_append_cons_of_forall_mem hnewline _ (by simp)]
  exact List.mem_append_right _ List.mem_cons_self

theorem notNull_of_fits {v : Word} (hchars : ∀ c ∈ v, isPlain c = true)
    (h : fits (atoms locale v) .inside u = true) : Char.ofNat 0 ∉ u :=
  fits_notNull (fun c hc => (isPlain_iff.mp (hchars c (mem_of_literal 0 hc))).2.2) h

/-- A value with a star matches a name with a line that is longer than the value. -/
theorem star_notMem_of_matches {args : List Word} (h : addArgs params = .ok args)
    (hall : ∀ names : Pathnames, names.locale = locale → Matches (received names args) (values params))
    (hkey : key ∈ argKeys) (hne : value params key ≠ []) (hu : selects locale .inside (value params key) u = true) :
    Atom.star ∉ atoms locale (value params key) := by
  intro hstar
  obtain ⟨hglob, hfits⟩ := Bool.and_eq_true_iff.mp hu
  have hchars := plain_of_matches (hall (.empty locale) rfl) _ (List.mem_map_of_mem hkey)
  obtain ⟨front, back, hlong⟩ := fits_star hstar hfits
  have hfits' := hlong _ _ (free_line ((value params key).length + 1))
  have hletters := letters_of_matches h hall hkey hne (notNull_of_fits hchars hfits')
    (Bool.and_eq_true_iff.mpr ⟨hglob, hfits'⟩)
  have hmem := mem_lines (key.toList ++ '=' :: front) back ((value params key).length + 1)
  rw [List.append_assoc, List.append_assoc, List.cons_append, ← List.append_assoc front] at hmem
  have hplain : ∀ c ∈ List.replicate ((value params key).length + 1) 'x', c ≠ '=' ∧ isBlank c = false := fun c hc => by
    rw [List.eq_of_mem_replicate hc]
    decide
  have hlength := (sublist_filter_cut hmem hplain).length_le
  rw [line, hletters, List.length_replicate] at hlength
  omega

theorem selects_self_of_matches {args : List Word} (h : addArgs params = .ok args)
    (hall : ∀ names : Pathnames, names.locale = locale → Matches (received names args) (values params))
    (hkey : key ∈ argKeys) (hu : selects locale .inside (value params key) u = true) : u = value params key := by
  have hchars := plain_of_matches (hall (.empty locale) rfl) _ (List.mem_map_of_mem hkey)
  have hne : value params key ≠ [] := by
    intro hempty
    rw [hempty] at hu
    exact absurd hu Bool.false_ne_true
  obtain ⟨-, hfits⟩ := Bool.and_eq_true_iff.mp hu
  have hletters := letters_of_matches h hall hkey hne (notNull_of_fits hchars hfits) hu
  have hkeys : ∀ c ∈ key.toList, c ≠ '=' ∧ c ≠ '\n' := fun c hc =>
    ⟨(isPlain_iff.mp (argKeys_plain hkey c hc).1).1, ne_newline (isPlain_iff.mp (argKeys_plain hkey c hc).1).2.1⟩
  have hsublist : ((cut '=' (key.toList ++ '=' :: u)).filter fun c => !isBlank c).Sublist u :=
    filter_cut_sublist hkeys (by decide)
  rw [hletters] at hsublist
  refine (hsublist.eq_of_length_le ?_).symm
  rw [fits_length (star_notMem_of_matches h hall hkey hne hu) hfits]
  exact length_atomsFrom 0 _

end Necessity

end Positions

section Passwords

private def login (password : String) : DumpCreateParams :=
  (((∅ : DumpCreateParams).insert "bf_ip" (.str "10.0.0.1")).insert "bf_username" (.str "root")).insert
    "bf_password" (.str password)

private def loginArgs (password : String) : List Word :=
  [kvPair "bf_ip" "10.0.0.1", kvPair "bf_username" "root", kvPair "bf_password" password]

private theorem login_args (password : String) : addArgs (login password) = .ok (loginArgs password) := rfl

end Passwords

end DumpCollector.Dreport.Args
