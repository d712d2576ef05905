import Mathlib.Data.List.Basic

namespace DumpCollector.Lib.Globs

/-- What the locale says about the members of a bracket expression. -/
structure CharLocale where
  between : Char → Char → Char → Bool
  inClass : List Char → Char → Bool
  equivalent : Char → Char → Bool

/-- Characters in the order of their codes, and the classes of the ASCII characters. -/
def posix : CharLocale where
  between low high c := low ≤ c && c ≤ high
  inClass name c :=
    if name = "alpha".toList then c.isAlpha
    else if name = "digit".toList then c.isDigit
    else if name = "alnum".toList then c.isAlphanum
    else if name = "upper".toList then c.isUpper
    else if name = "lower".toList then c.isLower
    else if name = "blank".toList then c = ' ' || c = '\t'
    else if name = "space".toList then c.isWhitespace
    else if name = "punct".toList then '!' ≤ c && c ≤ '~' && !c.isAlphanum
    else if name = "graph".toList then '!' ≤ c && c ≤ '~'
    else if name = "print".toList then ' ' ≤ c && c ≤ '~'
    else if name = "cntrl".toList then c < ' ' || c = Char.ofNat 127
    else name = "xdigit".toList && (c.isDigit || 'a' ≤ c && c ≤ 'f' || 'A' ≤ c && c ≤ 'F')
  equivalent c d := c = d

variable (locale : CharLocale)

section Patterns

def escaped : Char → List Char → Char × Nat
  | '\\', c :: _ => (c, 1)
  | c, _ => (c, 0)

def range (c : Char) (rest : List Char) : (Char → Bool) × Nat :=
  let (low, used) := escaped c rest
  match rest.drop used with
  | '-' :: d :: more =>
      if d = ']' then (fun x => x = low, used)
      else let (high, used') := escaped d more
        (locale.between low high, used + 2 + used')
  | _ => (fun x => x = low, used)

def member (c : Char) (rest : List Char) : (Char → Bool) × Nat :=
  match c, rest with
  | '[', ':' :: more =>
      let name := more.takeWhile fun x => x ≠ ':'
      if [':', ']'].isPrefixOf (more.drop name.length) then (locale.inClass name, name.length + 3)
      else range locale c rest
  | '[', '=' :: x :: '=' :: ']' :: _ => (locale.equivalent x, 4)
  | '[', '.' :: x :: '.' :: ']' :: _ => (fun y => y = x, 4)
  | _, _ => range locale c rest

/-- The members up to the bracket that closes the expression, which is not the first of them.
A slash ends the component of the pathname and leaves the expression open. -/
def members : Bool → Nat → List Char → Option ((Char → Bool) × Nat)
  | _, _, [] => none
  | first, skipped + 1, c :: rest =>
      if c = '/' then none else (members first skipped rest).map fun (accepts, used) => (accepts, used + 1)
  | first, 0, c :: rest =>
      if c = '/' then none
      else if c = ']' ∧ ¬first then some (fun _ => false, 1)
      else
        let (accepts, more) := member locale c rest
        (members false more rest).map fun (others, used) => (fun x => accepts x || others x, used + 1)

/-- What a bracket expression accepts, and the number of its characters after the first. -/
def bracket (rest : List Char) : Option ((Char → Bool) × Nat) :=
  match rest with
  | '!' :: more => (members locale true 0 more).map fun (accepts, used) => (fun x => !accepts x, used + 1)
  | '^' :: more => (members locale true 0 more).map fun (accepts, used) => (fun x => !accepts x, used + 1)
  | _ => members locale true 0 rest

inductive Atom where
  | literal (c : Char)
  | oneOf (accepts : Char → Bool)
  | star

def atomsFrom : Nat → List Char → List Atom
  | _, [] => []
  | skipped + 1, _ :: w => atomsFrom skipped w
  | 0, c :: w =>
      if c = '*' then .star :: atomsFrom 0 w
      else if c = '?' then .oneOf (fun _ => true) :: atomsFrom 0 w
      else if c = '\\' then .literal (w.headD c) :: atomsFrom 1 w
      else if c = '[' then
        match bracket locale w with
        | some (accepts, used) => .oneOf accepts :: atomsFrom used w
        | none => .literal c :: atomsFrom 0 w
      else .literal c :: atomsFrom 0 w

def atoms (w : List Char) : List Atom := atomsFrom locale 0 w

def Atom.isLiteral : Atom → Bool
  | .literal _ => true
  | _ => false

/-- A word is a pattern if it has a special character that is not escaped; a bracket that is
not closed is none. -/
def isGlob (w : List Char) : Bool := (atoms locale w).any fun a => !a.isLiteral

end Patterns

section Names

inductive Place where
  | start
  | starred
  | inside
deriving DecidableEq

/-- A slash is never matched by a special character, nor is a dot that begins a component. -/
def Place.allows (place : Place) (c : Char) : Bool :=
  c ≠ '/' && c ≠ Char.ofNat 0 && (place = .inside || c ≠ '.')

def Place.star : Place → Place
  | .inside => .inside
  | _ => .starred

def afterStar (rest : Place → List Char → Bool) : Place → List Char → Bool
  | place, [] => rest place.star []
  | place, c :: u => rest place.star (c :: u) || place.allows c && afterStar rest .inside u

/-- A name fits a pattern. A component that a star matches is not empty and begins with no dot. -/
def fits : List Atom → Place → List Char → Bool
  | [], place, u => u.isEmpty && place ≠ .starred
  | .literal a :: as, place, c :: u =>
      c = a && !(place = .starred && (c = '/' || c = '.')) && fits as (if c = '/' then .start else .inside) u
  | .oneOf accepts :: as, place, c :: u => place.allows c && accepts c && fits as .inside u
  | .star :: as, place, u => afterStar (fits as) place u
  | _ :: _, _, [] => false

def selects (place : Place) (w u : List Char) : Bool := isGlob locale w && fits (atoms locale w) place u

end Names

section Fits

variable {locale} {as : List Atom} {place : Place} {c : Char} {u w : List Char}

theorem afterStar_iff {rest : Place → List Char → Bool} : afterStar rest place u = true ↔
    rest place.star u = true ∨ ∃ d t v, u = d :: t ++ v ∧ place.allows d = true ∧
      (∀ x ∈ t, Place.inside.allows x = true) ∧ rest .inside v = true := by
  induction u generalizing place with
  | nil => simp [afterStar]
  | cons c u ih =>
      rw [afterStar, Bool.or_eq_true, Bool.and_eq_true, ih]
      constructor
      · rintro (h | ⟨hc, h | ⟨d, t, v, rfl, hd, ht, hv⟩⟩)
        · exact .inl h
        · exact .inr ⟨c, [], u, rfl, hc, fun x hx => absurd hx List.not_mem_nil, h⟩
        · refine .inr ⟨c, d :: t, v, rfl, hc, fun x hx => ?_, hv⟩
          rcases List.mem_cons.mp hx with rfl | hx
          · exact hd
          · exact ht x hx
      · rintro (h | ⟨d, t, v, heq, hd, ht, hv⟩)
        · exact .inl h
        · obtain ⟨rfl, rfl⟩ := List.cons.inj heq
          refine .inr ⟨hd, ?_⟩
          cases t with
          | nil => exact .inl hv
          | cons e t =>
              exact .inr ⟨e, t, v, rfl, ht e List.mem_cons_self, fun x hx => ht x (List.mem_cons_of_mem e hx), hv⟩

theorem allows_inside (h : place.allows c = true) : Place.inside.allows c = true := by
  rw [Place.allows, Bool.and_eq_true] at h ⊢
  exact ⟨h.1, rfl⟩

theorem ne_of_allows {d : Char} (h : place.allows c = true) (hd : Place.inside.allows d = false) : c ≠ d := by
  rintro rfl
  exact absurd (allows_inside h) (by rw [hd]; decide)

theorem forall_allowed {t : List Char} (hc : place.allows c = true) (ht : ∀ x ∈ t, Place.inside.allows x = true) :
    ∀ x ∈ c :: t, Place.inside.allows x = true := by
  intro x hx
  rcases List.mem_cons.mp hx with rfl | hx
  · exact allows_inside hc
  · exact ht x hx

theorem fits_inside (h : fits as place u = true) : fits as .inside u = true := by
  induction as generalizing place u with
  | nil =>
      rw [fits, Bool.and_eq_true] at h
      rw [fits, h.1]
      rfl
  | cons a as ih =>
      cases a with
      | literal a =>
          cases u with
          | nil => exact absurd h Bool.false_ne_true
          | cons c u =>
              simp only [fits, Bool.and_eq_true] at h ⊢
              exact ⟨⟨h.1.1, rfl⟩, h.2⟩
      | oneOf accepts =>
          cases u with
          | nil => exact absurd h Bool.false_ne_true
          | cons c u =>
              simp only [fits, Bool.and_eq_true] at h ⊢
              exact ⟨⟨allows_inside h.1.1, h.1.2⟩, h.2⟩
      | star =>
          rw [fits, afterStar_iff] at h ⊢
          exact h.imp ih fun ⟨d, t, v, heq, hd, hrest⟩ => ⟨d, t, v, heq, allows_inside hd, hrest⟩

def Atom.isSlash : Atom → Bool
  | .literal c => c = '/'
  | _ => false

/-- Other than a star, the first part of a pattern takes one character, its own or one that it
may stand for, and leaves the others to the rest. -/
theorem fits_head {a : Atom} (hne : a ≠ .star) (h : fits (a :: as) place u = true) :
    ∃ c v place', u = c :: v ∧ (∀ v', fits (a :: as) place (c :: v') = fits as place' v') ∧
      (a = .literal c ∨ a.isSlash = false ∧ Place.inside.allows c = true) := by
  cases u with
  | nil =>
      cases a with
      | literal => exact absurd h Bool.false_ne_true
      | oneOf => exact absurd h Bool.false_ne_true
      | star => exact absurd rfl hne
  | cons c v =>
      cases a with
      | literal b =>
          simp only [fits, Bool.and_eq_true, decide_eq_true_eq] at h
          obtain ⟨⟨rfl, hplace⟩, -⟩ := h
          refine ⟨c, v, if c = '/' then .start else .inside, rfl, fun v' => ?_, .inl rfl⟩
          rw [fits, hplace, decide_eq_true rfl, Bool.true_and, Bool.true_and]
      | oneOf accepts =>
          rw [fits, Bool.and_eq_true] at h
          refine ⟨c, v, .inside, rfl, fun v' => ?_, .inr ⟨rfl, allows_inside (Bool.and_eq_true_iff.mp h.1).1⟩⟩
          rw [fits, h.1, Bool.true_and]
      | star => exact absurd rfl hne

theorem fits_length (hstar : Atom.star ∉ as) (h : fits as place u = true) : u.length = as.length := by
  induction as generalizing place u with
  | nil =>
      rw [fits, Bool.and_eq_true, List.isEmpty_iff] at h
      rw [h.1]
      rfl
  | cons a as ih =>
      obtain ⟨hne, hstar⟩ := List.ne_and_not_mem_of_not_mem_cons hstar
      obtain ⟨c, v, place', rfl, hrest, -⟩ := fits_head hne.symm h
      rw [hrest] at h
      rw [List.length_cons, List.length_cons, ih hstar h]

def Free (t : List Char) : Prop := ∀ c ∈ t, c ≠ '/' ∧ c ≠ Char.ofNat 0 ∧ c ≠ '.'

theorem Free.allows {t : List Char} (h : Free t) (hc : c ∈ t) : place.allows c = true := by
  simp [Place.allows, h c hc]

theorem fits_afterStar {d : Char} {t v : List Char} (hfree : Free (d :: t)) {place' : Place}
    (h : fits as place' v = true) : fits (.star :: as) place (d :: t ++ v) = true := by
  rw [fits, afterStar_iff]
  exact .inr ⟨d, t, v, rfl, hfree.allows List.mem_cons_self,
    fun x hx => hfree.allows (List.mem_cons_of_mem d hx), fits_inside h⟩

/-- What the first star stands for can be replaced. -/
theorem fits_star (hstar : Atom.star ∈ as) (h : fits as place u = true) :
    ∃ front back, ∀ d t, Free (d :: t) → fits as place (front ++ d :: t ++ back) = true := by
  induction as generalizing place u with
  | nil => cases hstar
  | cons a as ih =>
      by_cases ha : a = .star
      · subst ha
        have hback : ∃ place' back, fits as place' back = true := by
          rw [fits, afterStar_iff] at h
          rcases h with h | ⟨d, t, v, -, -, -, h⟩
          · exact ⟨_, u, h⟩
          · exact ⟨_, v, h⟩
        obtain ⟨place', back, hback⟩ := hback
        exact ⟨[], back, fun d t hfree => fits_afterStar hfree hback⟩
      · obtain ⟨c, v, place', rfl, hrest, -⟩ := fits_head ha h
        rw [hrest] at h
        obtain ⟨front, back, hfront⟩ := ih ((List.mem_cons.mp hstar).resolve_left (Ne.symm ha)) h
        refine ⟨c :: front, back, fun d t hfree => ?_⟩
        rw [List.cons_append, List.cons_append, hrest]
        exact hfront d t hfree

theorem count_slash_allowed {t : List Char} (h : ∀ x ∈ t, Place.inside.allows x = true) : t.count '/' = 0 := by
  refine List.count_eq_zero.mpr fun hmem => ?_
  exact absurd (h _ hmem) (by decide)

/-- A name has the slashes of its pattern. -/
theorem fits_slashes (h : fits as place u = true) : u.count '/' = as.countP Atom.isSlash := by
  induction as generalizing place u with
  | nil =>
      rw [fits, Bool.and_eq_true, List.isEmpty_iff] at h
      rw [h.1]
      rfl
  | cons a as ih =>
      by_cases ha : a = .star
      · subst ha
        rw [fits, afterStar_iff] at h
        rw [List.countP_cons_of_neg (by decide)]
        rcases h with h | ⟨d, t, v, rfl, hd, ht, h⟩
        · exact ih h
        · rw [List.count_append, count_slash_allowed (forall_allowed hd ht), Nat.zero_add, ih h]
      · obtain ⟨c, v, place', rfl, hrest, hc⟩ := fits_head ha h
        rw [hrest] at h
        rcases hc with rfl | ⟨hslash, hallows⟩
        · rw [List.count_cons, List.countP_cons, ih h]
          simp [Atom.isSlash]
        · have hne : c ≠ '/' := ne_of_allows hallows (by decide)
          rw [List.count_cons_of_ne hne, List.countP_cons_of_neg (by rw [hslash]; decide), ih h]

theorem fits_notNull (hnull : ∀ c, Atom.literal c ∈ as → c ≠ Char.ofNat 0) (h : fits as place u = true) :
    Char.ofNat 0 ∉ u := by
  induction as generalizing place u with
  | nil =>
      rw [fits, Bool.and_eq_true, List.isEmpty_iff] at h
      rw [h.1]
      exact List.not_mem_nil
  | cons a as ih =>
      have ih {place v} := @ih place v fun c hc => hnull c (List.mem_cons_of_mem a hc)
      by_cases ha : a = .star
      · subst ha
        rw [fits, afterStar_iff] at h
        rcases h with h | ⟨d, t, v, rfl, hd, ht, h⟩
        · exact ih h
        · refine List.not_mem_append (fun hmem => ?_) (ih h)
          exact ne_of_allows (forall_allowed hd ht _ hmem) (by decide) rfl
      · obtain ⟨c, v, place', rfl, hrest, hc⟩ := fits_head ha h
        rw [hrest] at h
        refine List.not_mem_cons_of_ne_of_not_mem (Ne.symm ?_) (ih h)
        rcases hc with rfl | ⟨-, hallows⟩
        · exact hnull c List.mem_cons_self
        · exact ne_of_allows hallows (by decide)

end Fits

section Atoms

variable {locale} {as : List Atom} {place : Place} {u w key : List Char}

theorem length_atomsFrom (skipped : Nat) (w : List Char) : (atomsFrom locale skipped w).length ≤ w.length := by
  induction w generalizing skipped with
  | nil => cases skipped <;> exact Nat.le_refl 0
  | cons c w ih =>
      cases skipped with
      | succ skipped => exact Nat.le_succ_of_le (ih skipped)
      | zero =>
          rw [atomsFrom]
          split_ifs
          · exact Nat.succ_le_succ (ih 0)
          · exact Nat.succ_le_succ (ih 0)
          · exact Nat.succ_le_succ (ih 1)
          · split
            · exact Nat.succ_le_succ (ih _)
            · exact Nat.succ_le_succ (ih 0)
          · exact Nat.succ_le_succ (ih 0)

theorem mem_of_literal (skipped : Nat) {c : Char} (h : Atom.literal c ∈ atomsFrom locale skipped w) : c ∈ w := by
  induction w generalizing skipped with
  | nil => cases skipped <;> cases h
  | cons d w ih =>
      have htail {n : Nat} (h : Atom.literal c ∈ atomsFrom locale n w) : c ∈ d :: w := List.mem_cons_of_mem d (ih n h)
      cases skipped with
      | succ skipped => exact htail h
      | zero =>
          rw [atomsFrom] at h
          split_ifs at h
          · exact htail ((List.mem_cons.mp h).resolve_left nofun)
          · exact htail ((List.mem_cons.mp h).resolve_left nofun)
          · rcases List.mem_cons.mp h with h | h
            · obtain rfl := Atom.literal.inj h
              cases w with
              | nil => exact List.mem_cons_self
              | cons e w => exact List.mem_cons_of_mem d List.mem_cons_self
            · exact htail h
          · split at h
            · exact htail ((List.mem_cons.mp h).resolve_left nofun)
            · rcases List.mem_cons.mp h with h | h
              · obtain rfl := Atom.literal.inj h
                exact List.mem_cons_self
              · exact htail h
          · rcases List.mem_cons.mp h with h | h
            · obtain rfl := Atom.literal.inj h
              exact List.mem_cons_self
            · exact htail h

def isPattern (c : Char) : Bool := c = '*' || c = '?' || c = '['

theorem members_open (first : Bool) (skipped : Nat) (h : ']' ∉ w) : members locale first skipped w = none := by
  induction w generalizing first skipped with
  | nil => cases skipped <;> rfl
  | cons c w ih =>
      obtain ⟨hc, hw⟩ := List.ne_and_not_mem_of_not_mem_cons h
      cases skipped with
      | succ skipped => rw [members, ih first skipped hw, Option.map_none, ite_self]
      | zero => simp [members, ih false _ hw, Ne.symm hc]

/-- Without a bracket that closes it there is no bracket expression. -/
theorem bracket_open (h : ']' ∉ w) : bracket locale w = none := by
  unfold bracket
  split
  · rw [members_open true 0 (List.not_mem_of_not_mem_cons h), Option.map_none]
  · rw [members_open true 0 (List.not_mem_of_not_mem_cons h), Option.map_none]
  · exact members_open true 0 h

theorem not_isGlob_of_open (h : ∀ c ∈ w, c ≠ '*' ∧ c ≠ '?') (hopen : '[' ∉ w ∨ ']' ∉ w) : isGlob locale w = false := by
  rw [isGlob, atoms, List.any_eq_false]
  suffices hall : ∀ skipped, ∀ a ∈ atomsFrom locale skipped w, a.isLiteral = true from
    fun a ha => by rw [hall 0 a ha]; decide
  induction w with
  | nil =>
      intro skipped a ha
      cases skipped <;> cases ha
  | cons c w ih =>
      have ih := ih (fun d hd => h d (List.mem_cons_of_mem c hd))
        (hopen.imp List.not_mem_of_not_mem_cons List.not_mem_of_not_mem_cons)
      obtain ⟨hstar, hany⟩ := h c List.mem_cons_self
      have hliteral {n : Nat} {d : Char} {a : Atom} (ha : a ∈ .literal d :: atomsFrom locale n w) :
          a.isLiteral = true := by
        rcases List.mem_cons.mp ha with rfl | ha
        · rfl
        · exact ih n a ha
      intro skipped a ha
      cases skipped with
      | succ skipped => exact ih skipped a ha
      | zero =>
          rw [atomsFrom, if_neg hstar, if_neg hany] at ha
          split_ifs at ha with hescape hbracket
          · exact hliteral ha
          · have hclosed : ']' ∉ w := hopen.elim (fun hno => absurd (hbracket ▸ List.mem_cons_self) hno)
              List.not_mem_of_not_mem_cons
            rw [bracket_open hclosed] at ha
            exact hliteral ha
          · exact hliteral ha

theorem not_isGlob (h : ∀ c ∈ w, isPattern c = false) : isGlob locale w = false := by
  simp only [isPattern, Bool.or_eq_false_iff, decide_eq_false_iff_not] at h
  exact not_isGlob_of_open (fun c hc => (h c hc).1) (.inl fun hmem => (h _ hmem).2 rfl)

theorem atoms_append (h : ∀ c ∈ key, isPattern c = false ∧ c ≠ '\\') (w : List Char) :
    atoms locale (key ++ w) = key.map .literal ++ atoms locale w := by
  induction key with
  | nil => rfl
  | cons c key ih =>
      obtain ⟨hc, hescape⟩ := h c List.mem_cons_self
      simp only [isPattern, Bool.or_eq_false_iff, decide_eq_false_iff_not] at hc
      rw [List.cons_append, atoms, atomsFrom, if_neg hc.1.1, if_neg hc.1.2, if_neg hescape, if_neg hc.2]
      exact congrArg _ (ih fun d hd => h d (List.mem_cons_of_mem c hd))

theorem isGlob_append (h : ∀ c ∈ key, isPattern c = false ∧ c ≠ '\\') (w : List Char) :
    isGlob locale (key ++ w) = isGlob locale w := by
  rw [isGlob, atoms_append h, List.any_append, isGlob, Bool.or_eq_right_iff_imp]
  intro hany
  obtain ⟨a, ha, hliteral⟩ := List.any_eq_true.mp hany
  obtain ⟨c, -, rfl⟩ := List.mem_map.mp ha
  cases hliteral

theorem fits_literals (hne : key ≠ []) (hslash : '/' ∉ key) : fits (key.map .literal ++ as) .start u = true ↔
    ∃ v, u = key ++ v ∧ fits as .inside v = true := by
  suffices hstep : ∀ place : Place, place ≠ .starred →
      (fits (key.map .literal ++ as) place u = true ↔
        ∃ v, u = key ++ v ∧ fits as (if key = [] then place else .inside) v = true) by
    rw [hstep .start nofun, if_neg hne]
  clear hne
  induction key generalizing u with
  | nil => simp
  | cons c key ih =>
      obtain ⟨hc, hrest⟩ := List.ne_and_not_mem_of_not_mem_cons hslash
      have ih {u} := ih (u := u) hrest .inside nofun
      intro place hplace
      cases u with
      | nil => simp [fits]
      | cons d u =>
          rw [List.map_cons, List.cons_append, fits]
          simp only [Bool.and_eq_true, decide_eq_true_eq, hplace, decide_false, Bool.false_and, Bool.not_false, and_true]
          constructor
          · rintro ⟨rfl, hrest⟩
            rw [if_neg (Ne.symm hc), ih] at hrest
            obtain ⟨v, rfl, hv⟩ := hrest
            exact ⟨v, rfl, by simpa using hv⟩
          · rintro ⟨v, heq, hv⟩
            obtain ⟨rfl, rfl⟩ := List.cons.inj heq
            refine ⟨rfl, ?_⟩
            rw [if_neg (Ne.symm hc), ih]
            exact ⟨v, rfl, by simpa using hv⟩

/-- A pattern that begins with a text of its own selects what begins with it as well. -/
theorem selects_append (h : ∀ c ∈ key, isPattern c = false ∧ c ≠ '\\') (hne : key ≠ []) (hslash : '/' ∉ key) :
    selects locale .start (key ++ w) u = true ↔ ∃ v, u = key ++ v ∧ selects locale .inside w v = true := by
  rw [selects, isGlob_append h, atoms_append h, Bool.and_eq_true, fits_literals hne hslash]
  constructor
  · rintro ⟨hglob, v, rfl, hv⟩
    exact ⟨v, rfl, by rw [selects, hglob, hv]; rfl⟩
  · rintro ⟨v, rfl, hv⟩
    rw [selects, Bool.and_eq_true] at hv
    exact ⟨hv.1, v, rfl, hv.2⟩

theorem not_selects (h : isGlob locale w = false) : selects locale place w u = false := by
  rw [selects, h, Bool.false_and]

theorem selects_inside (h : selects locale place w u = true) : selects locale .inside w u = true := by
  rw [selects, Bool.and_eq_true] at h ⊢
  exact ⟨h.1, fits_inside h.2⟩

end Atoms

end DumpCollector.Lib.Globs
