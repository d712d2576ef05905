import DumpCollector.Lib.Runs

namespace DumpCollector.Lib.Refinement

open Runs

variable {S E A L : Type} {step : S → E → Option S} {R : S → A → Prop} {T : A → L → A → Prop} {shows : S → E → L → Prop}

inductive Path (T : A → L → A → Prop) : A → List L → A → Prop
  | nil (a : A) : Path T a [] a
  | cons {a b c : A} {l : L} {ls : List L} (move : T a l b) (rest : Path T b ls c) : Path T a (l :: ls) c

/-- What is seen of a run: a label for each of its events. -/
def Seen (step : S → E → Option S) (shows : S → E → L → Prop) : S → List E → List L → Prop
  | _, [], ls => ls = []
  | s, e :: es, ls => ∃ l rest, ls = l :: rest ∧ shows s e l ∧ ∀ t, step s e = some t → Seen step shows t es rest

/-- Every step between states of which the second is the code's and the first the
specification's can be followed by a move with a label that the step shows. -/
def Refines (step : S → E → Option S) (R : S → A → Prop) (T : A → L → A → Prop) (shows : S → E → L → Prop) : Prop :=
  ∀ s a e t, R s a → step s e = some t → ∃ l b, shows s e l ∧ T a l b ∧ R t b

/-- By induction on the events: a run follows a path, label by label. -/
theorem Refines.run (h : Refines step R T shows) {s t : S} {a : A} {es : List E} (hrun : run step s es = some t)
    (hs : R s a) : ∃ ls b, Seen step shows s es ls ∧ Path T a ls b ∧ R t b := by
  induction es generalizing s a with
  | nil =>
      cases hrun
      exact ⟨[], a, rfl, .nil a, hs⟩
  | cons e es ih =>
      obtain ⟨u, hu, hrun⟩ := run_cons.mp hrun
      obtain ⟨l, b, hshows, hmove, hb⟩ := h s a e u hs hu
      obtain ⟨ls, c, hseen, hpath, hc⟩ := ih hrun hb
      refine ⟨l :: ls, c, ⟨l, ls, rfl, hshows, fun v hv => ?_⟩, .cons hmove hpath, hc⟩
      obtain rfl : u = v := Option.some.inj (hu.symm.trans hv)
      exact hseen

section Seen

variable {s t : S} {es : List E} {ls : List L} {l : L}

theorem seen_length (hrun : run step s es = some t) (h : Seen step shows s es ls) : ls.length = es.length := by
  induction es generalizing s ls with
  | nil => rw [show ls = [] from h, List.length_nil, List.length_nil]
  | cons e es ih =>
      obtain ⟨u, hu, hrun⟩ := run_cons.mp hrun
      obtain ⟨l, rest, rfl, -, hrest⟩ := h
      rw [List.length_cons, List.length_cons, ih hrun (hrest u hu)]

theorem someStep_of_seen (hrun : run step s es = some t) (h : Seen step shows s es ls) (hl : l ∈ ls) :
    SomeStep step (fun s e => shows s e l) s es := by
  induction es generalizing s ls with
  | nil =>
      rw [show ls = [] from h] at hl
      cases hl
  | cons e es ih =>
      obtain ⟨u, hu, hrun⟩ := run_cons.mp hrun
      obtain ⟨l', rest, rfl, hshows, hrest⟩ := h
      rcases List.mem_cons.mp hl with rfl | hl
      · exact .inl hshows
      · exact .inr ⟨u, hu, ih hrun (hrest u hu) hl⟩

/-- Where no step of a run can show a label, it is not seen. -/
theorem not_mem_of_eachStep (hrun : run step s es = some t) (h : Seen step shows s es ls)
    (hno : EachStep step (fun s e => ¬ shows s e l) s es) : l ∉ ls := by
  induction es generalizing s ls with
  | nil =>
      rw [show ls = [] from h]
      exact List.not_mem_nil
  | cons e es ih =>
      obtain ⟨u, hu, hrun⟩ := run_cons.mp hrun
      obtain ⟨l', rest, rfl, hshows, hrest⟩ := h
      intro hl
      rcases List.mem_cons.mp hl with rfl | hl
      · exact hno.1 hshows
      · exact ih hrun (hrest u hu) (hno.2 u hu) hl

end Seen

section Path

variable {a b c : A} {ls : List L} {P : A → Prop} {C : L → Prop}

theorem path_nil : Path T a [] b ↔ a = b := by
  constructor
  · intro h
    cases h
    rfl
  · rintro rfl
    exact .nil a

theorem path_cons {l : L} : Path T a (l :: ls) c ↔ ∃ b, T a l b ∧ Path T b ls c := by
  constructor
  · intro h
    cases h with
    | cons move rest => exact ⟨_, move, rest⟩
  · rintro ⟨b, move, rest⟩
    exact .cons move rest

/-- What only moves with some of the labels bring about was there before, or such a label
is among those of the path. -/
theorem Path.reached (hmove : ∀ a l b, T a l b → P b → P a ∨ C l) (h : Path T a ls b) (hb : P b) :
    P a ∨ ∃ l ∈ ls, C l := by
  induction h with
  | nil => exact .inl hb
  | cons move _ ih =>
      rcases ih hb with hmid | ⟨l, hl, hC⟩
      · rcases hmove _ _ _ move hmid with ha | hC
        · exact .inl ha
        · exact .inr ⟨_, List.mem_cons_self, hC⟩
      · exact .inr ⟨l, List.mem_cons_of_mem _ hl, hC⟩

end Path

/-- A property that only moves with some of the labels bring about, in the code: at the end
of a run it was there at the start, or some step shows such a label. -/
theorem Refines.reached {P : A → Prop} {C : L → Prop} (h : Refines step R T shows)
    (hmove : ∀ a l b, T a l b → P b → P a ∨ C l) {s t : S} {a : A} {es : List E} (hrun : Runs.run step s es = some t)
    (hs : R s a) :
    ∃ b, R t b ∧ (P b → P a ∨ ∃ l, C l ∧ SomeStep step (fun s e => shows s e l) s es) := by
  obtain ⟨ls, b, hseen, hpath, hb⟩ := h.run hrun hs
  refine ⟨b, hb, fun hP => ?_⟩
  rcases hpath.reached hmove hP with ha | ⟨l, hl, hC⟩
  · exact .inl ha
  · exact .inr ⟨l, hC, someStep_of_seen hrun hseen hl⟩

end DumpCollector.Lib.Refinement
