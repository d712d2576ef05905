import Mathlib.Init

namespace DumpCollector.Lib.Runs

variable {S E : Type} {step : S → E → Option S}

/-- Executing a list of events with a partial step function. An event that is
not enabled has no successor, so a run exists only if every step is enabled. -/
def run (step : S → E → Option S) : S → List E → Option S
  | s, [] => some s
  | s, e :: es => (step s e).bind fun t => run step t es

@[simp] theorem run_nil (s : S) : run step s [] = some s := rfl

theorem run_cons {s u : S} {e : E} {es : List E} :
    run step s (e :: es) = some u ↔ ∃ t, step s e = some t ∧ run step t es = some u := by
  simp [run, Option.bind_eq_some_iff]

theorem run_append {s u : S} {es fs : List E} :
    run step s (es ++ fs) = some u ↔ ∃ t, run step s es = some t ∧ run step t fs = some u := by
  induction es generalizing s with
  | nil => simp
  | cons e es ih =>
      simp only [List.cons_append, run_cons, ih]
      constructor
      · rintro ⟨v, hv, t, ht, hu⟩
        exact ⟨t, ⟨v, hv, ht⟩, hu⟩
      · rintro ⟨t, ⟨v, hv, ht⟩, hu⟩
        exact ⟨v, hv, t, ht, hu⟩

def Always (step : S → E → Option S) (P : S → Prop) : S → List E → Prop
  | s, [] => P s
  | s, e :: es => P s ∧ ∀ t, step s e = some t → Always step P t es

def EachStep (step : S → E → Option S) (C : S → E → Prop) : S → List E → Prop
  | _, [] => True
  | s, e :: es => C s e ∧ ∀ t, step s e = some t → EachStep step C t es

instance decidableEachStep {C : S → E → Prop} [∀ s e, Decidable (C s e)] :
    (s : S) → (es : List E) → Decidable (EachStep step C s es)
  | _, [] => isTrue trivial
  | s, e :: es =>
      match h : step s e with
      | none => decidable_of_iff (C s e) (by simp [EachStep, h])
      | some t =>
          have : Decidable (EachStep step C t es) := decidableEachStep t es
          decidable_of_iff (C s e ∧ EachStep step C t es) (by simp [EachStep, h])

def SomeStep (step : S → E → Option S) (C : S → E → Prop) : S → List E → Prop
  | _, [] => False
  | s, e :: es => C s e ∨ ∃ t, step s e = some t ∧ SomeStep step C t es

instance decidableSomeStep {C : S → E → Prop} [∀ s e, Decidable (C s e)] :
    (s : S) → (es : List E) → Decidable (SomeStep step C s es)
  | _, [] => isFalse nofun
  | s, e :: es =>
      match h : step s e with
      | none => decidable_of_iff (C s e) (by simp [SomeStep, h])
      | some t =>
          have : Decidable (SomeStep step C t es) := decidableSomeStep t es
          decidable_of_iff (C s e ∨ SomeStep step C t es) (by simp [SomeStep, h])

/-- Some step of a run has brought the first condition about, or it held at the start, and
every step after that has met the second one. -/
def Since (step : S → E → Option S) (P : S → E → Prop) (Q : S → E → S → Prop) : Prop → S → List E → Prop
  | since, _, [] => since
  | since, s, e :: es => ∀ t, step s e = some t → Since step P Q (P s e ∨ since ∧ Q s e t) t es

theorem invariant_run {I : S → Prop} (hstep : ∀ s e t, I s → step s e = some t → I t)
    {s t : S} {es : List E} (hrun : run step s es = some t) (hs : I s) : I t := by
  induction es generalizing s with
  | nil => cases hrun; exact hs
  | cons e es ih =>
      obtain ⟨u, hu, hrun⟩ := run_cons.mp hrun
      exact ih hrun (hstep s e u hs hu)

theorem run_total (htotal : ∀ s e, ∃ t, step s e = some t) (s : S) (es : List E) : ∃ u, run step s es = some u := by
  induction es generalizing s with
  | nil => exact ⟨s, rfl⟩
  | cons e es ih =>
      obtain ⟨t, ht⟩ := htotal s e
      obtain ⟨u, hu⟩ := ih t
      exact ⟨u, run_cons.mpr ⟨t, ht, hu⟩⟩

theorem always_along {I P : S → Prop} {C : S → E → Prop} (hIP : ∀ s, I s → P s)
    (hstep : ∀ s e t, I s → C s e → step s e = some t → I t)
    {s : S} {es : List E} (hs : I s) (hC : EachStep step C s es) : Always step P s es := by
  induction es generalizing s with
  | nil => exact hIP s hs
  | cons e es ih => exact ⟨hIP s hs, fun t ht => ih (hstep s e t hs hC.1 ht) (hC.2 t ht)⟩

theorem eachStep_along {I : S → Prop} {C D : S → E → Prop} (hD : ∀ s e, I s → C s e → D s e)
    (hstep : ∀ s e t, I s → C s e → step s e = some t → I t)
    {s : S} {es : List E} (hs : I s) (hC : EachStep step C s es) : EachStep step D s es := by
  induction es generalizing s with
  | nil => trivial
  | cons e es ih => exact ⟨hD s e hs hC.1, fun t ht => ih (hstep s e t hs hC.1 ht) (hC.2 t ht)⟩

theorem always_mono {P Q : S → Prop} (hPQ : ∀ s, P s → Q s) {s : S} {es : List E} (h : Always step P s es) :
    Always step Q s es := by
  induction es generalizing s with
  | nil => exact hPQ s h
  | cons e es ih => exact ⟨hPQ s h.1, fun t ht => ih (h.2 t ht)⟩

theorem always_last {P : S → Prop} {s u : S} {es : List E} (h : Always step P s es) (hrun : run step s es = some u) :
    P u := by
  induction es generalizing s with
  | nil =>
      cases hrun
      exact h
  | cons e es ih =>
      obtain ⟨t, ht, hrun⟩ := run_cons.mp hrun
      exact ih (h.2 t ht) hrun

theorem eachStep_and {A B : S → E → Prop} {s : S} {es : List E} (hA : EachStep step A s es)
    (hB : EachStep step B s es) :
    EachStep step (fun s e => A s e ∧ B s e) s es := by
  induction es generalizing s with
  | nil => trivial
  | cons e es ih => exact ⟨⟨hA.1, hB.1⟩, fun t ht => ih (hA.2 t ht) (hB.2 t ht)⟩

/-- When, among the steps that are allowed, those that meet a condition keep an invariant
of the property, and only they lead on to the property, a run of allowed steps has it
throughout exactly if all its steps meet the condition. -/
theorem always_iff_eachStep_of_allowed {A : S → E → Prop} {J I P : S → Prop} {C : S → E → Prop}
    (hJ : ∀ s e t, J s → step s e = some t → J t) (hIP : ∀ s, J s → I s → P s)
    (hkeep : ∀ s e t, J s → I s → A s e → step s e = some t → C s e → I t)
    (hneed : ∀ s e t, J s → I s → A s e → step s e = some t → P t → C s e)
    {s u : S} {es : List E} (hA : EachStep step A s es) (hrun : run step s es = some u) (hs : J s) (hI : I s) :
    Always step P s es ↔ EachStep step C s es := by
  induction es generalizing s with
  | nil => exact ⟨fun _ => trivial, fun _ => hIP s hs hI⟩
  | cons e es ih =>
      obtain ⟨t, ht, hrun⟩ := run_cons.mp hrun
      have hJt := hJ s e t hs ht
      constructor
      · rintro ⟨-, h⟩
        have hPt : P t := by
          have h' := h t ht
          cases es with
          | nil => exact h'
          | cons => exact h'.1
        have hC := hneed s e t hs hI hA.1 ht hPt
        refine ⟨hC, fun v hv => ?_⟩
        obtain rfl : t = v := Option.some.inj (ht.symm.trans hv)
        exact (ih (hA.2 t ht) hrun hJt (hkeep s e t hs hI hA.1 ht hC)).mp (h t ht)
      · rintro ⟨hC, h⟩
        refine ⟨hIP s hs hI, fun v hv => ?_⟩
        obtain rfl : t = v := Option.some.inj (ht.symm.trans hv)
        exact (ih (hA.2 t ht) hrun hJt (hkeep s e t hs hI hA.1 ht hC)).mpr (h t ht)

theorem eachStep_of_forall {A : S → E → Prop} (hA : ∀ s e, A s e) (s : S) (es : List E) : EachStep step A s es := by
  induction es generalizing s with
  | nil => trivial
  | cons e es ih => exact ⟨hA s e, fun t _ => ih t⟩

theorem eachStep_of_mem {A : E → Prop} {s : S} {es : List E} (hA : ∀ e ∈ es, A e) :
    EachStep step (fun _ e => A e) s es := by
  induction es generalizing s with
  | nil => trivial
  | cons e es ih => exact ⟨hA e List.mem_cons_self, fun t _ => ih fun e' he' => hA e' (List.mem_cons_of_mem _ he')⟩

theorem eachStep_mono {C D : S → E → Prop} (hCD : ∀ s e, C s e → D s e) {s : S} {es : List E}
    (h : EachStep step C s es) : EachStep step D s es := by
  induction es generalizing s with
  | nil => trivial
  | cons e es ih => exact ⟨hCD s e h.1, fun t ht => ih (h.2 t ht)⟩

theorem eachStep_iff {C D : S → E → Prop} (hCD : ∀ s e, C s e ↔ D s e) {s : S} {es : List E} :
    EachStep step C s es ↔ EachStep step D s es := by
  induction es generalizing s with
  | nil => exact Iff.rfl
  | cons e es ih => exact and_congr (hCD s e) (forall_congr' fun _ => imp_congr_right fun _ => ih)

theorem someStep_mono {C D : S → E → Prop} (hCD : ∀ s e, C s e → D s e) {s : S} {es : List E}
    (h : SomeStep step C s es) : SomeStep step D s es := by
  induction es generalizing s with
  | nil => exact h
  | cons e es ih => exact h.imp (hCD s e) fun ⟨t, ht, hrest⟩ => ⟨t, ht, ih hrest⟩

theorem not_someStep {C : S → E → Prop} {s : S} {es : List E} (h : EachStep step (fun s e => ¬ C s e) s es) :
    ¬ SomeStep step C s es := by
  induction es generalizing s with
  | nil => exact not_false
  | cons e es ih =>
      rintro (hC | ⟨t, ht, hsome⟩)
      · exact h.1 hC
      · exact ih (h.2 t ht) hsome

/-- When the steps that meet a condition keep an invariant of the property, and only they
lead on to the property, a run has it throughout exactly if all its steps meet the condition. -/
theorem always_iff_eachStep_of_invariant {J I P : S → Prop} {C : S → E → Prop}
    (hJ : ∀ s e t, J s → step s e = some t → J t) (hIP : ∀ s, J s → I s → P s)
    (hkeep : ∀ s e t, J s → I s → step s e = some t → C s e → I t)
    (hneed : ∀ s e t, J s → I s → step s e = some t → P t → C s e)
    {s u : S} {es : List E} (hrun : run step s es = some u) (hs : J s) (hI : I s) :
    Always step P s es ↔ EachStep step C s es :=
  always_iff_eachStep_of_allowed (A := fun _ _ => True) hJ hIP (fun s e t hs hI _ => hkeep s e t hs hI)
    (fun s e t hs hI _ => hneed s e t hs hI) (eachStep_of_forall (fun _ _ => trivial) s es) hrun hs hI

theorem eachStep_of_always {A D : S → E → Prop} {P : S → Prop}
    (hD : ∀ s e t, P s → A s e → step s e = some t → D s e) {s u : S} {es : List E} (hP : Always step P s es)
    (hA : EachStep step A s es) (hrun : run step s es = some u) : EachStep step D s es := by
  induction es generalizing s with
  | nil => trivial
  | cons e es ih =>
      obtain ⟨t, ht, hrun⟩ := run_cons.mp hrun
      refine ⟨hD s e t hP.1 hA.1 ht, fun v hv => ?_⟩
      obtain rfl : t = v := Option.some.inj (ht.symm.trans hv)
      exact ih (hP.2 t ht) (hA.2 t ht) hrun

theorem eachStep_congr {C D : S → E → Prop} (hCD : ∀ s e t, step s e = some t → (C s e ↔ D s e))
    {s u : S} {es : List E} (hrun : run step s es = some u) : EachStep step C s es ↔ EachStep step D s es := by
  induction es generalizing s with
  | nil => exact Iff.rfl
  | cons e es ih =>
      obtain ⟨t, ht, hrun⟩ := run_cons.mp hrun
      refine and_congr (hCD s e t ht) (forall_congr' fun v => forall_congr' fun hv => ?_)
      obtain rfl : t = v := Option.some.inj (ht.symm.trans hv)
      exact ih hrun

theorem always_iff_eachStep {J P : S → Prop} {C : S → E → Prop}
    (hJ : ∀ s e t, J s → step s e = some t → J t)
    (hstep : ∀ s e t, J s → P s → step s e = some t → (P t ↔ C s e))
    {s u : S} {es : List E} (hrun : run step s es = some u) (hs : J s) (hP : P s) :
    Always step P s es ↔ EachStep step C s es :=
  always_iff_eachStep_of_invariant hJ (fun _ _ h => h) (fun s e t hs hP ht => (hstep s e t hs hP ht).mpr)
    (fun s e t hs hP ht => (hstep s e t hs hP ht).mp) hrun hs hP

/-- When, among the steps that are allowed, only one that meets the condition brings a
property about, a run that ends with the property had it before or has such a step. -/
theorem someStep_of_reached {A C : S → E → Prop} {P : S → Prop}
    (hstep : ∀ s e t, A s e → step s e = some t → P t → P s ∨ C s e)
    {s u : S} {es : List E} (hA : EachStep step A s es) (hrun : run step s es = some u) (hP : P u) :
    P s ∨ SomeStep step C s es := by
  induction es generalizing s with
  | nil =>
      cases hrun
      exact .inl hP
  | cons e es ih =>
      obtain ⟨t, ht, hrun⟩ := run_cons.mp hrun
      rcases ih (hA.2 t ht) hrun with hPt | hsome
      · exact (hstep s e t hA.1 ht hPt).imp_right .inl
      · exact .inr (.inr ⟨t, ht, hsome⟩)

/-- When, under an invariant of the events that are allowed, a step brings the property
about exactly if it meets the condition, a run ends with it exactly if one of its steps did. -/
theorem reached_iff_someStep {A : E → Prop} {J P : S → Prop} {C : S → E → Prop}
    (hJ : ∀ s e t, J s → A e → step s e = some t → J t)
    (hstep : ∀ s e t, J s → A e → step s e = some t → (P t ↔ P s ∨ C s e))
    {s u : S} {es : List E} (hes : ∀ e ∈ es, A e) (hrun : run step s es = some u) (hs : J s) :
    P u ↔ P s ∨ SomeStep step C s es := by
  induction es generalizing s with
  | nil =>
      cases hrun
      exact ⟨.inl, fun h => h.elim id False.elim⟩
  | cons e es ih =>
      obtain ⟨t, ht, hrun⟩ := run_cons.mp hrun
      have he := hes e List.mem_cons_self
      have hsome : SomeStep step C s (e :: es) ↔ C s e ∨ SomeStep step C t es := by simp [SomeStep, ht]
      rw [ih (fun e h => hes e (List.mem_cons_of_mem _ h)) hrun (hJ s e t hs he ht), hstep s e t hs he ht, hsome,
        or_assoc]

/-- What holds once the first condition is brought about, and stays as long as the second
one is met, holds after a run of allowed steps that meets the second one since the first. -/
theorem invariant_since {A : S → E → Prop} {J I : S → Prop} {P : S → E → Prop} {Q : S → E → S → Prop}
    (hJ : ∀ s e t, J s → A s e → step s e = some t → J t)
    (hP : ∀ s e t, J s → A s e → step s e = some t → P s e → I t)
    (hQ : ∀ s e t, J s → I s → A s e → step s e = some t → Q s e t → I t)
    {since : Prop} {s u : S} {es : List E} (hA : EachStep step A s es) (hrun : run step s es = some u) (hs : J s)
    (hI : since → I s) (h : Since step P Q since s es) : I u := by
  induction es generalizing s since with
  | nil =>
      cases hrun
      exact hI h
  | cons e es ih =>
      obtain ⟨t, ht, hrun⟩ := run_cons.mp hrun
      refine ih (hA.2 t ht) hrun (hJ s e t hs hA.1 ht) ?_ (h t ht)
      rintro (hbegun | ⟨hsince, hkept⟩)
      · exact hP s e t hs hA.1 ht hbegun
      · exact hQ s e t hs (hI hsince) hA.1 ht hkept

theorem since_mono {P : S → E → Prop} {Q : S → E → S → Prop} {p q : Prop} (hpq : p → q) {s : S} {es : List E}
    (h : Since step P Q p s es) : Since step P Q q s es := by
  induction es generalizing s p q with
  | nil => exact hpq h
  | cons e es ih => exact fun t ht => ih (Or.imp_right (And.imp_left hpq)) (h t ht)

theorem since_of_eachStep {P C : S → E → Prop} {Q : S → E → S → Prop}
    (hC : ∀ s e t, C s e → step s e = some t → Q s e t) {since : Prop} (hsince : since) {s : S} {es : List E}
    (h : EachStep step C s es) : Since step P Q since s es := by
  induction es generalizing s since with
  | nil => exact hsince
  | cons e es ih => exact fun t ht => ih (.inr ⟨hsince, hC s e t h.1 ht⟩) (h.2 t ht)

theorem since_of_step {P : S → E → Prop} {Q : S → E → S → Prop} {since : Prop} {s t : S} {e : E} {es fs : List E}
    (hrun : run step s es = some t) (hP : P t e) (hrest : ∀ u, step t e = some u → Since step P Q True u fs) :
    Since step P Q since s (es ++ e :: fs) := by
  induction es generalizing s since with
  | nil =>
      cases hrun
      exact fun u hu => since_mono (fun _ => .inl hP) (hrest u hu)
  | cons e' es ih =>
      obtain ⟨v, hv, hrun⟩ := run_cons.mp hrun
      intro w hw
      obtain rfl : v = w := Option.some.inj (hv.symm.trans hw)
      exact ih hrun

end DumpCollector.Lib.Runs
