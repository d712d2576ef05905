import Mathlib.Order.Defs.Unbundled

namespace DumpCollector.Lib.Effects

variable {ε σ α β : Type}

def final : EStateM.Result ε σ α → σ
  | .ok _ t => t
  | .error _ t => t

@[simp] theorem final_ok (a : α) (t : σ) : final (.ok a t : EStateM.Result ε σ α) = t := rfl

@[simp] theorem final_error (e : ε) (t : σ) : final (.error e t : EStateM.Result ε σ α) = t := rfl

/-- Every outcome of a computation is related to the state it started in. -/
def Keeps (R : σ → σ → Prop) (m : EStateM ε σ α) : Prop := ∀ s, R s (final (m s))

/-- A computation that is run where the invariant holds leaves it true when it returns. -/
def Preserves (I : σ → Prop) (m : EStateM ε σ α) : Prop := ∀ s a t, I s → m s = .ok a t → I t

def fromExcept : Except ε α → EStateM ε σ α
  | .ok a => pure a
  | .error e => throw e

def throwIf (c : Bool) (e : ε) : EStateM ε σ Unit := if c then throw e else pure ()

def whenever (c : Bool) (m : EStateM ε σ Unit) : EStateM ε σ Unit := if c then m else pure ()

theorem eq_ok_of_run' {m : EStateM ε σ α} {s : σ} {a : α} (h : m.run' s = some a) : m s = .ok a (final (m s)) := by
  change (match m s with
    | .ok b _ => some b
    | .error _ _ => none) = some a at h
  cases hm : m s with
  | ok b t =>
      rw [hm] at h
      cases h
      rfl
  | error e t =>
      rw [hm] at h
      cases h

theorem bind_eq_ok {m : EStateM ε σ α} {k : α → EStateM ε σ β} {s u : σ} {b : β} :
    (m >>= k) s = .ok b u ↔ ∃ a t, m s = .ok a t ∧ k a t = .ok b u := by
  change EStateM.bind m k s = _ ↔ _
  rw [EStateM.bind]
  rcases m s with ⟨a, t⟩ | ⟨e, t⟩ <;> simp [and_assoc]

theorem bind_eq_error {m : EStateM ε σ α} {k : α → EStateM ε σ β} {s u : σ} {e : ε} :
    (m >>= k) s = .error e u ↔ m s = .error e u ∨ ∃ a t, m s = .ok a t ∧ k a t = .error e u := by
  change EStateM.bind m k s = _ ↔ _
  rw [EStateM.bind]
  rcases m s with ⟨a, t⟩ | ⟨e', t⟩ <;> simp [and_assoc]

theorem bind_of_ok {m : EStateM ε σ α} {s t : σ} {a : α} (h : m s = .ok a t)
    (k : α → EStateM ε σ β) : (m >>= k) s = k a t := by
  change EStateM.bind m k s = _
  simp [EStateM.bind, h]

theorem bind_of_error {m : EStateM ε σ α} {s t : σ} {e : ε} (h : m s = .error e t)
    (k : α → EStateM ε σ β) : (m >>= k) s = .error e t := by
  change EStateM.bind m k s = _
  simp [EStateM.bind, h]

theorem bind_of_eq {m m' : EStateM ε σ α} {s : σ} (h : m s = m' s) (k : α → EStateM ε σ β) :
    (m >>= k) s = (m' >>= k) s := by
  change EStateM.bind m k s = EStateM.bind m' k s
  rw [EStateM.bind, EStateM.bind, h]

theorem bind_congr_of_ok {m : EStateM ε σ α} {k k' : α → EStateM ε σ β} {s : σ}
    (h : ∀ a t, m s = .ok a t → k a t = k' a t) : (m >>= k) s = (m >>= k') s := by
  cases hm : m s with
  | ok a t => rw [bind_of_ok hm, bind_of_ok hm, h a t hm]
  | error e t => rw [bind_of_error hm, bind_of_error hm]

@[simp] theorem pure_apply (a : α) (s : σ) : (pure a : EStateM ε σ α) s = .ok a s := rfl

@[simp] theorem throw_apply (e : ε) (s : σ) : (throw e : EStateM ε σ α) s = .error e s := rfl

@[simp] theorem modify_apply (f : σ → σ) (s : σ) : (modify f : EStateM ε σ Unit) s = .ok () (f s) := rfl

@[simp] theorem get_bind (k : σ → EStateM ε σ α) (s : σ) : (get >>= k) s = k s s := rfl

@[simp] theorem modify_bind (f : σ → σ) (k : Unit → EStateM ε σ α) (s : σ) :
    ((modify f : EStateM ε σ Unit) >>= k) s = k () (f s) := rfl

@[simp] theorem pure_bind_apply (a : α) (k : α → EStateM ε σ β) (s : σ) :
    ((pure a : EStateM ε σ α) >>= k) s = k a s := rfl

@[simp] theorem throw_bind_apply (e : ε) (k : α → EStateM ε σ β) (s : σ) :
    ((throw e : EStateM ε σ α) >>= k) s = .error e s := rfl

theorem forM_singleton (x : β) (k : β → EStateM ε σ PUnit) : forM [x] k = k x := by
  rw [List.forM_cons, List.forM_nil]
  exact bind_pure_unit

theorem final_map (f : α → β) (m : EStateM ε σ α) (s : σ) : final ((f <$> m) s) = final (m s) := by
  rw [map_eq_pure_bind]
  cases h : m s with
  | ok a t => rw [bind_of_ok h]; rfl
  | error e t => rw [bind_of_error h]; rfl

theorem fromExcept_eq_ok {x : Except ε α} {s t : σ} {a : α} :
    (fromExcept x : EStateM ε σ α) s = .ok a t ↔ x = .ok a ∧ t = s := by
  cases x <;> simp [fromExcept, eq_comm]

theorem fromExcept_bind_eq_error {x : Except ε α} {k : α → EStateM ε σ β} {s t : σ} {e : ε} :
    ((fromExcept x : EStateM ε σ α) >>= k) s = .error e t ↔
      (x = .error e ∧ t = s) ∨ ∃ a, x = .ok a ∧ k a s = .error e t := by
  cases x <;> simp [fromExcept, eq_comm]

theorem except_bind_eq_ok {x : Except ε α} {k : α → Except ε β} {b : β} :
    (x >>= k) = .ok b ↔ ∃ a, x = .ok a ∧ k a = .ok b := by
  cases x <;> simp [bind, Except.bind]

section Keeps

variable {R : σ → σ → Prop}

theorem Keeps.ok {m : EStateM ε σ α} (hm : Keeps R m) {s t : σ} {a : α} (h : m s = .ok a t) : R s t := by
  simpa [h] using hm s

theorem Keeps.error {m : EStateM ε σ α} (hm : Keeps R m) {s t : σ} {e : ε} (h : m s = .error e t) :
    R s t := by
  simpa [h] using hm s

theorem keeps_modify {f : σ → σ} (hf : ∀ s, R s (f s)) : Keeps R (modify f : EStateM ε σ Unit) := hf

theorem keeps_ite {c : Prop} [Decidable c] {m k : EStateM ε σ α} (hm : Keeps R m) (hk : Keeps R k) :
    Keeps R (if c then m else k) := by
  split <;> assumption

theorem keeps_get_bind {k : σ → EStateM ε σ α} (hk : ∀ s, R s (final (k s s))) :
    Keeps R (get >>= k) := hk

variable [Std.Refl R]

theorem keeps_pure (a : α) : Keeps R (pure a : EStateM ε σ α) := fun s => refl s

theorem keeps_throw (e : ε) : Keeps R (throw e : EStateM ε σ α) := fun s => refl s

theorem keeps_get : Keeps R (get : EStateM ε σ σ) := fun s => refl s

theorem keeps_fromExcept (x : Except ε α) : Keeps R (fromExcept x : EStateM ε σ α) := by
  cases x with
  | ok a => exact keeps_pure a
  | error e => exact keeps_throw e

theorem keeps_throwIf (c : Bool) (e : ε) : Keeps R (throwIf c e : EStateM ε σ Unit) :=
  keeps_ite (keeps_throw e) (keeps_pure ())

theorem keeps_whenever {c : Bool} {m : EStateM ε σ Unit} (hm : Keeps R m) : Keeps R (whenever c m) :=
  keeps_ite hm (keeps_pure ())

variable [IsTrans σ R]

omit [Std.Refl R] in
theorem keeps_bind {m : EStateM ε σ α} {k : α → EStateM ε σ β} (hm : Keeps R m)
    (hk : ∀ a, Keeps R (k a)) : Keeps R (m >>= k) := by
  intro s
  cases h : m s with
  | ok a t =>
      rw [bind_of_ok h]
      exact trans_of R (hm.ok h) (hk a t)
  | error e t =>
      rw [bind_of_error h]
      exact hm.error h

omit [IsTrans σ R] in
theorem keeps_after {m : EStateM ε σ α} {k : α → EStateM ε σ β} (hk : ∀ a, Keeps R (k a)) (s : σ) :
    R (final (m s)) (final ((m >>= k) s)) := by
  cases h : m s with
  | ok a t =>
      rw [bind_of_ok h]
      exact hk a t
  | error e t =>
      rw [bind_of_error h]
      exact refl t

theorem keeps_forM {xs : List β} {k : β → EStateM ε σ PUnit} (hk : ∀ x, Keeps R (k x)) : Keeps R (forM xs k) := by
  induction xs with
  | nil => exact keeps_pure _
  | cons x xs ih =>
      rw [List.forM_cons]
      exact keeps_bind (hk x) fun _ => ih

end Keeps

section Preserves

variable {I : σ → Prop}

theorem preserves_pure (a : α) : Preserves I (pure a : EStateM ε σ α) := by
  intro s b t hs h
  cases h
  exact hs

theorem preserves_throw (e : ε) : Preserves I (throw e : EStateM ε σ α) := by
  intro s b t hs h
  cases h

theorem preserves_fromExcept (x : Except ε α) : Preserves I (fromExcept x : EStateM ε σ α) := by
  cases x with
  | ok a => exact preserves_pure a
  | error e => exact preserves_throw e

theorem preserves_modify {f : σ → σ} (hf : ∀ s, I s → I (f s)) : Preserves I (modify f : EStateM ε σ Unit) := by
  intro s a t hs h
  cases h
  exact hf s hs

theorem preserves_ite {c : Prop} [Decidable c] {m k : EStateM ε σ α} (hm : Preserves I m) (hk : Preserves I k) :
    Preserves I (if c then m else k) := by
  split <;> assumption

theorem preserves_bind {m : EStateM ε σ α} {k : α → EStateM ε σ β} (hm : Preserves I m)
    (hk : ∀ a, Preserves I (k a)) : Preserves I (m >>= k) := by
  intro s b u hs h
  obtain ⟨a, t, ht, hu⟩ := bind_eq_ok.mp h
  exact hk a t b u (hm s a t hs ht) hu

theorem preserves_get_bind {k : σ → EStateM ε σ α} (hk : ∀ s, Preserves I (k s)) : Preserves I (get >>= k) :=
  fun s a t hs h => hk s s a t hs h

theorem preserves_forM_mem {xs : List β} {k : β → EStateM ε σ PUnit} (hk : ∀ x ∈ xs, Preserves I (k x)) :
    Preserves I (forM xs k) := by
  induction xs with
  | nil => exact preserves_pure _
  | cons x xs ih =>
      rw [List.forM_cons]
      exact preserves_bind (hk x List.mem_cons_self) fun _ => ih fun y hy => hk y (List.mem_cons_of_mem _ hy)

theorem preserves_forM {xs : List β} {k : β → EStateM ε σ PUnit} (hk : ∀ x, Preserves I (k x)) :
    Preserves I (forM xs k) := preserves_forM_mem fun x _ => hk x

end Preserves

section Leads

variable {I P : σ → Prop}

/-- A computation that is run where the first condition holds makes the second one true
when it returns. -/
def Leads (I P : σ → Prop) (m : EStateM ε σ α) : Prop := ∀ s a t, I s → m s = .ok a t → P t

theorem leads_bind {Q : σ → Prop} {m : EStateM ε σ α} {k : α → EStateM ε σ β} (hm : Leads I Q m)
    (hk : ∀ a, Leads Q P (k a)) : Leads I P (m >>= k) := by
  intro s b u hs h
  obtain ⟨a, t, ht, hu⟩ := bind_eq_ok.mp h
  exact hk a t b u (hm s a t hs ht) hu

/-- One round of a loop is enough, if the others keep what it needs and what it makes true. -/
theorem leads_forM {xs : List β} {k : β → EStateM ε σ PUnit} {x : β} (hx : x ∈ xs)
    (hI : ∀ y ∈ xs, Preserves I (k y)) (hP : ∀ y ∈ xs, Preserves P (k y)) (hlead : Leads I P (k x)) :
    Leads I P (forM xs k) := by
  induction xs with
  | nil => cases hx
  | cons y ys ih =>
      rw [List.forM_cons]
      rcases List.mem_cons.mp hx with rfl | hx
      · exact leads_bind hlead fun _ => preserves_forM_mem fun z hz => hP z (List.mem_cons_of_mem _ hz)
      · exact leads_bind (hI y List.mem_cons_self) fun _ =>
          ih hx (fun z hz => hI z (List.mem_cons_of_mem _ hz)) fun z hz => hP z (List.mem_cons_of_mem _ hz)

end Leads

section Returns

variable {I P : σ → Prop}

/-- A computation that is run where the first condition holds returns, and makes the second
one true. -/
def Returns (I P : σ → Prop) (m : EStateM ε σ α) : Prop := ∀ s, I s → ∃ a t, m s = .ok a t ∧ P t

theorem returns_pure (a : α) : Returns I I (pure a : EStateM ε σ α) := fun s hs => ⟨a, s, rfl, hs⟩

theorem returns_bind {Q : σ → Prop} {m : EStateM ε σ α} {k : α → EStateM ε σ β} (hm : Returns I Q m)
    (hk : ∀ a, Returns Q P (k a)) : Returns I P (m >>= k) := by
  intro s hs
  obtain ⟨a, t, ht, hQ⟩ := hm s hs
  obtain ⟨b, u, hu, hP⟩ := hk a t hQ
  exact ⟨b, u, (bind_of_ok ht k).trans hu, hP⟩

theorem returns_forM {xs : List β} {k : β → EStateM ε σ PUnit} (hk : ∀ x ∈ xs, Returns I I (k x)) :
    Returns I I (forM xs k) := by
  induction xs with
  | nil => exact returns_pure _
  | cons x xs ih =>
      rw [List.forM_cons]
      exact returns_bind (hk x List.mem_cons_self) fun _ => ih fun y hy => hk y (List.mem_cons_of_mem _ hy)

end Returns

section Blind

variable {f : σ → σ}

def mapState (f : σ → σ) : EStateM.Result ε σ α → EStateM.Result ε σ α
  | .ok a t => .ok a (f t)
  | .error e t => .error e (f t)

/-- A computation that does the same when a part of the state is replaced, and leaves
the replacement alone. -/
def Blind (f : σ → σ) (m : EStateM ε σ α) : Prop := ∀ s, m (f s) = mapState f (m s)

theorem blind_pure (a : α) : Blind f (pure a : EStateM ε σ α) := fun _ => rfl

theorem blind_throw (e : ε) : Blind f (throw e : EStateM ε σ α) := fun _ => rfl

theorem blind_fromExcept (x : Except ε α) : Blind f (fromExcept x : EStateM ε σ α) := by
  cases x with
  | ok a => exact blind_pure a
  | error e => exact blind_throw e

theorem blind_modify {g : σ → σ} (hg : ∀ s, g (f s) = f (g s)) : Blind f (modify g : EStateM ε σ Unit) := by
  intro s
  rw [modify_apply, hg]
  rfl

theorem blind_ite {c : Prop} [Decidable c] {m k : EStateM ε σ α} (hm : Blind f m) (hk : Blind f k) :
    Blind f (if c then m else k) := by
  split <;> assumption

theorem blind_throwIf (c : Bool) (e : ε) : Blind f (throwIf c e : EStateM ε σ Unit) :=
  blind_ite (blind_throw e) (blind_pure ())

theorem blind_bind {m : EStateM ε σ α} {k : α → EStateM ε σ β} (hm : Blind f m) (hk : ∀ a, Blind f (k a)) :
    Blind f (m >>= k) := by
  intro s
  have hs := hm s
  cases h : m s with
  | ok a t =>
      rw [h] at hs
      rw [bind_of_ok h, bind_of_ok hs]
      exact hk a t
  | error e t =>
      rw [h] at hs
      rw [bind_of_error h, bind_of_error hs]
      rfl

theorem blind_get_bind {k : σ → EStateM ε σ α} (hf : ∀ s, k (f s) = k s) (hk : ∀ s, Blind f (k s)) :
    Blind f (get >>= k) := by
  intro s
  rw [get_bind, get_bind, hf]
  exact hk s s

end Blind

end DumpCollector.Lib.Effects
