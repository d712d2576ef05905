import DumpCollector.Lib.Effects
import Mathlib.Order.WellFounded

namespace DumpCollector.Lib.Loops

open Effects

variable {ε σ α β γ : Type}

/-- A loop with a bound on its rounds; a round gives a result or what the next one starts
from. -/
def loop (exceeded : ε) (round : α → EStateM ε σ (β ⊕ α)) : Nat → α → EStateM ε σ β
  | 0, _ => throw exceeded
  | rounds + 1, a => do
      match ← round a with
      | .inl b => pure b
      | .inr a' => loop exceeded round rounds a'

/-- From some bound on, a computation does not run into its bound. -/
def Ends (exceeded : ε) (run : Nat → EStateM ε σ β) (s : σ) : Prop :=
  ∃ enough, ∀ rounds, enough ≤ rounds → ∀ t, run rounds s ≠ .error exceeded t

def Within (exceeded : ε) (m : EStateM ε σ β) : Prop := ∀ s t, m s ≠ .error exceeded t

def Follows (round : α → EStateM ε σ (β ⊕ α)) (y x : α × σ) : Prop := round x.1 x.2 = .ok (.inr y.1) y.2

section Within

variable {exceeded : ε}

theorem within_pure (b : β) : Within exceeded (pure b : EStateM ε σ β) := by
  intro s t h
  cases h

theorem within_ite {c : Prop} [Decidable c] {m k : EStateM ε σ β} (hm : Within exceeded m)
    (hk : Within exceeded k) : Within exceeded (if c then m else k) := by
  split <;> assumption

theorem within_modify (f : σ → σ) : Within exceeded (modify f : EStateM ε σ Unit) := by
  intro s t h
  cases h

theorem within_bind {m : EStateM ε σ β} {k : β → EStateM ε σ γ} (hm : Within exceeded m)
    (hk : ∀ b, Within exceeded (k b)) : Within exceeded (m >>= k) := by
  intro s u h
  rcases bind_eq_error.mp h with h | ⟨b, t, _, h⟩
  · exact hm s u h
  · exact hk b t u h

theorem within_forM {xs : List γ} {k : γ → EStateM ε σ PUnit} (h : ∀ x, Within exceeded (k x)) :
    Within exceeded (forM xs k) := by
  induction xs with
  | nil => exact within_pure _
  | cons x xs ih =>
      rw [List.forM_cons]
      exact within_bind (h x) fun _ => ih

theorem ends_bind {run : Nat → EStateM ε σ β} {k : β → EStateM ε σ γ} (hk : ∀ b, Within exceeded (k b)) (s : σ) :
    Ends exceeded (fun rounds => run rounds >>= k) s ↔ Ends exceeded run s := by
  constructor
  · rintro ⟨enough, h⟩
    refine ⟨enough, fun rounds hle t hrun => ?_⟩
    exact h rounds hle t (bind_of_error hrun k)
  · rintro ⟨enough, h⟩
    refine ⟨enough, fun rounds hle t hrun => ?_⟩
    rcases bind_eq_error.mp hrun with hrun | ⟨b, u, _, hrest⟩
    · exact h rounds hle t hrun
    · exact hk b u t hrest

end Within

section Loops

variable {exceeded : ε} {round : α → EStateM ε σ (β ⊕ α)}

theorem loop_of_follows {x y : α × σ} (h : Follows round y x) (rounds : Nat) :
    loop exceeded round (rounds + 1) x.1 x.2 = loop exceeded round rounds y.1 y.2 :=
  bind_of_ok h _

theorem acc_of_loop (rounds : Nat) {x : α × σ} (h : ∀ t, loop exceeded round rounds x.1 x.2 ≠ .error exceeded t) :
    Acc (Follows round) x := by
  induction rounds generalizing x with
  | zero => exact absurd rfl (h x.2)
  | succ rounds ih =>
      constructor
      intro y hy
      apply ih
      intro t ht
      exact h t ((loop_of_follows hy rounds).trans ht)

/-- By induction on the accessible part: a loop that is not at its last round ends when the
rest of it does. -/
theorem ends_of_acc (hround : ∀ a, Within exceeded (round a)) {x : α × σ} (h : Acc (Follows round) x) :
    Ends exceeded (fun rounds => loop exceeded round rounds x.1) x.2 := by
  induction h with
  | intro x _ ih =>
      cases hr : round x.1 x.2 with
      | error e t =>
          refine ⟨1, fun rounds hle u hloop => ?_⟩
          obtain ⟨rounds, rfl⟩ := Nat.exists_eq_add_of_le' hle
          rcases bind_eq_error.mp hloop with herror | ⟨b, v, hok, _⟩
          · exact hround x.1 x.2 u herror
          · rw [hr] at hok
            cases hok
      | ok out t =>
          cases out with
          | inl b =>
              refine ⟨1, fun rounds hle u hloop => ?_⟩
              obtain ⟨rounds, rfl⟩ := Nat.exists_eq_add_of_le' hle
              have hdone : loop exceeded round (rounds + 1) x.1 x.2 = .ok b t := bind_of_ok hr _
              cases hdone.symm.trans hloop
          | inr a =>
              obtain ⟨enough, henough⟩ := ih (a, t) hr
              refine ⟨enough + 1, fun rounds hle u hloop => ?_⟩
              obtain ⟨rounds, rfl⟩ := Nat.exists_eq_add_of_le' (Nat.le_of_add_left_le hle)
              apply henough rounds (Nat.le_of_succ_le_succ hle) u
              exact (loop_of_follows (y := (a, t)) hr rounds).symm.trans hloop

theorem ends_iff_acc (hround : ∀ a, Within exceeded (round a)) (a : α) (s : σ) :
    Ends exceeded (fun rounds => loop exceeded round rounds a) s ↔ Acc (Follows round) (a, s) := by
  refine ⟨fun ⟨enough, h⟩ => ?_, ends_of_acc hround⟩
  exact acc_of_loop enough (h enough le_rfl)

theorem keeps_loop {R : σ → σ → Prop} [Std.Refl R] [IsTrans σ R] (h : ∀ a, Keeps R (round a)) (rounds : Nat) (a : α) :
    Keeps R (loop exceeded round rounds a) := by
  induction rounds generalizing a with
  | zero => exact keeps_throw exceeded
  | succ rounds ih =>
      refine keeps_bind (h a) fun out => ?_
      cases out with
      | inl b => exact keeps_pure b
      | inr a' => exact ih a'

/-- What a loop returns is what its last round returns. -/
theorem last_round {rounds : Nat} {a : α} {b : β} {s t : σ} (h : loop exceeded round rounds a s = .ok b t) :
    ∃ a' s', round a' s' = .ok (.inl b) t := by
  induction rounds generalizing a s with
  | zero => cases h
  | succ rounds ih =>
      obtain ⟨out, u, hround, hrest⟩ := bind_eq_ok.mp h
      cases out with
      | inl b' =>
          cases hrest
          exact ⟨a, s, hround⟩
      | inr a' => exact ih hrest

/-- The rule for a loop whose rounds keep an invariant and make a number smaller: with more
rounds than that number, it ends where some round that finds the invariant ends it. By
induction on the rounds. -/
theorem loop_ends {I : α × σ → Prop} {size : α × σ → Nat}
    (hround : ∀ x y, I x → Follows round y x → I y ∧ size y < size x) {rounds : Nat} {x : α × σ} (hx : I x)
    (hsize : size x < rounds) :
    ∃ y, I y ∧ ((∃ b t, round y.1 y.2 = .ok (.inl b) t ∧ loop exceeded round rounds x.1 x.2 = .ok b t) ∨
      ∃ e t, round y.1 y.2 = .error e t ∧ loop exceeded round rounds x.1 x.2 = .error e t) := by
  induction rounds generalizing x with
  | zero => exact absurd hsize (Nat.not_lt_zero _)
  | succ rounds ih =>
      cases hr : round x.1 x.2 with
      | error e t => exact ⟨x, hx, .inr ⟨e, t, hr, bind_of_error hr _⟩⟩
      | ok out t =>
          cases out with
          | inl b => exact ⟨x, hx, .inl ⟨b, t, hr, bind_of_ok hr _⟩⟩
          | inr a =>
              have hfollows : Follows round (a, t) x := hr
              obtain ⟨ha, hless⟩ := hround x (a, t) hx hfollows
              obtain ⟨y, hy, hends⟩ := ih ha (by omega)
              rw [loop_of_follows hfollows]
              exact ⟨y, hy, hends⟩

theorem map_of_eq {f : β → γ} {m k : EStateM ε σ β} {s t : σ} (h : m s = k t) : (f <$> m) s = (f <$> k) t := by
  simp only [Functor.map, EStateM.map, h]

/-- A function that unfolds as the rounds do is what such a loop computes. By induction on the
rounds. -/
theorem map_loop_eq {I : α × σ → Prop} {size : α × σ → Nat} {f : β → γ} {spec : α → EStateM ε σ γ}
    (hround : ∀ x y, I x → Follows round y x → I y ∧ size y < size x)
    (hspec : ∀ a s, I (a, s) → spec a s = (round a >>= Sum.elim (fun b => pure (f b)) spec) s) {rounds : Nat}
    {x : α × σ} (hx : I x) (hsize : size x < rounds) :
    (f <$> loop exceeded round rounds x.1) x.2 = spec x.1 x.2 := by
  induction rounds generalizing x with
  | zero => exact absurd hsize (Nat.not_lt_zero _)
  | succ rounds ih =>
      rw [hspec x.1 x.2 hx]
      cases hr : round x.1 x.2 with
      | error e t =>
          have hloop : loop exceeded round (rounds + 1) x.1 x.2 = .error e t := bind_of_error hr _
          rw [bind_of_error hr]
          exact map_of_eq (k := throw e) hloop
      | ok out t =>
          rw [bind_of_ok hr]
          cases out with
          | inl b =>
              have hloop : loop exceeded round (rounds + 1) x.1 x.2 = .ok b t := bind_of_ok hr _
              exact map_of_eq (k := pure b) hloop
          | inr a =>
              have hfollows : Follows round (a, t) x := hr
              obtain ⟨ha, hless⟩ := hround x (a, t) hx hfollows
              have hloop := @loop_of_follows ε σ α β exceeded round x (a, t) hfollows rounds
              exact (map_of_eq hloop).trans (ih ha (by omega))

end Loops

section Chains

variable {δ : Type} {r : γ → γ → Prop} {r' : δ → δ → Prop} {R : γ → δ → Prop}

/-- What ends below ends above, where every step above is matched below. -/
theorem acc_of_simulation (hstep : ∀ x y x', R x x' → r y x → ∃ y', R y y' ∧ r' y' x') {x : γ} {x' : δ}
    (h : Acc r' x') (hx : R x x') : Acc r x := by
  induction h generalizing x with
  | intro x' _ ih =>
      constructor
      intro y hy
      obtain ⟨y', hy', hr⟩ := hstep x y x' hx hy
      exact ih y' hr hy'

theorem acc_iff_no_chain {x : γ} : Acc r x ↔ ¬ ∃ f : Nat → γ, f 0 = x ∧ ∀ k, r (f (k + 1)) (f k) := by
  rw [← not_acc_iff_exists_descending_chain, not_not]

end Chains

end DumpCollector.Lib.Loops
