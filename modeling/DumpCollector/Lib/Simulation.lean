import DumpCollector.Lib.Effects

namespace DumpCollector.Lib.Simulation

open Effects

variable {ε σ τ α β : Type}

/-- Two outcomes that return or throw the same, in related states. -/
inductive Alike (R : σ → τ → Prop) : EStateM.Result ε σ α → EStateM.Result ε τ α → Prop
  | ok (a : α) {s : σ} {t : τ} (h : R s t) : Alike R (.ok a s) (.ok a t)
  | error (e : ε) {s : σ} {t : τ} (h : R s t) : Alike R (.error e s) (.error e t)

def Simulates (R : σ → τ → Prop) (m : EStateM ε σ α) (m' : EStateM ε τ α) : Prop := ∀ s t, R s t → Alike R (m s) (m' t)

variable {R : σ → τ → Prop}

theorem simulates_pure (a : α) : Simulates R (pure a : EStateM ε σ α) (pure a) := fun _ _ h => .ok a h

theorem simulates_fromExcept (x : Except ε α) : Simulates R (fromExcept x) (fromExcept x) := by
  cases x with
  | ok a => exact simulates_pure a
  | error e => exact fun _ _ h => .error e h

theorem simulates_modify {f : σ → σ} {g : τ → τ} (hfg : ∀ s t, R s t → R (f s) (g t)) :
    Simulates R (modify f : EStateM ε σ Unit) (modify g) := fun s t h => .ok () (hfg s t h)

theorem simulates_bind {m : EStateM ε σ α} {m' : EStateM ε τ α} {k : α → EStateM ε σ β} {k' : α → EStateM ε τ β}
    (hm : Simulates R m m') (hk : ∀ a, Simulates R (k a) (k' a)) : Simulates R (m >>= k) (m' >>= k') := by
  intro s t h
  have halike := hm s t h
  generalize hr : m s = r at halike
  generalize hr' : m' t = r' at halike
  cases halike with
  | ok a h =>
      rw [bind_of_ok hr, bind_of_ok hr']
      exact hk a _ _ h
  | error e h =>
      rw [bind_of_error hr, bind_of_error hr']
      exact .error e h

theorem simulates_whenever (c : Bool) {m : EStateM ε σ Unit} {m' : EStateM ε τ Unit} (h : Simulates R m m') :
    Simulates R (whenever c m) (whenever c m') := by
  cases c with
  | true => exact h
  | false => exact simulates_pure ()

end DumpCollector.Lib.Simulation
