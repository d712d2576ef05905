import DumpCollector.Lib.Effects
import Mathlib.Data.List.Forall2

namespace DumpCollector.Lib.Traces

open Effects

variable {ε σ α β μ : Type}

section Emits

variable {log : σ → List μ} {m : EStateM ε σ α} {k : α → EStateM ε σ β}

/-- When the computation returns, it has appended to the log a list that goes with its result. -/
def Emits (log : σ → List μ) (P : α → List μ → Prop) (m : EStateM ε σ α) : Prop :=
  ∀ s a t, m s = .ok a t → ∃ ms, P a ms ∧ log t = log s ++ ms

variable {P : α → List μ → Prop} {Q : β → List μ → Prop}

theorem emits_pure {a : α} (h : P a []) : Emits log P (pure a : EStateM ε σ α) := by
  intro s b t hrun
  cases hrun
  exact ⟨[], h, (List.append_nil _).symm⟩

theorem emits_throw (e : ε) : Emits log P (throw e : EStateM ε σ α) := by
  intro s b t hrun
  cases hrun

theorem emits_get_bind {k : σ → EStateM ε σ α} (h : ∀ s, Emits log P (k s)) : Emits log P (get >>= k) :=
  fun s a t hrun => h s s a t hrun

theorem emits_ite {c : Prop} [Decidable c] {m' : EStateM ε σ α} (hm : Emits log P m) (hm' : Emits log P m') :
    Emits log P (if c then m else m') := by
  split <;> assumption

theorem emits_mono {P' : α → List μ → Prop} (hP : ∀ a ms, P a ms → P' a ms) (h : Emits log P m) : Emits log P' m := by
  intro s a t hrun
  obtain ⟨ms, hms, hlog⟩ := h s a t hrun
  exact ⟨ms, hP a ms hms, hlog⟩

theorem emits_bind (hm : Emits log P m) (hk : ∀ a, Emits log (fun b ys => ∀ xs, P a xs → Q b (xs ++ ys)) (k a)) :
    Emits log Q (m >>= k) := by
  intro s b u hrun
  obtain ⟨a, t, ht, hu⟩ := bind_eq_ok.mp hrun
  obtain ⟨xs, hxs, hlog⟩ := hm s a t ht
  obtain ⟨ys, hys, hlog'⟩ := hk a t b u hu
  exact ⟨xs ++ ys, hys xs hxs, by rw [hlog', hlog, List.append_assoc]⟩

theorem emits_after (hm : ∀ s, log (final (m s)) = log s) (hk : ∀ a, Emits log Q (k a)) : Emits log Q (m >>= k) := by
  intro s b u hrun
  obtain ⟨a, t, ht, hu⟩ := bind_eq_ok.mp hrun
  obtain ⟨ys, hys, hlog⟩ := hk a t b u hu
  have hsame := hm s
  rw [ht, final_ok] at hsame
  exact ⟨ys, hys, by rw [hlog, hsame]⟩

theorem emits_forM {R : β → List μ → Prop} {body : β → EStateM ε σ PUnit} {xs : List β}
    (h : ∀ x ∈ xs, Emits log (fun _ => R x) (body x)) :
    Emits log (fun _ ms => ∃ blocks, List.Forall₂ R xs blocks ∧ ms = blocks.flatten) (forM xs body) := by
  induction xs with
  | nil => exact emits_pure ⟨[], .nil, rfl⟩
  | cons x xs ih =>
      rw [List.forM_cons]
      refine emits_bind (h x List.mem_cons_self) fun _ => ?_
      refine emits_mono (fun _ ys hys zs hzs => ?_) (ih fun y hy => h y (List.mem_cons_of_mem _ hy))
      obtain ⟨blocks, hblocks, rfl⟩ := hys
      exact ⟨zs :: blocks, .cons hzs hblocks, rfl⟩

theorem emits_forM_all {p : μ → Prop} {body : β → EStateM ε σ PUnit} {xs : List β}
    (h : ∀ x, Emits log (fun _ ms => ∀ y ∈ ms, p y) (body x)) :
    Emits log (fun _ ms => ∀ y ∈ ms, p y) (forM xs body) := by
  induction xs with
  | nil => exact emits_pure fun y hy => absurd hy List.not_mem_nil
  | cons x xs ih =>
      rw [List.forM_cons]
      refine emits_bind (h x) fun _ => emits_mono (fun _ ys hys zs hzs y hy => ?_) ih
      exact (List.mem_append.mp hy).elim (hzs y) (hys y)

end Emits

section Costs

variable {count : σ → Nat} {m : EStateM ε σ α} {k : α → EStateM ε σ β} {n n' : Nat}

/-- However the computation ends, it has moved the count on by no more than the number. -/
def Costs (count : σ → Nat) (n : Nat) (m : EStateM ε σ α) : Prop := ∀ s, count (final (m s)) ≤ count s + n

theorem costs_pure (a : α) : Costs count n (pure a : EStateM ε σ α) := fun _ => Nat.le_add_right _ _

theorem costs_get_bind {k : σ → EStateM ε σ α} (h : ∀ s, Costs count n (k s)) : Costs count n (get >>= k) :=
  fun s => h s s

theorem costs_ite {c : Prop} [Decidable c] {m' : EStateM ε σ α} (hm : Costs count n m) (hm' : Costs count n m') :
    Costs count n (if c then m else m') := by
  split <;> assumption

theorem costs_mono (h : Costs count n m) (hle : n ≤ n') : Costs count n' m :=
  fun s => Nat.le_trans (h s) (Nat.add_le_add_left hle _)

theorem costs_bind (hm : Costs count n m) (hk : ∀ a, Costs count n' (k a)) : Costs count (n + n') (m >>= k) := by
  intro s
  have hs := hm s
  cases h : m s with
  | ok a t =>
      rw [bind_of_ok h]
      rw [h, final_ok] at hs
      have ht := hk a t
      omega
  | error e t =>
      rw [bind_of_error h]
      rw [h] at hs
      exact Nat.le_trans hs (Nat.add_le_add_left (Nat.le_add_right _ _) _)

theorem costs_forM {body : β → EStateM ε σ PUnit} {xs : List β} (h : ∀ x ∈ xs, Costs count n (body x)) :
    Costs count (xs.length * n) (forM xs body) := by
  induction xs with
  | nil => exact costs_pure _
  | cons x xs ih =>
      rw [List.forM_cons, List.length_cons, Nat.succ_mul, Nat.add_comm]
      exact costs_bind (h x List.mem_cons_self) fun _ => ih fun y hy => h y (List.mem_cons_of_mem _ hy)

end Costs

end DumpCollector.Lib.Traces
