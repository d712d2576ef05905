import DumpCollector.CreateDump.Processing

namespace DumpCollector.CreateDump.Waiting

open Lib.Effects Lib.Loops Call Server Processing

variable (p : Nat → Progress)

def failures : Nat → Nat
  | 0 => 0
  | k + 1 => failures k + if p k = .refused then 1 else 0

def maxPolls : Nat := 36001

/-- A reply that ends the waiting, after so many failures. -/
def verdict (fails : Nat) : Progress → Option (Except Exn Unit)
  | .completed => some (.ok ())
  | .another => some (.error (.createDumpDbus (text "Dump creation failed.")))
  | .mistyped => some (.error .badVariantAccess)
  | .inProgress => none
  | .refused => if fails + 1 ≥ 3 then some (.error (.createDumpDbus (text "Failed to get progress."))) else none

def Undecided (k : Nat) : Prop := ∀ j < k, verdict (failures p j) (p j) = none

/-- What the waiting comes to: the first reply that ends it decides, unless it comes too late. -/
inductive Outcome : Nat → Except Exn Unit → Prop
  | decided (k : Nat) (result : Except Exn Unit) (hk : k < maxPolls) (hundecided : Undecided p k)
      (hverdict : verdict (failures p k) (p k) = some result) : Outcome (k + 1) result
  | timedOut (hundecided : Undecided p maxPolls) :
      Outcome maxPolls (.error (.createDumpDbus (text "Dump creation timed out.")))

variable {p}

theorem undecided_succ {k : Nat} : Undecided p (k + 1) ↔ Undecided p k ∧ verdict (failures p k) (p k) = none := by
  constructor
  · intro h
    exact ⟨fun j hj => h j (by omega), h k (by omega)⟩
  · rintro ⟨h, hk⟩ j hj
    rcases Nat.lt_succ_iff_lt_or_eq.mp hj with hlt | rfl
    · exact h j hlt
    · exact hk

theorem exists_outcome (p : Nat → Progress) : ∃ polls result, Outcome p polls result := by
  have hfirst : ∀ k, Undecided p k ∨ ∃ j < k, Undecided p j ∧ verdict (failures p j) (p j) ≠ none := by
    intro k
    induction k with
    | zero => exact .inl fun j hj => absurd hj (Nat.not_lt_zero j)
    | succ k ih =>
        rcases ih with h | ⟨j, hj, h⟩
        · by_cases hk : verdict (failures p k) (p k) = none
          · exact .inl (undecided_succ.mpr ⟨h, hk⟩)
          · exact .inr ⟨k, by omega, h, hk⟩
        · exact .inr ⟨j, by omega, h⟩
  rcases hfirst maxPolls with h | ⟨k, hk, hundecided, hne⟩
  · exact ⟨_, _, .timedOut h⟩
  · obtain ⟨result, hresult⟩ := Option.ne_none_iff_exists'.mp hne
    exact ⟨_, _, .decided k result hk hundecided hresult⟩

theorem verdict_eq_none {fails : Nat} {reply : Progress} :
    verdict fails reply = none ↔ reply = .inProgress ∨ reply = .refused ∧ fails < 2 := by
  cases reply with
  | refused =>
      simp only [verdict, reduceCtorEq, false_or, true_and]
      split <;> simp <;> omega
  | completed | another | mistyped | inProgress => simp [verdict]

theorem undecided_iff {k : Nat} :
    Undecided p k ↔ (∀ j < k, p j = .inProgress ∨ p j = .refused) ∧ failures p k ≤ 2 := by
  induction k with
  | zero => simp [Undecided, failures]
  | succ k ih =>
      rw [undecided_succ, ih, verdict_eq_none, failures]
      constructor
      · rintro ⟨⟨hbefore, hfew⟩, hk⟩
        refine ⟨fun j hj => ?_, ?_⟩
        · rcases Nat.lt_succ_iff_lt_or_eq.mp hj with hlt | rfl
          · exact hbefore j hlt
          · exact hk.imp_right And.left
        · rcases hk with hk | ⟨hk, hless⟩
          · simpa [hk] using hfew
          · rw [if_pos hk]
            omega
      · rintro ⟨hbefore, hfew⟩
        refine ⟨⟨fun j hj => hbefore j (by omega), by omega⟩, ?_⟩
        rcases hbefore k (by omega) with hk | hk
        · exact .inl hk
        · rw [if_pos hk] at hfew
          exact .inr ⟨hk, by omega⟩

theorem outcome_ok {polls : Nat} :
    Outcome p polls (.ok ()) ↔ ∃ k < maxPolls, polls = k + 1 ∧ p k = .completed ∧
      (∀ j < k, p j = .inProgress ∨ p j = .refused) ∧ failures p k ≤ 2 := by
  have hcompleted : ∀ fails reply, verdict fails reply = some (.ok ()) ↔ reply = .completed := by
    intro fails reply
    cases reply with
    | refused =>
        simp only [verdict, reduceCtorEq, iff_false]
        split <;> simp
    | completed | another | mistyped | inProgress => simp [verdict]
  constructor
  · rintro ⟨k, _, hk, hundecided, hverdict⟩
    exact ⟨k, hk, rfl, (hcompleted _ _).mp hverdict, undecided_iff.mp hundecided⟩
  · rintro ⟨k, hk, rfl, hreply, hbefore⟩
    exact .decided k _ hk (undecided_iff.mpr hbefore) ((hcompleted _ _).mpr hreply)

section Rounds

variable {env : Environment} {w : World}

def waiting (w : World) (polls : Nat) : World := { w with polls := w.polls + polls, slept := w.slept + 50 * polls }

def replies (env : Environment) (w : World) (k : Nat) : Progress := env.progress (w.polls + k)

theorem waitRound_late (fails : Nat) {time_p : Nat} (h : time_p > 1000 * 60 * 30) :
    waitRound env (fails, time_p) w =
      .error (.createDumpDbus (text "Dump creation timed out.")) { w with slept := w.slept + 50 } := by
  simp only [waitRound, sleep, modify_bind, h, if_true, throw_apply]

def ending {α : Type} (t : World) : Except Exn α → EStateM.Result Exn World α
  | .ok a => .ok a t
  | .error e => .error e t

theorem waitRound_polls (env : Environment) (w : World) (fails : Nat) {time_p : Nat} (h : ¬time_p > 1000 * 60 * 30) :
    waitRound env (fails, time_p) w = ending (waiting w 1) (((verdict fails (env.progress w.polls)).map fun result =>
      result.map Sum.inl).getD
        (.ok (.inr (fails + if env.progress w.polls = .refused then 1 else 0, time_p + 50)))) := by
  simp only [waitRound, sleep, modify_bind, h, if_false, getStatus, bind_assoc, get_bind, pure_bind]
  cases env.progress w.polls with
  | completed | another | mistyped | inProgress => rfl
  | refused =>
      simp only [verdict, if_true]
      by_cases hfails : fails + 1 ≥ 3
      · simp only [hfails, if_true]
        rfl
      · simp only [hfails, if_false]
        rfl

theorem waiting_add (w : World) (j k : Nat) : waiting (waiting w j) k = waiting w (j + k) := by
  simp only [waiting, World.mk.injEq, true_and]
  omega

/-- By induction on the rounds that decide nothing. -/
theorem loop_undecided {k : Nat} (h : Undecided (replies env w) k) (hk : k ≤ maxPolls) (rounds : Nat) :
    loop .unfinished (waitRound env) (rounds + k) (0, 0) w =
      loop .unfinished (waitRound env) rounds (failures (replies env w) k, 50 * k) (waiting w k) := by
  induction k generalizing rounds with
  | zero => rfl
  | succ k ih =>
      obtain ⟨hbefore, hnone⟩ := undecided_succ.mp h
      rw [show rounds + (k + 1) = rounds + 1 + k by omega, ih hbefore (by omega)]
      have hintime : ¬ 50 * k > 1000 * 60 * 30 := by
        unfold maxPolls at hk
        omega
      have hround := waitRound_polls env (waiting w k) (failures (replies env w) k) hintime
      have hreply : env.progress (waiting w k).polls = replies env w k := rfl
      rw [hreply, hnone] at hround
      have hfollows : Follows (waitRound env) ((failures (replies env w) (k + 1), 50 * (k + 1)), waiting w (k + 1))
          ((failures (replies env w) k, 50 * k), waiting w k) := by
        rw [Follows, hround, waiting_add]
        rfl
      exact loop_of_follows hfollows rounds

theorem waitForDumpCreation_eq {rounds polls : Nat} {result : Except Exn Unit} (hrounds : maxPolls < rounds)
    (h : Outcome (replies env w) polls result) :
    polls ≤ maxPolls ∧ ∃ t, t.polls = w.polls + polls ∧ t.slept ≤ w.slept + 50 * (maxPolls + 1) ∧
      t.tmp = w.tmp ∧ t.sent = w.sent ∧ t.calls = w.calls ∧ t.looks = w.looks ∧
      waitForDumpCreation env rounds w = ending t result := by
  cases h with
  | decided k _ hk hundecided hverdict =>
      refine ⟨hk, waiting w (k + 1), rfl, ?_, rfl, rfl, rfl, rfl, ?_⟩
      · simp only [waiting]
        omega
      obtain ⟨rest, hrest⟩ : ∃ rest, rounds = rest + 1 + k := ⟨rounds - 1 - k, by omega⟩
      have hintime : ¬ 50 * k > 1000 * 60 * 30 := by
        unfold maxPolls at hk
        omega
      have hround := waitRound_polls env (waiting w k) (failures (replies env w) k) hintime
      have hreply : env.progress (waiting w k).polls = replies env w k := rfl
      rw [hreply, hverdict, waiting_add] at hround
      rw [waitForDumpCreation, hrest, loop_undecided hundecided (Nat.le_of_lt hk)]
      cases result with
      | ok a => exact bind_of_ok hround _
      | error e => exact bind_of_error hround _
  | timedOut hundecided =>
      refine ⟨le_rfl, { waiting w maxPolls with slept := (waiting w maxPolls).slept + 50 }, rfl, ?_, rfl, rfl, rfl,
        rfl, ?_⟩
      · simp only [waiting]
        omega
      obtain ⟨rest, hrest⟩ : ∃ rest, rounds = rest + 1 + maxPolls := ⟨rounds - 1 - maxPolls, by omega⟩
      rw [waitForDumpCreation, hrest, loop_undecided hundecided le_rfl]
      exact bind_of_error (waitRound_late _ (by decide)) _

/-- Whatever is replied, the waiting ends, after a bounded number of polls and within a bounded
time. It returns exactly if one of them finds the dump completed, and those before it find it
in progress but for two at most, which may fail. -/
theorem waiting_ends (env : Environment) (w : World) (rounds : Nat) (hrounds : maxPolls < rounds) :
    (∃ polls result, polls ≤ maxPolls ∧ Outcome (replies env w) polls result ∧
      ∃ t, t.polls = w.polls + polls ∧ t.slept ≤ w.slept + 50 * (maxPolls + 1) ∧
        waitForDumpCreation env rounds w = ending t result) ∧
    ((∃ t, waitForDumpCreation env rounds w = .ok () t) ↔ ∃ k < maxPolls, replies env w k = .completed ∧
      (∀ j < k, replies env w j = .inProgress ∨ replies env w j = .refused) ∧ failures (replies env w) k ≤ 2) := by
  obtain ⟨polls, result, houtcome⟩ := exists_outcome (replies env w)
  obtain ⟨hpolls, t, htpolls, hslept, -, -, -, -, hrun⟩ := waitForDumpCreation_eq hrounds houtcome
  refine ⟨⟨polls, result, hpolls, houtcome, t, htpolls, hslept, hrun⟩, ?_, ?_⟩
  · rintro ⟨u, hu⟩
    cases result with
    | ok a =>
        obtain ⟨k, hk, -, hreturned⟩ := outcome_ok.mp houtcome
        exact ⟨k, hk, hreturned⟩
    | error e => cases hrun.symm.trans hu
  · rintro ⟨k, hk, hreturned⟩
    obtain ⟨-, u, -, -, -, -, -, -, hu⟩ := waitForDumpCreation_eq hrounds (outcome_ok.mpr ⟨k, hk, rfl, hreturned⟩)
    exact ⟨u, hu⟩

end Rounds

section Third

def thirdTime : Environment where
  created _ := .entry (text "/xyz/openbmc_project/dump/bmc/entry/1")
  progress k := if k = 0 then .inProgress else if k = 1 then .refused else .completed
  look _ _ := .listed [(text "obmcdump_1_1.tar.xz", some ⟨7, 0⟩)]
  order names := names
  removed _ := true
  copied _ _ := none
  clock _ := 0
  written _ := true

def emptyWorld : World := ⟨∅, [], [], 0, 0, 0⟩

theorem third_poll_returns : ∃ t, waitForDumpCreation thirdTime 36002 emptyWorld = .ok () t := by
  refine (waiting_ends thirdTime emptyWorld 36002 (by decide)).2.mpr ⟨2, by decide, rfl, fun j hj => ?_, by decide⟩
  rcases Nat.lt_succ_iff_lt_or_eq.mp hj with hzero | rfl
  · obtain rfl : j = 0 := by omega
    exact .inl rfl
  · exact .inr rfl

end Third

end DumpCollector.CreateDump.Waiting
