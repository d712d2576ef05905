import DumpCollector.FaultLog.Manager
import DumpCollector.Fdr.Manager
import DumpCollector.Lib.Loops
import DumpCollector.Slots

namespace DumpCollector.Retention

open Std Lib.Effects Lib.Loops Lib.Maps Entries State Frames Slots
open System.Manager (SystemEntry SystemDaemon int32)
open Fdr.Manager (FdrEntry FdrDaemon)
open FaultLog.Manager (FaultLogEntry FaultLogDaemon)

variable {E X C : Type}

section Walks

/-- An iterator whose entry is erased is read or moved on, an empty pointer is dereferenced,
or the bound that is put on the rounds is reached. -/
inductive Fault
  | erasedIterator
  | nullPointer
  | unfinished

structure Walk (E X C : Type) where
  daemon : Daemon E X C
  deleted : List Nat

abbrev WalkM (E X C α : Type) := EStateM Fault (Walk E X C) α

/-- The end of the map is no key. -/
def begin (s : Daemon E X C) : Option Nat := s.entries.keys.head?

def second (d : Nat) : WalkM E X C (Option E) := do
  let w ← get
  match w.daemon.entries[d]? with
  | some entry => pure entry
  | none => throw .erasedIterator

def increment (d : Nat) : WalkM E X C (Option Nat) := do
  let w ← get
  if d ∈ w.daemon.entries then pure (w.daemon.entries.keys.find? fun key => d < key) else throw .erasedIterator

variable [DumpEntry E]

def deleteAt (d : Nat) (entry : Option E) : WalkM E X C Unit :=
  match entry with
  | some e => modify fun w => ⟨w.daemon.deleteEntry e, w.deleted ++ [d]⟩
  | none => throw .nullPointer

/-- The reference to the entry is taken before the iterator moves on, and the entry is deleted
after that. -/
def round : Option Nat × Int → WalkM E X C (Unit ⊕ Option Nat × Int)
  | (none, _) => pure (.inl ())
  | (some d, excessDumps) =>
      if excessDumps = 0 then pure (.inl ())
      else do
        let entry ← second d
        let next ← increment d
        deleteAt d entry
        pure (.inr (next, excessDumps - 1))

/-- The number of dumps is subtracted from without a sign, and the difference is an int. -/
def excess (totalDumps limit : Nat) : Int := int32 ((totalDumps : Int) - ((limit : Int) - 1))

def limitDumpEntries (limit rounds : Nat) : WalkM E X C Unit := do
  let w ← get
  let totalDumps := w.daemon.entries.size
  if limit = 0 ∨ totalDumps < limit then pure ()
  else loop .unfinished round rounds (begin w.daemon, excess totalDumps limit)

end Walks

section Managers

def systemLimitDumpEntries (cfg : System.Manager.Config) (rounds : Nat) :
    WalkM SystemEntry System.Manager.Own String Unit :=
  limitDumpEntries cfg.SYSTEM_DUMP_MAX_LIMIT rounds

def fdrLimitDumpEntries (cfg : Fdr.Manager.Config) (rounds : Nat) : WalkM FdrEntry Unit Unit Unit :=
  limitDumpEntries cfg.FDR_DUMP_MAX_LIMIT rounds

def faultLogLimitDumpEntries (cfg : FaultLog.Manager.Config) (rounds : Nat) :
    WalkM FaultLogEntry FaultLog.Manager.Own Unit Unit :=
  limitDumpEntries cfg.FAULTLOG_DUMP_MAX_LIMIT rounds

end Managers

/-- Below the limit nothing changes. From the limit on the walk ends, each of the oldest entries
beyond one less than the limit has been deleted once, and the others are as they were. -/
structure KeepsNewest (limit : Nat) (walk : Nat → WalkM E X C Unit) (s : Daemon E X C) : Prop where
  below : s.entries.size < limit → ∀ rounds, walk rounds ⟨s, []⟩ = .ok () ⟨s, []⟩
  above : limit ≤ s.entries.size → ∃ t deleted,
    (∀ rounds, s.entries.size < rounds → walk rounds ⟨s, []⟩ = .ok () ⟨t, deleted⟩) ∧
    deleted.Nodup ∧ deleted.length = s.entries.size - (limit - 1) ∧ (∀ k ∈ deleted, k ∈ s.entries) ∧
    (∀ k ∈ deleted, ∀ l ∈ t.entries, k < l) ∧
    ∀ k : Nat, t.entries[k]? = if k ∈ deleted then none else s.entries[k]?

section Rounds

variable {s : Daemon E X C} {k : Nat} {ks : List Nat}

theorem next_key (h : s.entries.keys = k :: ks) : (s.entries.keys.find? fun key => k < key) = ks.head? := by
  have hordered : s.entries.keys.Pairwise fun a b => compare a b = .lt := ExtTreeMap.ordered_keys
  rw [h] at hordered ⊢
  rw [List.find?_cons_of_neg (by simp)]
  cases ks with
  | nil => rfl
  | cons l ls =>
      have hlt : k < l := Nat.compare_eq_lt.mp (List.rel_of_pairwise_cons hordered List.mem_cons_self)
      rw [List.find?_cons_of_pos (by simpa using hlt), List.head?_cons]

variable [DumpEntry E]

theorem round_ok {e : E} (h : s.entries.keys = k :: ks) (he : s.entries[k]? = some (some e)) {excessDumps : Int}
    (hexcess : excessDumps ≠ 0) (deleted : List Nat) :
    round (some k, excessDumps) ⟨s, deleted⟩ =
      .ok (.inr (ks.head?, excessDumps - 1)) ⟨s.deleteEntry e, deleted ++ [k]⟩ := by
  have hmem : k ∈ s.entries := (mem_iff _ _).mpr ⟨_, he⟩
  have hsecond : second k ⟨s, deleted⟩ = .ok (some e) ⟨s, deleted⟩ := by
    simp only [second, get_bind, he, pure_apply]
  have hincrement : increment k ⟨s, deleted⟩ = .ok ks.head? ⟨s, deleted⟩ := by
    simp only [increment, get_bind, hmem, if_true, next_key h, pure_apply]
  rw [round, if_neg hexcess, bind_of_ok hsecond, bind_of_ok hincrement]
  rfl

theorem keys_deleteEntry {e : E} (hs : Keyed s) (h : s.entries.keys = k :: ks) (he : s.entries[k]? = some (some e)) :
    (s.deleteEntry e).entries.keys = ks := by
  rw [deleteEntry_entries, hs k e he, keys_erase_first h]

/-- By induction on the number of entries that are still to be deleted. The invariant is that
the iterator stands at the first entry of what is left of the map. -/
theorem loop_ok {excessDumps rounds : Nat} (hs : Keyed s) (hn : NonNull s)
    (hexcess : excessDumps ≤ s.entries.keys.length) (hrounds : excessDumps < rounds) (deleted : List Nat) :
    ∃ t, deleteEach (s.entries.keys.take excessDumps) s = .ok () t ∧
      loop .unfinished round rounds (begin s, (excessDumps : Int)) ⟨s, deleted⟩ =
        .ok () ⟨t, deleted ++ s.entries.keys.take excessDumps⟩ := by
  induction excessDumps generalizing s rounds deleted with
  | zero =>
      obtain ⟨rounds, rfl⟩ := Nat.exists_eq_add_of_lt hrounds
      refine ⟨s, rfl, ?_⟩
      have hround : round (begin s, ((0 : Nat) : Int)) ⟨s, deleted⟩ = .ok (.inl ()) ⟨s, deleted⟩ := by
        cases begin s <;> rfl
      rw [List.take_zero, List.append_nil, loop, bind_of_ok hround]
      rfl
  | succ excessDumps ih =>
      obtain ⟨rounds, rfl⟩ := Nat.exists_eq_add_of_lt hrounds
      obtain ⟨k, ks, h⟩ := List.exists_cons_of_ne_nil (List.ne_nil_of_length_pos (Nat.zero_lt_of_lt hexcess))
      obtain ⟨e, he⟩ := exists_of_mem_keys hn (h ▸ List.mem_cons_self : k ∈ s.entries.keys)
      have htrim := slotsFrom_trimmed (trimmed_deleteEntry s e)
      have hkeys := keys_deleteEntry hs h he
      have hlength : excessDumps ≤ (s.deleteEntry e).entries.keys.length := by
        rw [h, List.length_cons] at hexcess
        rw [hkeys]
        omega
      obtain ⟨t, heach, hloop⟩ := ih (htrim.keyed hs) (htrim.nonNull hn) hlength
        (by omega : excessDumps < excessDumps + 1 + rounds) (deleted ++ [k])
      rw [hkeys] at heach hloop
      have hround := round_ok h he (by omega : ((excessDumps + 1 : Nat) : Int) ≠ 0) deleted
      refine ⟨t, ?_, ?_⟩
      · rw [h, List.take_succ_cons, deleteEach, bind_of_ok (deleteAt_some he)]
        exact heach
      · have hbegin : begin s = some k := by rw [begin, h, List.head?_cons]
        have hcount : ((excessDumps + 1 : Nat) : Int) - 1 = (excessDumps : Int) := by omega
        rw [hcount] at hround
        rw [hbegin, h, List.take_succ_cons, List.append_cons]
        rw [begin, hkeys] at hloop
        exact (loop_of_follows (x := ((_, _), _)) (y := ((_, _), _)) hround _).trans hloop

end Rounds

section Limits

variable {s : Daemon E X C} {limit : Nat}

theorem excess_eq {totalDumps : Nat} (hlimit : 1 ≤ limit) (hle : limit ≤ totalDumps) (hlt : totalDumps < 2 ^ 31) :
    excess totalDumps limit = ((totalDumps - (limit - 1) : Nat) : Int) := by
  rw [excess, int32, Int.bmod_eq_of_le (by omega) (by omega)]
  omega

theorem lt_of_kept {k l m : Nat} (hk : k ∈ s.entries.keys.take m) (hl : l ∈ s.entries)
    (hkept : l ∉ s.entries.keys.take m) : k < l := by
  have hordered : s.entries.keys.Pairwise fun a b => compare a b = .lt := ExtTreeMap.ordered_keys
  have hmem : l ∈ s.entries.keys := ExtTreeMap.mem_keys.mpr hl
  rw [← List.take_append_drop m s.entries.keys] at hordered hmem
  have hdrop : l ∈ s.entries.keys.drop m := (List.mem_append.mp hmem).resolve_left hkept
  exact Nat.compare_eq_lt.mp ((List.pairwise_append.mp hordered).2.2 k hk l hdrop)

variable [DumpEntry E]

theorem limitDumpEntries_below_limit (h : limit = 0 ∨ s.entries.size < limit) (rounds : Nat) (deleted : List Nat) :
    limitDumpEntries limit rounds ⟨s, deleted⟩ = .ok () ⟨s, deleted⟩ := by
  simp only [limitDumpEntries, get_bind, h, if_true, pure_apply]

variable (limit) in
/-- The walk over the map does what the shared model of the retention does at once. -/
theorem limitDumpEntries_refines (hs : Keyed s) (hn : NonNull s) (hsize : s.entries.size < 2 ^ 31) {rounds : Nat}
    (hrounds : s.entries.size < rounds) :
    ∃ t, State.limitDumpEntries limit s = .ok () t ∧ limitDumpEntries limit rounds ⟨s, []⟩ = .ok () ⟨t,
      if limit = 0 ∨ s.entries.size < limit then [] else s.entries.keys.take (s.entries.size - (limit - 1))⟩ := by
  by_cases h : limit = 0 ∨ s.entries.size < limit
  · exact ⟨s, limitDumpEntries_below h, by rw [limitDumpEntries_below_limit h, if_pos h]⟩
  · have hlength : s.entries.keys.length = s.entries.size := ExtTreeMap.length_keys
    obtain ⟨t, heach, hloop⟩ := loop_ok hs hn (by omega : s.entries.size - (limit - 1) ≤ s.entries.keys.length)
      (by omega : s.entries.size - (limit - 1) < rounds) []
    refine ⟨t, (limitDumpEntries_above h).trans heach, ?_⟩
    simp only [limitDumpEntries, get_bind, h, if_false]
    rw [excess_eq (by omega) (by omega) hsize]
    exact hloop

theorem limitDumpEntries_keepsNewest (hlimit : 1 ≤ limit) (hs : Keyed s) (hn : NonNull s)
    (hsize : s.entries.size < 2 ^ 31) : KeepsNewest limit (limitDumpEntries limit) s := by
  refine ⟨fun h rounds => limitDumpEntries_below_limit (.inr h) rounds [], fun h => ?_⟩
  have hnot : ¬(limit = 0 ∨ s.entries.size < limit) := by omega
  have hlength : s.entries.keys.length = s.entries.size := ExtTreeMap.length_keys
  have hdeleted : (s.entries.keys.take (s.entries.size - (limit - 1))).Nodup :=
    ExtTreeMap.nodup_keys.sublist (List.take_sublist _ _)
  obtain ⟨t, heach, hget⟩ := deleteEach_ok hs hdeleted fun k hk => exists_of_mem_keys hn (List.mem_of_mem_take hk)
  refine ⟨t, _, fun rounds hrounds => ?_, hdeleted, ?_, fun k hk => ?_, fun k hk l hl => ?_, hget⟩
  · obtain ⟨u, hlimited, hwalk⟩ := limitDumpEntries_refines limit hs hn hsize hrounds
    rw [if_neg hnot] at hwalk
    rw [limitDumpEntries_above hnot, heach] at hlimited
    cases hlimited
    exact hwalk
  · rw [List.length_take, hlength]
    omega
  · exact ExtTreeMap.mem_keys.mp (List.mem_of_mem_take hk)
  · obtain ⟨v, hv⟩ := (mem_iff _ _).mp hl
    rw [hget] at hv
    split at hv
    · cases hv
    · rename_i hkept
      exact lt_of_kept hk ((mem_iff _ _).mpr ⟨v, hv⟩) hkept

end Limits

/-- The three managers that limit the number of their entries, for every map whose entries have
the ids that they are stored under. -/
theorem retention_keepsNewest :
    (∀ (cfg : System.Manager.Config) (s : SystemDaemon), 1 ≤ cfg.SYSTEM_DUMP_MAX_LIMIT → Keyed s → NonNull s →
      s.entries.size < 2 ^ 31 → KeepsNewest cfg.SYSTEM_DUMP_MAX_LIMIT (systemLimitDumpEntries cfg) s) ∧
    (∀ (cfg : Fdr.Manager.Config) (s : FdrDaemon), 1 ≤ cfg.FDR_DUMP_MAX_LIMIT → Keyed s → NonNull s →
      s.entries.size < 2 ^ 31 → KeepsNewest cfg.FDR_DUMP_MAX_LIMIT (fdrLimitDumpEntries cfg) s) ∧
    (∀ (cfg : FaultLog.Manager.Config) (s : FaultLogDaemon), 1 ≤ cfg.FAULTLOG_DUMP_MAX_LIMIT → Keyed s → NonNull s →
      s.entries.size < 2 ^ 31 → KeepsNewest cfg.FAULTLOG_DUMP_MAX_LIMIT (faultLogLimitDumpEntries cfg) s) :=
  ⟨fun _ _ => limitDumpEntries_keepsNewest, fun _ _ => limitDumpEntries_keepsNewest,
    fun _ _ => limitDumpEntries_keepsNewest⟩

section Examples

def ofTwo (own : X) (first other : E) : Daemon E X C :=
  { (bare own .root : Daemon E X C) with
    entries := ((∅ : ExtTreeMap Nat (Option E)).insert 3 (some first)).insert 5 (some other) }

theorem ofTwo_get {own : X} {first other : E} {k : Nat} {v : Option E}
    (h : (ofTwo own first other : Daemon E X C).entries[k]? = some v) :
    k = 5 ∧ v = some other ∨ k = 3 ∧ v = some first := by
  rw [ofTwo, insert_get, insert_get, ExtTreeMap.getElem?_empty] at h
  split at h
  · rename_i hk
    exact .inl ⟨hk.symm, (Option.some.inj h).symm⟩
  · split at h
    · rename_i hk
      exact .inr ⟨hk.symm, (Option.some.inj h).symm⟩
    · cases h

theorem nonNull_ofTwo (own : X) (first other : E) : NonNull (ofTwo own first other : Daemon E X C) := by
  intro k h
  rcases ofTwo_get h with ⟨-, hv⟩ | ⟨-, hv⟩ <;> cases hv

theorem keyed_ofTwo [DumpEntry E] (own : X) {first other : E} (hfirst : (DumpEntry.base first).id = 3)
    (hother : (DumpEntry.base other).id = 5) : Keyed (ofTwo own first other : Daemon E X C) := by
  intro k e h
  rcases ofTwo_get h with ⟨rfl, hv⟩ | ⟨rfl, hv⟩
  · cases hv
    exact hother
  · cases hv
    exact hfirst

theorem size_ofTwo (own : X) (first other : E) : (ofTwo own first other : Daemon E X C).entries.size = 2 := by
  have habsent : 3 ∉ (∅ : ExtTreeMap Nat (Option E)) := ExtTreeMap.not_mem_empty
  have hnew : 5 ∉ (∅ : ExtTreeMap Nat (Option E)).insert 3 (some first) := by
    rw [not_mem_iff, insert_get, if_neg (by decide), ExtTreeMap.getElem?_empty]
  rw [ofTwo, size_insert_of_absent hnew, size_insert_of_absent habsent, ExtTreeMap.size_empty]

def fdrExample : FdrDaemon :=
  ofTwo () (Fdr.Manager.create 3 1000 0 none .InProgress "" 0) (Fdr.Manager.create 5 2000 0 none .InProgress "" 0)

def systemExample : SystemDaemon :=
  ofTwo ⟨∅, ⟨false, false⟩⟩ (System.Manager.create 3 1000 0 none .InProgress "" 0 0)
    (System.Manager.create 5 2000 0 none .InProgress "" 0 0)

def faultLogExample : FaultLogDaemon :=
  ofTwo ⟨0⟩ (FaultLog.Manager.create 3 1000 1 "CPER" "1" 0 none .InProgress FaultLog.Manager.notDecoded "" 0)
    (FaultLog.Manager.create 5 2000 1 "CPER" "2" 0 none .InProgress FaultLog.Manager.notDecoded "" 0)

def systemLimit : System.Manager.Config := { System.Manager.defaultConfig with SYSTEM_DUMP_MAX_LIMIT := 2 }

def fdrLimit : Fdr.Manager.Config := { Fdr.Manager.defaultConfig with FDR_DUMP_MAX_LIMIT := 2 }

def faultLogLimit : FaultLog.Manager.Config := { FaultLog.Manager.defaultConfig with FAULTLOG_DUMP_MAX_LIMIT := 2 }

/-- Of two entries the older one makes room, and the other one stays. -/
theorem retention_example :
    KeepsNewest 2 (systemLimitDumpEntries systemLimit) systemExample ∧
    KeepsNewest 2 (fdrLimitDumpEntries fdrLimit) fdrExample ∧
    KeepsNewest 2 (faultLogLimitDumpEntries faultLogLimit) faultLogExample := by
  refine ⟨?_, ?_, ?_⟩
  · apply retention_keepsNewest.1 systemLimit systemExample (by decide) (keyed_ofTwo _ rfl rfl)
      (nonNull_ofTwo _ _ _)
    rw [systemExample, size_ofTwo]
    decide
  · apply retention_keepsNewest.2.1 fdrLimit fdrExample (by decide) (keyed_ofTwo _ rfl rfl)
      (nonNull_ofTwo _ _ _)
    rw [fdrExample, size_ofTwo]
    decide
  · apply retention_keepsNewest.2.2 faultLogLimit faultLogExample (by decide)
      (keyed_ofTwo _ rfl rfl) (nonNull_ofTwo _ _ _)
    rw [faultLogExample, size_ofTwo]
    decide

end Examples

end DumpCollector.Retention
