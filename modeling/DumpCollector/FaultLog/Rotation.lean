import DumpCollector.FaultLog.Manager
import DumpCollector.Rotation

namespace DumpCollector.FaultLog.Rotation

open Std Lib.Directory Lib.Effects Lib.Maps Entries Requests State Slots FaultLog.Manager DumpCollector.Rotation

def occupied (disk : FileTree Content) : Nat :=
  (disk.nodes.toList.map fun
    | (_, .file content) => content.size
    | (_, .dir) => 0).sum

variable (cfg : Config)

def left (size : Nat) : Nat := min (cfg.FAULTLOG_DUMP_TOTAL_SIZE - size / 1024) cfg.FAULTLOG_DUMP_MAX_SIZE

def available (disk : FileTree Content) : Nat := left cfg (occupied disk)

def summed (disk : FileTree Content) : Nat := occupied disk % (cfg.plat.ulongMax + 1)

def Computed (failed : Bool) (disk : FileTree Content) : Prop := failed = false ∧ disk.isDirectory [] = true

def Suffices (s : FaultLogDaemon) (m : Nat) : Prop :=
  cfg.FAULTLOG_DUMP_MIN_SPACE_REQD ≤ available cfg (oldestRemoved s m).disk

instance (s : FaultLogDaemon) (m : Nat) : Decidable (Suffices cfg s m) := inferInstanceAs (Decidable (_ ≤ _))

def measured (failed : Nat → Bool) (s : FaultLogDaemon) (m : Nat) : Nat :=
  allowedSize cfg (oldestRemoved s m).disk (failed m)

def QuotaExceeded : Exn := .quotaExceeded "Not enough space: Delete old dumps"

/-- Either the shortest prefix that suffices is deleted, and nothing else, or there is none
and the exception says so. -/
def RotatesExactly (failed : Nat → Bool) (s : FaultLogDaemon) : Prop :=
  match limitTotalDumpSize cfg failed s with
  | .ok _ t => ∃ m, First (Suffices cfg s) s.entries.size m ∧ t = oldestRemoved s m
  | .error e _ => e = QuotaExceeded ∧ ∀ m ≤ s.entries.size, ¬ Suffices cfg s m

/-- The files are more than a size_t can count, and what is left of their size is small. -/
def Overflows (disk : FileTree Content) : Prop :=
  cfg.plat.ulongMax < occupied disk ∧ cfg.FAULTLOG_DUMP_MIN_SPACE_REQD ≤ left cfg (summed cfg disk)

def Misled (failed : Nat → Bool) (s : FaultLogDaemon) (m : Nat) : Prop :=
  Computed (failed m) (oldestRemoved s m).disk ∧ Overflows cfg (oldestRemoved s m).disk

/-- After the shortest prefix the computation does not fail, nor, when that is all there is,
the computation after it; where no prefix suffices, the last computation gives zero. No sum
that wraps around ends the deletions before. -/
def MeasuredWhenNeeded (failed : Nat → Bool) (s : FaultLogDaemon) : Prop :=
  cfg.FAULTLOG_DUMP_MIN_SPACE_REQD = 0 ∨
  (∃ m, First (Suffices cfg s) s.entries.size m ∧ Filled s m ∧ (∀ j < m, ¬ Misled cfg failed s j) ∧
    ((m < s.entries.size ∨ m = 0) ∧ Computed (failed m) (oldestRemoved s m).disk ∨
      m = s.entries.size ∧ Computed (failed (m + 1)) (oldestRemoved s m).disk)) ∨
  ((∀ m ≤ s.entries.size, ¬ Suffices cfg s m) ∧ Filled s s.entries.size ∧
    (∀ j, j < s.entries.size ∨ j = 0 → ¬ Misled cfg failed s j) ∧
    (Computed (failed (s.entries.size + 1)) (oldestRemoved s s.entries.size).disk →
      left cfg (summed cfg (oldestRemoved s s.entries.size).disk) = 0))

section Computation

variable {cfg} {disk : FileTree Content} {failed : Bool}

theorem left_mono {m n : Nat} (h : m ≤ n) : left cfg n ≤ left cfg m := by
  have hdiv := Nat.div_le_div_right (c := 1024) h
  rw [left, left]
  omega

variable (cfg) in
theorem available_le_summed (disk : FileTree Content) : available cfg disk ≤ left cfg (summed cfg disk) :=
  left_mono (Nat.mod_le _ _)

theorem allowedSize_of_computed (h : Computed failed disk) :
    allowedSize cfg disk failed = left cfg (summed cfg disk) := by
  obtain ⟨hfailed, hroot⟩ := h
  simp only [allowedSize, calculate_directory_size, hfailed, hroot, Bool.false_eq_true, Bool.true_eq_false, or_self,
    if_false]
  rfl

theorem allowedSize_of_not_computed (h : ¬ Computed failed disk) : allowedSize cfg disk failed = 0 := by
  have hfails : failed = true ∨ disk.isDirectory [] = false := by
    by_contra hnone
    push Not at hnone
    exact h ⟨Bool.eq_false_iff.mpr hnone.1, Bool.not_eq_false _ ▸ hnone.2⟩
  simp only [allowedSize, calculate_directory_size, hfails, if_true]

theorem enough_allowedSize_iff (hpos : 0 < cfg.FAULTLOG_DUMP_MIN_SPACE_REQD) :
    cfg.FAULTLOG_DUMP_MIN_SPACE_REQD ≤ allowedSize cfg disk failed ↔
      Computed failed disk ∧ (cfg.FAULTLOG_DUMP_MIN_SPACE_REQD ≤ available cfg disk ∨ Overflows cfg disk) := by
  by_cases h : Computed failed disk
  · have hle := available_le_summed cfg disk
    rw [allowedSize_of_computed h, and_iff_right h]
    constructor
    · intro henough
      by_cases hfits : occupied disk < cfg.plat.ulongMax + 1
      · rw [summed, Nat.mod_eq_of_lt hfits] at henough
        exact .inl henough
      · exact .inr ⟨by omega, henough⟩
    · rintro (hreal | ⟨-, henough⟩)
      · exact hreal.trans hle
      · exact henough
  · rw [allowedSize_of_not_computed h]
    exact iff_of_false (by omega) fun hcomputed => h hcomputed.1

theorem computed_of_pos (h : 0 < allowedSize cfg disk failed) : Computed failed disk := by
  by_contra hnot
  rw [allowedSize_of_not_computed hnot] at h
  exact Nat.lt_irrefl 0 h

end Computation

section Loop

variable {cfg} {failed : Nat → Bool} {s : FaultLogDaemon} {m : Nat}

theorem rotate_next (hs : Keyed s) (hm : m < s.entries.keys.length) (hfull : ¬ Hollow s m) (calls : Nat) :
    rotate cfg failed (s.entries.keys.drop m) calls (oldestRemoved s m) =
      if cfg.FAULTLOG_DUMP_MIN_SPACE_REQD ≤ allowedSize cfg (oldestRemoved s (m + 1)).disk (failed calls) then
        .ok (calls + 1) (oldestRemoved s (m + 1))
      else rotate cfg failed (s.entries.keys.drop (m + 1)) (calls + 1) (oldestRemoved s (m + 1)) := by
  rw [List.drop_eq_getElem_cons hm, rotate, bind_of_ok (deleteAt_oldest hs hm hfull)]
  change (if _ then (pure (calls + 1) : FaultLogOp Nat) else _) (oldestRemoved s (m + 1)) = _
  split <;> rfl

/-- The loop comes to the entry after the first ones, if no size up to there is enough. -/
theorem rotate_skip (hs : Keyed s) (hm : m ≤ s.entries.keys.length) (hfull : Filled s m)
    (hless : ∀ j, j ≤ m → measured cfg failed s j < cfg.FAULTLOG_DUMP_MIN_SPACE_REQD) :
    rotate cfg failed s.entries.keys 1 s = rotate cfg failed (s.entries.keys.drop m) (m + 1) (oldestRemoved s m) := by
  induction m with
  | zero => rfl
  | succ m ih =>
      have hlast := hless (m + 1) le_rfl
      rw [ih (by omega) (fun j hj => hfull j (by omega)) fun j hj => hless j (by omega)]
      exact (rotate_next hs (by omega) (hfull m (by omega)) _).trans (if_neg (Nat.not_le.mpr hlast))

theorem rotate_stops (hs : Keyed s) (hm : m + 1 ≤ s.entries.keys.length) (hfull : Filled s (m + 1))
    (hless : ∀ j, j ≤ m → measured cfg failed s j < cfg.FAULTLOG_DUMP_MIN_SPACE_REQD)
    (hend : m + 1 = s.entries.keys.length ∨ cfg.FAULTLOG_DUMP_MIN_SPACE_REQD ≤ measured cfg failed s (m + 1)) :
    rotate cfg failed s.entries.keys 1 s = .ok (m + 2) (oldestRemoved s (m + 1)) := by
  rw [rotate_skip hs (by omega) (fun j hj => hfull j (by omega)) hless, rotate_next hs (by omega) (hfull m (by omega))]
  split
  · rfl
  · rename_i hnot
    rcases hend with hend | henough
    · rw [List.drop_eq_nil_of_le (by omega), rotate, pure_apply]
    · exact absurd henough hnot

theorem rotate_crashes (hs : Keyed s) (hm : m < s.entries.keys.length) (hfull : Filled s m) (hhollow : Hollow s m)
    (hless : ∀ j, j ≤ m → measured cfg failed s j < cfg.FAULTLOG_DUMP_MIN_SPACE_REQD) :
    rotate cfg failed s.entries.keys 1 s = .error .nullDereference (oldestRemoved s m) := by
  rw [rotate_skip hs hm.le hfull hless, List.drop_eq_getElem_cons hm, rotate,
    bind_of_error (deleteAt_hollow hs hm hhollow)]

def lastCheck (cfg : Config) (failed : Bool) : FaultLogOp Unit := do
  let s ← get
  throwIf (s.entries.isEmpty && allowedSize cfg s.disk failed = 0) QuotaExceeded

theorem limit_enough (henough : cfg.FAULTLOG_DUMP_MIN_SPACE_REQD ≤ measured cfg failed s 0) :
    limitTotalDumpSize cfg failed s = .ok () s := by
  have h : cfg.FAULTLOG_DUMP_MIN_SPACE_REQD ≤ allowedSize cfg s.disk (failed 0) := henough
  simp only [limitTotalDumpSize, get_bind, h, if_true, pure_apply]

theorem limit_rotates (hrotation : cfg.FAULTLOG_DUMP_ROTATION = true)
    (hless : measured cfg failed s 0 < cfg.FAULTLOG_DUMP_MIN_SPACE_REQD) :
    limitTotalDumpSize cfg failed s =
      (rotate cfg failed s.entries.keys 1 >>= fun calls => lastCheck cfg (failed calls)) s := by
  have h : ¬ cfg.FAULTLOG_DUMP_MIN_SPACE_REQD ≤ allowedSize cfg s.disk (failed 0) := Nat.not_le.mpr hless
  simp only [limitTotalDumpSize, get_bind, h, hrotation, if_false, if_true]
  rfl

/-- Where the loop can end: at an empty slot, at the first size that is enough, or with
the last entry. -/
theorem limit_cases (hrotation : cfg.FAULTLOG_DUMP_ROTATION = true) (hs : Keyed s)
    (hless : measured cfg failed s 0 < cfg.FAULTLOG_DUMP_MIN_SPACE_REQD) :
    ∃ m ≤ s.entries.size, (∀ j < m, measured cfg failed s j < cfg.FAULTLOG_DUMP_MIN_SPACE_REQD) ∧ Filled s m ∧
      (Hollow s m ∧ measured cfg failed s m < cfg.FAULTLOG_DUMP_MIN_SPACE_REQD ∧
          limitTotalDumpSize cfg failed s = .error .nullDereference (oldestRemoved s m) ∨
        (m = s.entries.size ∨ cfg.FAULTLOG_DUMP_MIN_SPACE_REQD ≤ measured cfg failed s m) ∧
          limitTotalDumpSize cfg failed s = lastCheck cfg (failed (m + 1)) (oldestRemoved s m)) := by
  have hlength : s.entries.keys.length = s.entries.size := ExtTreeMap.length_keys
  rw [limit_rotates hrotation hless]
  rcases first_or_none (fun m => Hollow s m ∨ m = s.entries.size ∨
    cfg.FAULTLOG_DUMP_MIN_SPACE_REQD ≤ measured cfg failed s m) s.entries.size with ⟨m, hm, hend, hbefore⟩ | hnone
  · have hfull : Filled s m := fun j hj hhollow => hbefore j hj (.inl hhollow)
    have hsmall : ∀ j < m, measured cfg failed s j < cfg.FAULTLOG_DUMP_MIN_SPACE_REQD := fun j hj =>
      Nat.not_le.mp fun henough => hbefore j hj (.inr (.inr henough))
    refine ⟨m, hm, hsmall, hfull, ?_⟩
    by_cases hstop : m = s.entries.size ∨ cfg.FAULTLOG_DUMP_MIN_SPACE_REQD ≤ measured cfg failed s m
    · refine .inr ⟨hstop, ?_⟩
      cases m with
      | zero =>
          have hempty : s.entries.keys = [] := by
            rcases hstop with hzero | henough
            · exact List.eq_nil_of_length_eq_zero (by omega)
            · omega
          rw [hempty]
          rfl
      | succ m =>
          refine bind_of_ok (rotate_stops hs (by omega) hfull (fun j hj => hsmall j (by omega)) ?_) _
          rwa [hlength]
    · push Not at hstop
      obtain ⟨hne, hlast⟩ := hstop
      have hhollow : Hollow s m := by
        rcases hend with hhollow | hm | henough
        · exact hhollow
        · exact absurd hm hne
        · omega
      refine .inl ⟨hhollow, hlast, bind_of_error (rotate_crashes hs (by omega) hfull hhollow fun j hj => ?_) _⟩
      rcases hj.lt_or_eq with hj | rfl
      · exact hsmall j hj
      · exact hlast
  · exact absurd (.inr (.inl rfl)) (hnone s.entries.size le_rfl)

variable (cfg) in
theorem lastCheck_cases (hs : Keyed s) (m : Nat) (hm : m ≤ s.entries.size) (f : Bool) :
    (m = s.entries.size ∧ allowedSize cfg (oldestRemoved s m).disk f = 0 ∧
      lastCheck cfg f (oldestRemoved s m) = .error QuotaExceeded (oldestRemoved s m)) ∨
    (¬ (m = s.entries.size ∧ allowedSize cfg (oldestRemoved s m).disk f = 0) ∧
      lastCheck cfg f (oldestRemoved s m) = .ok () (oldestRemoved s m)) := by
  have hempty := isEmpty_oldestRemoved hs m
  by_cases h : m = s.entries.size ∧ allowedSize cfg (oldestRemoved s m).disk f = 0
  · have hnone := hempty.mpr h.1.ge
    exact .inl ⟨h.1, h.2, by simp [lastCheck, throwIf, hnone, h.2]⟩
  · refine .inr ⟨h, ?_⟩
    have hnot : ¬ ((oldestRemoved s m).entries.isEmpty = true ∧
        allowedSize cfg (oldestRemoved s m).disk f = 0) := by
      rintro ⟨he, hzero⟩
      exact h ⟨Nat.le_antisymm hm (hempty.mp he), hzero⟩
    simp only [lastCheck, get_bind, throwIf, Bool.and_eq_true, decide_eq_true_eq, hnot, if_false, pure_apply]

end Loop

section Exact

variable {cfg} {failed : Nat → Bool} {s : FaultLogDaemon} {m : Nat}

theorem measured_enough_iff (hpos : 0 < cfg.FAULTLOG_DUMP_MIN_SPACE_REQD) :
    cfg.FAULTLOG_DUMP_MIN_SPACE_REQD ≤ measured cfg failed s m ↔
      Suffices cfg s m ∧ Computed (failed m) (oldestRemoved s m).disk ∨ Misled cfg failed s m := by
  rw [measured, enough_allowedSize_iff hpos, Misled, and_or_left, and_comm]
  rfl

theorem suffices_of_measured (hpos : 0 < cfg.FAULTLOG_DUMP_MIN_SPACE_REQD)
    (h : cfg.FAULTLOG_DUMP_MIN_SPACE_REQD ≤ measured cfg failed s m) (hright : ¬ Misled cfg failed s m) :
    Suffices cfg s m ∧ Computed (failed m) (oldestRemoved s m).disk :=
  ((measured_enough_iff hpos).mp h).resolve_right hright

theorem not_misled_of_less (hpos : 0 < cfg.FAULTLOG_DUMP_MIN_SPACE_REQD)
    (h : measured cfg failed s m < cfg.FAULTLOG_DUMP_MIN_SPACE_REQD) : ¬ Misled cfg failed s m := fun hmisled =>
  absurd ((measured_enough_iff hpos).mpr (.inr hmisled)) (Nat.not_le.mpr h)

theorem stops_first {m' : Nat} (hpos : 0 < cfg.FAULTLOG_DUMP_MIN_SPACE_REQD)
    (hbefore : ∀ j < m, measured cfg failed s j < cfg.FAULTLOG_DUMP_MIN_SPACE_REQD)
    (hstop : m = s.entries.size ∨ cfg.FAULTLOG_DUMP_MIN_SPACE_REQD ≤ measured cfg failed s m)
    (hfirst : First (Suffices cfg s) s.entries.size m') (hright : ∀ j < m', ¬ Misled cfg failed s j)
    (h : m' = s.entries.size ∨ Computed (failed m') (oldestRemoved s m').disk) (hm : m ≤ s.entries.size) : m = m' := by
  obtain ⟨hle, hsuff, hmin⟩ := hfirst
  have hge : m ≤ m' := by
    rcases h with h | h
    · exact h ▸ hm
    · by_contra hlt
      have henough := (measured_enough_iff hpos).mpr (.inl ⟨hsuff, h⟩)
      exact absurd henough (Nat.not_le.mpr (hbefore m' (Nat.not_le.mp hlt)))
  rcases hge.lt_or_eq with hlt | heq
  · rcases hstop with hstop | hstop
    · omega
    · exact absurd (suffices_of_measured hpos hstop (hright m hlt)).1 (hmin m hlt)
  · exact heq

theorem oldestRemoved_injective (hs : Keyed s) {m' : Nat} (hm : m ≤ s.entries.size) (hm' : m' ≤ s.entries.size)
    (h : oldestRemoved s m = oldestRemoved s m') : m = m' := by
  have hkeys : s.entries.keys.drop m = s.entries.keys.drop m' := by
    rw [← oldestRemoved_keys hs, ← oldestRemoved_keys hs, h]
  have hlength := congrArg List.length hkeys
  rw [List.length_drop, List.length_drop, ExtTreeMap.length_keys] at hlength
  omega

theorem stopped_iff (hpos : 0 < cfg.FAULTLOG_DUMP_MIN_SPACE_REQD) (hfull : Filled s m) (hm : m ≤ s.entries.size)
    (hbefore : ∀ j < m, measured cfg failed s j < cfg.FAULTLOG_DUMP_MIN_SPACE_REQD)
    (hstop : m = s.entries.size ∨ cfg.FAULTLOG_DUMP_MIN_SPACE_REQD ≤ measured cfg failed s m)
    (hpass : ¬ (m = s.entries.size ∧ allowedSize cfg (oldestRemoved s m).disk (failed (m + 1)) = 0)) :
    First (Suffices cfg s) s.entries.size m ↔ MeasuredWhenNeeded cfg failed s := by
  constructor
  · intro hfirst
    refine .inr (.inl ⟨m, hfirst, hfull, fun j hj => not_misled_of_less hpos (hbefore j hj), ?_⟩)
    by_cases hlast : m = s.entries.size
    · refine .inr ⟨hlast, computed_of_pos (Nat.pos_of_ne_zero fun hzero => hpass ⟨hlast, hzero⟩)⟩
    · have henough : _ ≤ allowedSize cfg (oldestRemoved s m).disk (failed m) := hstop.resolve_left hlast
      exact .inl ⟨.inl (by omega), computed_of_pos (hpos.trans_le henough)⟩
  · rintro (hzero | ⟨m', hfirst, -, hright, h⟩ | ⟨hnone, -, hright, hzero⟩)
    · omega
    · rwa [stops_first hpos hbefore hstop hfirst hright (h.symm.imp And.left And.right) hm]
    · rcases hm.lt_or_eq with hlt | rfl
      · have hsuff := suffices_of_measured hpos (hstop.resolve_left hlt.ne) (hright m (.inl hlt))
        exact absurd hsuff.1 (hnone m hm)
      · by_cases hcomputed : Computed (failed (s.entries.size + 1)) (oldestRemoved s s.entries.size).disk
        · exact absurd ⟨rfl, (allowedSize_of_computed hcomputed).trans (hzero hcomputed)⟩ hpass
        · exact absurd ⟨rfl, allowedSize_of_not_computed hcomputed⟩ hpass

theorem exhausted_iff (hpos : 0 < cfg.FAULTLOG_DUMP_MIN_SPACE_REQD) (hfull : Filled s s.entries.size)
    (hbefore : ∀ j < s.entries.size, measured cfg failed s j < cfg.FAULTLOG_DUMP_MIN_SPACE_REQD)
    (hless : measured cfg failed s 0 < cfg.FAULTLOG_DUMP_MIN_SPACE_REQD)
    (hzero : allowedSize cfg (oldestRemoved s s.entries.size).disk (failed (s.entries.size + 1)) = 0) :
    (∀ m ≤ s.entries.size, ¬ Suffices cfg s m) ↔ MeasuredWhenNeeded cfg failed s := by
  constructor
  · intro hnone
    refine .inr (.inr ⟨hnone, hfull, fun j hj => not_misled_of_less hpos ?_, fun hcomputed => ?_⟩)
    · rcases hj with hj | rfl
      · exact hbefore j hj
      · exact hless
    · rwa [allowedSize_of_computed hcomputed] at hzero
  · rintro (hmin | ⟨m', hfirst, -, hright, h⟩ | ⟨hnone, -, -⟩)
    · omega
    · exfalso
      have hlast := stops_first hpos hbefore (.inl rfl) hfirst hright (h.symm.imp And.left And.right) le_rfl
      subst hlast
      rcases h with ⟨hlt | hempty, hcomputed⟩ | ⟨-, hcomputed⟩
      · exact Nat.lt_irrefl _ hlt
      · have henough := (measured_enough_iff hpos).mpr (.inl ⟨hfirst.2.1, hcomputed⟩)
        rw [hempty] at henough
        omega
      · have hsuff : cfg.FAULTLOG_DUMP_MIN_SPACE_REQD ≤ available cfg (oldestRemoved s s.entries.size).disk :=
          hfirst.2.1
        have hle := available_le_summed cfg (oldestRemoved s s.entries.size).disk
        rw [allowedSize_of_computed hcomputed] at hzero
        omega
    · exact hnone

theorem crashed_not_measured (hpos : 0 < cfg.FAULTLOG_DUMP_MIN_SPACE_REQD)
    (hhollow : Hollow s m) (hbefore : ∀ j ≤ m, measured cfg failed s j < cfg.FAULTLOG_DUMP_MIN_SPACE_REQD) :
    ¬ MeasuredWhenNeeded cfg failed s := by
  obtain ⟨hlt, -⟩ := id hhollow
  rw [ExtTreeMap.length_keys] at hlt
  rintro (hzero | ⟨m', hfirst, hfull, -, h⟩ | ⟨-, hfull, -⟩)
  · omega
  · have hle : m' ≤ m := Nat.not_lt.mp fun hlt => hfull m hlt hhollow
    rcases h with ⟨-, hcomputed⟩ | ⟨hlast, -⟩
    · have henough := (measured_enough_iff hpos).mpr (.inl ⟨hfirst.2.1, hcomputed⟩)
      exact absurd henough (Nat.not_le.mpr (hbefore m' hle))
    · omega
  · exact hfull m hlt hhollow

theorem unrotated_iff (henough : cfg.FAULTLOG_DUMP_MIN_SPACE_REQD ≤ measured cfg failed s 0) :
    First (Suffices cfg s) s.entries.size 0 ↔ MeasuredWhenNeeded cfg failed s := by
  rcases Nat.eq_zero_or_pos cfg.FAULTLOG_DUMP_MIN_SPACE_REQD with hzero | hpos
  · refine iff_of_true ⟨Nat.zero_le _, ?_, nofun⟩ (.inl hzero)
    rw [Suffices, hzero]
    exact Nat.zero_le _
  constructor
  · intro hfirst
    exact .inr (.inl ⟨0, hfirst, nofun, nofun, .inl ⟨.inr rfl, computed_of_pos (hpos.trans_le henough)⟩⟩)
  · rintro (hzero | ⟨m, hfirst, -, hright, -⟩ | ⟨hnone, -, hright, -⟩)
    · omega
    · rcases Nat.eq_zero_or_pos m with rfl | hm
      · exact hfirst
      · exact absurd (suffices_of_measured hpos henough (hright 0 hm)).1 (hfirst.2.2 0 hm)
    · exact absurd (suffices_of_measured hpos henough (hright 0 (.inr rfl))).1 (hnone 0 (Nat.zero_le _))

theorem rotatesExactly_iff (hrotation : cfg.FAULTLOG_DUMP_ROTATION = true) (hs : Keyed s) :
    RotatesExactly cfg failed s ↔ MeasuredWhenNeeded cfg failed s := by
  by_cases henough : cfg.FAULTLOG_DUMP_MIN_SPACE_REQD ≤ measured cfg failed s 0
  · rw [RotatesExactly, limit_enough henough, ← unrotated_iff henough]
    constructor
    · rintro ⟨m, hfirst, heq⟩
      have hm : 0 = m := oldestRemoved_injective hs (Nat.zero_le _) hfirst.1 heq
      rwa [hm]
    · exact fun hfirst => ⟨0, hfirst, rfl⟩
  · have hless := Nat.not_le.mp henough
    have hpos := Nat.zero_lt_of_lt hless
    obtain ⟨m, hm, hbefore, hfull, ⟨hhollow, hlast, hrun⟩ | ⟨hstop, hrun⟩⟩ :=
      limit_cases hrotation hs hless
    · refine iff_of_false ?_ (crashed_not_measured hpos hhollow fun j hj => ?_)
      · rw [RotatesExactly, hrun]
        exact fun h => nomatch h.1
      · rcases hj.lt_or_eq with hj | rfl
        · exact hbefore j hj
        · exact hlast
    · rcases lastCheck_cases cfg hs m hm (failed (m + 1)) with ⟨rfl, hzero, hcheck⟩ | ⟨hpass, hcheck⟩
      · rw [RotatesExactly, hrun, hcheck, ← exhausted_iff hpos hfull hbefore hless hzero]
        exact and_iff_right rfl
      · rw [RotatesExactly, hrun, hcheck, ← stopped_iff hpos hfull hm hbefore hstop hpass]
        constructor
        · rintro ⟨m', hfirst, heq⟩
          rwa [oldestRemoved_injective hs hm hfirst.1 heq]
        · exact fun hfirst => ⟨m, hfirst, rfl⟩

end Exact

private def rotating : Config := { defaultConfig with FAULTLOG_DUMP_ROTATION := true }

private def dump (id : Nat) (file : Path) : FaultLogEntry :=
  create id 1 1 "CPER" "0" 716800 (some file) .Completed notDecoded "" 0

private def twoDumps : FaultLogDaemon :=
  { (bare ⟨0⟩ (((FileTree.root.mkdir [] "1").write ["1"] "obmcdump_1_1.log" ⟨716800, none⟩).write [] "core"
      ⟨307200, none⟩) : FaultLogDaemon) with
    entries := ((∅ : ExtTreeMap Nat (Option FaultLogEntry)).insert 1 (some (dump 1 ["1", "obmcdump_1_1.log"]))).insert 2
      (some (dump 2 ["2", "obmcdump_2_1.log"])) }

private theorem twoDumps_get (k : Nat) : twoDumps.entries[k]? =
    if 2 = k then some (some (dump 2 ["2", "obmcdump_2_1.log"]))
    else if 1 = k then some (some (dump 1 ["1", "obmcdump_1_1.log"])) else none := by
  refine (insert_get _ _ _ _).trans (if_congr Iff.rfl rfl ((insert_get _ _ _ _).trans ?_))
  exact if_congr Iff.rfl rfl ExtTreeMap.getElem?_empty

private theorem keyed_twoDumps : Keyed twoDumps := by
  intro k e he
  rw [twoDumps_get] at he
  split at he
  · cases he
    assumption
  · split at he
    · cases he
      assumption
    · cases he

private theorem nonNull_twoDumps : NonNull twoDumps := by
  intro k
  rw [twoDumps_get]
  split
  · simp
  · split <;> simp

theorem oldest_dump_makes_room : RotatesExactly rotating (fun _ => false) twoDumps := by
  have hfirst : First (Suffices rotating twoDumps) twoDumps.entries.size 1 := by decide +kernel
  refine (rotatesExactly_iff rfl keyed_twoDumps).mpr (.inr (.inl ⟨1, hfirst, filled_of_nonNull nonNull_twoDumps 1,
    fun j hj hmisled => ?_, .inl ⟨.inl (by decide +kernel), rfl, by decide +kernel⟩⟩))
  obtain rfl : j = 0 := Nat.lt_one_iff.mp hj
  exact absurd hmisled.2.1 (by decide +kernel)

private def crowded : FileTree Content := FileTree.root.write [] "core" ⟨1017856, none⟩

theorem crowded_directory_returns : ∃ s, Started rotating s ∧
    limitTotalDumpSize rotating (fun _ => false) s = .ok () s ∧ s.entries.isEmpty = true ∧
    allowedSize rotating s.disk false = 30 ∧ ¬ RotatesExactly rotating (fun _ => false) s := by
  have hstart : Started rotating (bare ⟨0⟩ crowded) :=
    ⟨crowded, ⟨FileTree.children crowded, fun _ => ⟨true, .done, none, 0⟩⟩, (), by decide +kernel, fun _ => .rfl, rfl⟩
  have hreturns : limitTotalDumpSize rotating (fun _ => false) (bare ⟨0⟩ crowded) = .ok () (bare ⟨0⟩ crowded) := rfl
  refine ⟨bare ⟨0⟩ crowded, hstart, hreturns, rfl, by decide +kernel, ?_⟩
  rw [RotatesExactly, hreturns]
  rintro ⟨m, ⟨hm, hsuff, -⟩, -⟩
  obtain rfl : m = 0 := Nat.le_zero.mp hm
  exact absurd hsuff (by decide +kernel)

end DumpCollector.FaultLog.Rotation
