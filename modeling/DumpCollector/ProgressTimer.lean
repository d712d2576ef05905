import DumpCollector.Bmc.Manager
import DumpCollector.Lib.Runs
import DumpCollector.Lib.Truncation
import DumpCollector.System.Manager
import Mathlib.Data.Rat.Floor
import Mathlib.Tactic.Linarith

namespace DumpCollector.ProgressTimer

open Lib.Directory Lib.Runs Lib.Truncation Requests Entries FileNames Bmc.Manager System.Manager

inductive EntryClass
  | bmc
  | system
  deriving DecidableEq

/-- What of an entry the timer reads and writes. The value of progress is the number that
the property was given last. -/
structure TimedEntry where
  startTime : Nat
  status : OperationStatus
  progress : Int
  progressTimer : Option Bool
  entryProcessGroupID : Int

section Timer

def bmcDumpMaxTimeLimitInSec : Nat := 2700

def systemDumpMaxTimeLimitInSec : Nat := 2700

/-- The share of the time limit that is left, in percent, without the rounding of a float. -/
def timeProgress (maxTimeLimitInSec limit now : Nat) : Rat :=
  if now ≤ limit then ((limit - now : Nat) : Rat) / (maxTimeLimitInSec : Rat) * 100 else 100

def progressAt (maxTimeLimitInSec limit now : Nat) : Int :=
  truncated (100 - timeProgress maxTimeLimitInSec limit now)

def killed (limit now : Nat) (e : TimedEntry) : Option Int :=
  if limit < now ∧ 0 < e.entryProcessGroupID ∧ e.status ≠ .Completed then some (-1 * e.entryProcessGroupID) else none

/-- The function that both classes give to their timer, up to the limit. -/
def timeout (maxTimeLimitInSec limit now : Nat) (e : TimedEntry) : TimedEntry :=
  { e with
    progress := progressAt maxTimeLimitInSec limit now
    entryProcessGroupID := if (killed limit now e).isSome then 0 else e.entryProcessGroupID
    progressTimer := if e.status = .Completed ∨ limit < now then some false else e.progressTimer }

def maxTimeLimitInSec : EntryClass → Nat
  | .bmc => bmcDumpMaxTimeLimitInSec
  | .system => systemDumpMaxTimeLimitInSec

/-- The bmc entries count their start in microseconds and the system entries in seconds. -/
def limit : EntryClass → Nat → Nat
  | .bmc, startTime => uint64 (startTime / 1000000 + bmcDumpMaxTimeLimitInSec)
  | .system, startTime => uint64 (startTime + systemDumpMaxTimeLimitInSec)

def update : EntryClass → TimedEntry → TimedEntry
  | .bmc, e => { e with
      status := .Completed
      progress := 100
      progressTimer := e.progressTimer.map fun _ => false }
  | .system, e => { e with status := .Completed }

def setFailedStatus (e : TimedEntry) : TimedEntry := { e with status := .Failed }

end Timer

section Entries

def ofBmc (e : BmcEntry) : TimedEntry :=
  ⟨e.base.startTime, e.base.status, e.progress, e.progressTimer, e.entryProcessGroupID⟩

def ofSystem (e : SystemEntry) : TimedEntry :=
  ⟨e.base.startTime, e.base.status, e.progress, e.progressTimer, e.entryProcessGroupID⟩

theorem ofBmc_updated (e : BmcEntry) (timeStamp fileSize : Nat) (filePath : Path) :
    ofBmc (updated e timeStamp fileSize filePath) = update .bmc (ofBmc e) := rfl

theorem ofSystem_update (e : SystemEntry) (timeStamp fileSize : Nat) (filePath : Path) :
    ofSystem (System.Manager.update e timeStamp fileSize filePath) = update .system (ofSystem e) := rfl

theorem ofBmc_setFailedStatus (e : BmcEntry) :
    ofBmc (DumpEntry.setFailedStatus e) = setFailedStatus (ofBmc e) := rfl

theorem ofSystem_setFailedStatus (e : SystemEntry) :
    ofSystem (DumpEntry.setFailedStatus e) = setFailedStatus (ofSystem e) := rfl

inductive Created : EntryClass → TimedEntry → Prop
  | bmc (id timeStamp fileSize : Nat) (file : Option Path) (originatorId : String) (originatorType : OriginatorTypes)
      (entryProcessGroupID : Int) :
      Created .bmc (ofBmc (Bmc.Manager.create id timeStamp fileSize file .InProgress originatorId originatorType
        entryProcessGroupID))
  | system (id timeStamp fileSize : Nat) (file : Option Path) (originatorId : String)
      (originatorType : OriginatorTypes) (entryProcessGroupID : Int) :
      Created .system (ofSystem (System.Manager.create id timeStamp fileSize file .InProgress originatorId
        originatorType entryProcessGroupID))
  | systemWithType (id timeStamp fileSize : Nat) (file : Option Path) (originatorId : String)
      (originatorType : OriginatorTypes) (entryProcessGroupID : Int) (diagnosticType : String) :
      Created .system (ofSystem (createWithType id timeStamp fileSize file .InProgress originatorId originatorType
        entryProcessGroupID diagnosticType))

end Entries

section Values

variable {limit now now' : Nat}

theorem progressAt_past (h : limit < now) : progressAt 2700 limit now = 0 := by
  rw [progressAt, timeProgress, if_neg (Nat.not_le.mpr h), sub_self, truncated_zero]

theorem progressAt_le (limit now : Nat) : progressAt 2700 limit now ≤ 100 := by
  have hpos : (0 : Rat) ≤ timeProgress 2700 limit now := by
    rw [timeProgress]
    split <;> positivity
  by_contra h
  have h101 : (101 : Int) ≤ progressAt 2700 limit now := by omega
  have hcast := (le_truncated_iff (by decide)).mp h101
  push_cast at hcast
  linarith

/-- Up to one per cent of the limit below zero is cut off to zero. -/
theorem progressAt_nonneg_iff : 0 ≤ progressAt 2700 limit now ↔ limit < now + 2727 := by
  rcases Nat.lt_or_ge limit now with hpast | hle
  · rw [progressAt_past hpast]
    simp
    omega
  · rw [progressAt, truncated_nonneg_iff, timeProgress, if_pos hle]
    have hcast : -1 < 100 - ((limit - now : Nat) : Rat) / (2700 : Nat) * 100 ↔ ((limit - now : Nat) : Rat) < 2727 := by
      push_cast
      constructor <;> intro h <;> linarith
    rw [hcast]
    norm_cast
    omega

theorem progressAt_mono (hnow : now ≤ now') (hlimit : now' ≤ limit) :
    progressAt 2700 limit now ≤ progressAt 2700 limit now' := by
  apply truncated_mono
  rw [timeProgress, timeProgress, if_pos hlimit, if_pos (hnow.trans hlimit)]
  have hleft : ((limit - now' : Nat) : Rat) ≤ ((limit - now : Nat) : Rat) := by
    exact_mod_cast Nat.sub_le_sub_left hnow limit
  push_cast at hleft ⊢
  linarith

theorem progressAt_eq_hundred_iff : progressAt 2700 limit now = 100 ↔ now = limit := by
  rcases Nat.lt_or_ge limit now with hpast | hle
  · rw [progressAt_past hpast]
    omega
  · have hge : (100 : Int) ≤ progressAt 2700 limit now ↔ ((limit - now : Nat) : Rat) ≤ 0 := by
      rw [progressAt, le_truncated_iff (by decide), timeProgress, if_pos hle]
      push_cast
      constructor <;> intro h <;> linarith
    have hzero : ((limit - now : Nat) : Rat) ≤ 0 ↔ limit - now = 0 := by
      norm_cast
      omega
    have hbound := progressAt_le limit now
    constructor
    · intro h
      have := hzero.mp (hge.mp h.ge)
      omega
    · intro h
      have := hge.mpr (hzero.mpr (by omega))
      omega

end Values

section Runs

/-- An entry with the last reading of the clock, the values given to progress, latest first
and each with the status of the entry then, and the arguments that kill was called with. -/
structure Timeline where
  entry : TimedEntry
  clock : Option Nat
  given : List (OperationStatus × Int)
  kills : List Int

def begun (e : TimedEntry) : Timeline := ⟨e, none, [], []⟩

inductive Event
  | fires (now : Nat)
  | update
  | setFailedStatus

def fire (c : EntryClass) (now : Nat) (s : Timeline) : Timeline :=
  { entry := timeout (maxTimeLimitInSec c) (limit c s.entry.startTime) now s.entry
    clock := some now
    given := (s.entry.status, progressAt (maxTimeLimitInSec c) (limit c s.entry.startTime) now) :: s.given
    kills := s.kills ++ (killed (limit c s.entry.startTime) now s.entry).toList }

/-- Only a timer that runs fires, and the clock is not set back. -/
def step (c : EntryClass) (s : Timeline) : Event → Option Timeline
  | .fires now =>
      if s.entry.progressTimer = some true ∧ ∀ before ∈ s.clock, before ≤ now then some (fire c now s) else none
  | .update => some { s with
      entry := update c s.entry
      given := if c = .bmc then (.Completed, 100) :: s.given else s.given }
  | .setFailedStatus => some { s with entry := setFailedStatus s.entry }

def inProgress (given : List (OperationStatus × Int)) : List (OperationStatus × Int) :=
  given.filter fun g => g.1 = .InProgress

/-- The values are percentages, those of an entry in progress never decrease, and a completed
entry stands at a hundred. -/
structure Sound (s : Timeline) : Prop where
  range : ∀ g ∈ s.given, 0 ≤ g.2 ∧ g.2 ≤ 100
  rising : (inProgress s.given).Pairwise fun later earlier => earlier.2 ≤ later.2
  completed : s.entry.status = .Completed → s.entry.progress = 100

/-- The timer fires no earlier than 26 seconds before the start, in progress not after the limit
unless the value is still zero, and after the completion in the very second of the limit; and
a system entry is completed at a hundred. -/
def Steady (c : EntryClass) (s : Timeline) : Event → Prop
  | .fires now => limit c s.entry.startTime < now + 2727 ∧
      (s.entry.status = .InProgress → now ≤ limit c s.entry.startTime ∨ s.entry.progress = 0) ∧
      (s.entry.status = .Completed → now = limit c s.entry.startTime)
  | .update => c = .bmc ∨ s.entry.progress = 100
  | .setFailedStatus => True

instance (c : EntryClass) (s : Timeline) : (e : Event) → Decidable (Steady c s e)
  | .fires _ => inferInstanceAs (Decidable (_ ∧ _ ∧ _))
  | .update => inferInstanceAs (Decidable (_ ∨ _))
  | .setFailedStatus => inferInstanceAs (Decidable True)

/-- While the timer of an entry in progress runs, the limit has not been passed and the last value
is that of the last reading. -/
def Tracks (c : EntryClass) (s : Timeline) : Prop :=
  s.entry.status = .InProgress → s.entry.progressTimer = some true →
    (s.clock = none ∧ s.given = [] ∧ s.entry.progress = 0) ∨
      ∃ before rest, s.clock = some before ∧ before ≤ limit c s.entry.startTime ∧
        s.entry.progress = progressAt 2700 (limit c s.entry.startTime) before ∧
        s.given = (.InProgress, s.entry.progress) :: rest

variable {c : EntryClass} {s t : Timeline} {e : Event} {now : Nat}

theorem maxTimeLimitInSec_eq (c : EntryClass) : maxTimeLimitInSec c = 2700 := by
  cases c <;> rfl

theorem step_fires_eq_some (h : step c s (.fires now) = some t) :
    s.entry.progressTimer = some true ∧ (∀ before ∈ s.clock, before ≤ now) ∧ t = fire c now s := by
  rw [step] at h
  split at h
  · rename_i henabled
    exact ⟨henabled.1, henabled.2, (Option.some.inj h).symm⟩
  · cases h

theorem created_tracks {e : TimedEntry} (h : Created c e) : Tracks c (begun e) ∧ Sound (begun e) := by
  cases h <;>
    exact ⟨fun _ _ => .inl ⟨rfl, rfl, rfl⟩, by simp [begun], by simp [begun, inProgress], fun h => by cases h⟩

theorem step_tracks (hs : Tracks c s) (h : step c s e = some t) : Tracks c t := by
  cases e with
  | fires now =>
      obtain ⟨hrunning, -, rfl⟩ := step_fires_eq_some h
      intro hstatus htimer
      have hlimit : now ≤ limit c s.entry.startTime := by
        by_contra hpast
        simp [fire, timeout, Nat.lt_of_not_le hpast] at htimer
      refine .inr ⟨now, s.given, rfl, hlimit, ?_, ?_⟩
      · simp only [fire, timeout, maxTimeLimitInSec_eq]
      · have hin : s.entry.status = .InProgress := hstatus
        simp only [fire, timeout, hin]
  | update =>
      cases h
      intro hstatus
      cases c <;> cases hstatus
  | setFailedStatus =>
      cases h
      intro hstatus
      cases hstatus

theorem rising_iff (hs : Tracks c s) (hsound : Sound s) (hrunning : s.entry.progressTimer = some true)
    (hclock : ∀ before ∈ s.clock, before ≤ now) (hstatus : s.entry.status = .InProgress) :
    (∀ g ∈ inProgress s.given, g.2 ≤ progressAt 2700 (limit c s.entry.startTime) now) ↔
      now ≤ limit c s.entry.startTime ∨ s.entry.progress = 0 := by
  rcases hs hstatus hrunning with ⟨-, hgiven, hzero⟩ | ⟨before, rest, hbefore, hle, hprogress, hgiven⟩
  · simp [hgiven, hzero, inProgress]
  · have hhead : (.InProgress, s.entry.progress) ∈ inProgress s.given := by simp [inProgress, hgiven]
    have htop : ∀ g ∈ inProgress s.given, g.2 ≤ s.entry.progress := by
      have hrising := hsound.rising
      rw [inProgress, hgiven, List.filter_cons_of_pos (by simp)] at hrising ⊢
      intro g hg
      rcases List.mem_cons.mp hg with rfl | hg
      · exact le_refl _
      · exact List.rel_of_pairwise_cons hrising hg
    constructor
    · intro h
      by_contra hnot
      obtain ⟨hpast, hnonzero⟩ := not_or.mp hnot
      have hlow := h _ hhead
      rw [progressAt_past (Nat.lt_of_not_le hpast)] at hlow
      have hrange := hsound.range _ (List.mem_filter.mp hhead).1
      omega
    · intro h g hg
      apply (htop g hg).trans
      rcases Nat.lt_or_ge (limit c s.entry.startTime) now with hpast | hlimit
      · have hzero : s.entry.progress = 0 := h.resolve_left (Nat.not_le.mpr hpast)
        rw [progressAt_past hpast, hzero]
      · rw [hprogress]
        exact progressAt_mono (hclock before hbefore) hlimit

theorem fire_sound_iff (hs : Tracks c s) (hsound : Sound s) (hrunning : s.entry.progressTimer = some true)
    (hclock : ∀ before ∈ s.clock, before ≤ now) : Sound (fire c now s) ↔ Steady c s (.fires now) := by
  let v := progressAt 2700 (limit c s.entry.startTime) now
  have hgiven : (fire c now s).given = (s.entry.status, v) :: s.given := by
    simp only [fire, maxTimeLimitInSec_eq, v]
  have hprogress : (fire c now s).entry.progress = v := by
    simp only [fire, timeout, maxTimeLimitInSec_eq, v]
  have hstatus : (fire c now s).entry.status = s.entry.status := rfl
  constructor
  · intro h
    have hrange := h.range (s.entry.status, v) (hgiven ▸ List.mem_cons_self)
    refine ⟨progressAt_nonneg_iff.mp hrange.1, fun hin => ?_, fun hcompleted => ?_⟩
    · apply (rising_iff hs hsound hrunning hclock hin).mp
      have hrising := h.rising
      rw [hgiven, inProgress, List.filter_cons_of_pos (by simp [hin])] at hrising
      exact fun g => List.rel_of_pairwise_cons hrising
    · apply progressAt_eq_hundred_iff.mp
      exact hprogress.symm.trans (h.completed (hstatus.trans hcompleted))
  · rintro ⟨hlow, hin, hcompleted⟩
    refine ⟨fun g hg => ?_, ?_, fun h => ?_⟩
    · rw [hgiven] at hg
      rcases List.mem_cons.mp hg with rfl | hg
      · exact ⟨progressAt_nonneg_iff.mpr hlow, progressAt_le _ _⟩
      · exact hsound.range g hg
    · rw [hgiven, inProgress]
      by_cases h : s.entry.status = .InProgress
      · rw [List.filter_cons_of_pos (by simp [h]), List.pairwise_cons]
        exact ⟨(rising_iff hs hsound hrunning hclock h).mpr (hin h), hsound.rising⟩
      · rw [List.filter_cons_of_neg (by simp [h])]
        exact hsound.rising
    · rw [hprogress]
      exact progressAt_eq_hundred_iff.mpr (hcompleted (hstatus.symm.trans h))

theorem update_sound_iff (hsound : Sound s) (h : step c s .update = some t) :
    Sound t ↔ c = .bmc ∨ s.entry.progress = 100 := by
  cases h
  cases c with
  | bmc =>
      refine ⟨fun _ => .inl rfl, fun _ => ⟨fun g hg => ?_, ?_, fun _ => rfl⟩⟩
      · rcases List.mem_cons.mp hg with rfl | hg
        · decide
        · exact hsound.range g hg
      · exact hsound.rising
  | system =>
      constructor
      · intro h
        exact .inr (h.completed rfl)
      · intro h
        exact ⟨hsound.range, hsound.rising, fun _ => h.resolve_left (by simp)⟩

/-- The step lemma. -/
theorem step_sound_iff (hs : Tracks c s) (hsound : Sound s) (h : step c s e = some t) : Sound t ↔ Steady c s e := by
  cases e with
  | fires now =>
      obtain ⟨hrunning, hclock, rfl⟩ := step_fires_eq_some h
      exact fire_sound_iff hs hsound hrunning hclock
  | update => exact update_sound_iff hsound h
  | setFailedStatus =>
      cases h
      exact ⟨fun _ => trivial, fun _ => ⟨hsound.range, hsound.rising, fun h => by cases h⟩⟩

/-- An entry created in progress shows sound values in a whole run exactly if each step of the
run is steady. -/
theorem progress_sound_iff {e : TimedEntry} (he : Created c e) {es : List Event} {u : Timeline}
    (hrun : run (step c) (begun e) es = some u) :
    Always (step c) Sound (begun e) es ↔ EachStep (step c) (Steady c) (begun e) es :=
  always_iff_eachStep (fun _ _ _ => step_tracks) (fun _ _ _ => step_sound_iff) hrun (created_tracks he).1
    (created_tracks he).2

end Runs

section Examples

def bmcExample : TimedEntry := ofBmc (Bmc.Manager.create 1 1000000000 0 none .InProgress "" 0 0)

def systemExample : TimedEntry := ofSystem (createWithType 1 1000 0 none .InProgress "" 0 0 "SelfTest")

theorem progress_sound_example : Always (step .bmc) Sound (begun bmcExample) [.fires 1060, .fires 2350, .update] := by
  have hsome : (run (step .bmc) (begun bmcExample) [.fires 1060, .fires 2350, .update]).isSome := by decide +kernel
  apply (progress_sound_iff (.bmc 1 1000000000 0 none "" 0 0) (Option.some_get hsome).symm).mpr
  decide +kernel

/-- A bmc entry falls back to zero one second past the limit and below zero before its start, and a
system entry is completed with the value of the last reading. -/
theorem progress_unsound :
    ¬Always (step .bmc) Sound (begun bmcExample) [.fires 1060, .fires 3701] ∧
    ¬Always (step .bmc) Sound (begun bmcExample) [.fires 900] ∧
    ¬Always (step .system) Sound (begun systemExample) [.fires 1045, .update] := by
  have hfallen : (run (step .bmc) (begun bmcExample) [.fires 1060, .fires 3701]).map Timeline.given =
      some [(.InProgress, 0), (.InProgress, 2)] := by decide +kernel
  have hearly : (run (step .bmc) (begun bmcExample) [.fires 900]).map Timeline.given = some [(.InProgress, -3)] := by
    decide +kernel
  have hcompleted : (run (step .system) (begun systemExample) [.fires 1045, .update]).map
      (fun t => (t.entry.status, t.entry.progress)) = some (.Completed, 1) := by decide +kernel
  refine ⟨fun h => ?_, fun h => ?_, fun h => ?_⟩
  · obtain ⟨u, hrun, hgiven⟩ := Option.map_eq_some_iff.mp hfallen
    have hrising := (always_last h hrun).rising
    simp [hgiven, inProgress] at hrising
  · obtain ⟨u, hrun, hgiven⟩ := Option.map_eq_some_iff.mp hearly
    have hrange := (always_last h hrun).range (.InProgress, -3) (by simp [hgiven])
    simp at hrange
  · obtain ⟨u, hrun, hobs⟩ := Option.map_eq_some_iff.mp hcompleted
    obtain ⟨hstatus, hprogress⟩ := Prod.mk.inj hobs
    have hhundred := (always_last h hrun).completed hstatus
    omega

end Examples

end DumpCollector.ProgressTimer
