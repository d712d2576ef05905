import DumpCollector.OpenPower.Manager

namespace DumpCollector.OpenPower.Notify

open Std Lib.Effects Lib.Maps Lib.Runs FileNames Entries Requests Manager
open State (Construction)

section Definitions

variable (dumpId size : Nat)

def First (sourceId : Nat) (s : SystemDumps) (id : Nat) (e : SystemEntry) : Prop :=
  s.entries[id]? = some e ∧ e.sourceDumpId = sourceId ∧
    ∀ (k : Nat) (f : SystemEntry), s.entries[k]? = some f → f.sourceDumpId = sourceId → id ≤ k

def Absent (sourceId : Nat) (s : SystemDumps) : Prop :=
  ∀ (k : Nat) (e : SystemEntry), s.entries[k]? = some e → e.sourceDumpId ≠ sourceId

def Present (s : SystemDumps) : Prop :=
  ∃ (k : Nat) (e : SystemEntry), s.entries[k]? = some e ∧ e.sourceDumpId = dumpId ∧ e.base.size = size

def Distinct (s : SystemDumps) : Prop :=
  ∀ (k l : Nat) (e f : SystemEntry), s.entries[k]? = some e → s.entries[l]? = some f →
    e.sourceDumpId = f.sourceDumpId → e.sourceDumpId ≠ INVALID_SOURCE_ID → k = l

def Added (s t : SystemDumps) : Prop := ∃ k : Nat, s.entries[k]? = none ∧ ∃ e, t.entries[k]? = some e

structure Announced (s t : SystemDumps) : Prop where
  distinct : Distinct t
  completed : ∃ (k : Nat) (e : SystemEntry), t.entries[k]? = some e ∧ e.sourceDumpId = dumpId ∧
    e.base.status = .Completed ∧ e.base.size = size ∧
      ∀ (l : Nat) (f : SystemEntry), t.entries[l]? = some f → f.sourceDumpId = dumpId → l = k
  others : ∀ (k : Nat) (e : SystemEntry), e.sourceDumpId ≠ dumpId → e.sourceDumpId ≠ INVALID_SOURCE_ID →
    (t.entries[k]? = some e ↔ s.entries[k]? = some e)
  pending : ∀ (k : Nat) (e : SystemEntry), s.entries[k]? = some e → e.sourceDumpId = INVALID_SOURCE_ID →
    t.entries[k]? = some e ∨ First INVALID_SOURCE_ID s k e ∧
      ∃ f, t.entries[k]? = some f ∧ f.sourceDumpId = dumpId
  grown : Added s t → t.lastEntryId = uint32 (s.lastEntryId + 1)
  kept : ¬Added s t → t.lastEntryId = s.lastEntryId

/-- The entry of the dump, if there is one, has the size; and when there is neither one nor
a pending one, the new one can be added. -/
def Fresh (construction : Construction) (s : SystemDumps) : Prop :=
  (∀ (k : Nat) (e : SystemEntry), s.entries[k]? = some e → e.sourceDumpId = dumpId → e.base.size = size) ∧
    (Absent dumpId s → Absent INVALID_SOURCE_ID s → construction = .done ∧ s.entries[nextId s]? = none)

/-- An error is thrown or reported only if the dump has an entry; nothing is known of the
entries after a read of a freed one. -/
def EndsWithEntry (s : SystemDumps) : EStateM.Result Failure SystemDumps Unit → Prop
  | .ok _ t => t.reported = s.reported ∨ Present dumpId size t
  | .error .freedEntry _ => False
  | .error _ t => Present dumpId size t

def Handled (s : SystemDumps) (r : EStateM.Result Failure SystemDumps Unit) : Prop :=
  (∃ sent, (final r).deleteRequests = s.deleteRequests ++ sent ∧ dumpId ∉ sent) ∧ EndsWithEntry dumpId size s r

/-- The first entry of the dump, if there is one, has the size, unless it is being offloaded
and another one has it; and when there is neither one nor a pending one, the new one can be
constructed. -/
def Clear (construction : Construction) (s : SystemDumps) : Prop :=
  (∀ k e, First dumpId s k e → e.base.size = size ∨ e.offloadUri ≠ "" ∧ Present dumpId size s) ∧
    (Absent dumpId s → Absent INVALID_SOURCE_ID s → construction = .done)

end Definitions

section Cases

variable {originators : OriginatorTable} {running : Bool} {transport : Transport} {dumpId size timeStamp : Nat}
  {construction : Construction} {s : SystemDumps} {k : Nat} {e : SystemEntry} {sourceId : Nat}

def updatedAt (timeStamp size dumpId k : Nat) (s : SystemDumps) : SystemDumps :=
  { s with entries := s.entries.alter k (Option.map (updated timeStamp size dumpId)) }

theorem find_source : s.entries.toList.find? (sourceIs sourceId) = some (k, e) ↔ First sourceId s k e := by
  rw [find_iff_least]
  simp only [First, sourceIs, decide_eq_true_eq]

theorem find_source_none : s.entries.toList.find? (sourceIs sourceId) = none ↔ Absent sourceId s := by
  rw [find_iff_absent]
  simp only [Absent, sourceIs, decide_eq_false_iff_not, ne_eq]

theorem first_or_absent (sourceId : Nat) (s : SystemDumps) : (∃ k e, First sourceId s k e) ∨ Absent sourceId s := by
  cases hfind : s.entries.toList.find? (sourceIs sourceId) with
  | none => exact .inr (find_source_none.mp hfind)
  | some x => exact .inl ⟨x.1, x.2, find_source.mp hfind⟩

theorem not_absent (h : First sourceId s k e) : ¬Absent sourceId s := fun habsent => habsent k e h.1 h.2.1

def added (originators : OriginatorTable) (timeStamp size dumpId : Nat) (s : SystemDumps) : SystemDumps :=
  { s with
    entries := s.entries.insertIfNew (nextId s)
      (newEntry (nextId s) timeStamp size dumpId .Completed "" originators.Internal)
    lastEntryId := nextId s }

theorem notify_eq : notify originators running transport dumpId size timeStamp construction s =
    match s.entries.toList.find? (sourceIs dumpId), s.entries.toList.find? (sourceIs INVALID_SOURCE_ID) with
    | some (k, e), _ =>
        if e.base.size = size then
          if e.base.status = .Completed then .ok () s else .ok () (updatedAt timeStamp size dumpId k s)
        else (do delete_ running transport e; throw .freedEntry : SystemOp Unit) s
    | none, some (k, _) => .ok () (updatedAt timeStamp size dumpId k s)
    | none, none =>
        match construction with
        | .done => .ok () (added originators timeStamp size dumpId s)
        | .invalidArgument => .ok () { s with reported := s.reported ++ [.internalFailure] }
        | .failed => .error (.error .sdBusError) s := by
  unfold notify
  rw [get_bind]
  have hlook := @look_eq running transport dumpId size none s.entries.toList s
  cases hfirst : s.entries.toList.find? (sourceIs dumpId) with
  | some x =>
      obtain ⟨k, e⟩ := x
      rw [hfirst] at hlook
      by_cases hsize : e.base.size = size
      · by_cases hstatus : e.base.status = .Completed
        · simp only [hsize, hstatus, if_true] at hlook ⊢
          rw [bind_of_ok hlook]
          rfl
        · simp only [hsize, hstatus, if_true, if_false] at hlook ⊢
          rw [bind_of_ok hlook]
          rfl
      · simp only [hsize, if_false] at hlook ⊢
        cases hdelete : delete_ running transport e s with
        | ok a t =>
            rw [bind_of_ok hdelete, throw_apply] at hlook
            rw [bind_of_ok hdelete, throw_apply, bind_of_error hlook]
        | error f t =>
            rw [bind_of_error hdelete] at hlook
            rw [bind_of_error hdelete, bind_of_error hlook]
  | none =>
      rw [hfirst] at hlook
      rw [bind_of_ok hlook]
      cases hpending : s.entries.toList.find? (sourceIs INVALID_SOURCE_ID) with
      | some x => rfl
      | none => cases construction <;> rfl

theorem notify_duplicate (h : First dumpId s k e) (hsize : e.base.size = size) :
    notify originators running transport dumpId size timeStamp construction s =
      if e.base.status = .Completed then .ok () s else .ok () (updatedAt timeStamp size dumpId k s) := by
  rw [notify_eq, find_source.mpr h]
  exact if_pos hsize

theorem notify_stale (h : First dumpId s k e) (hsize : e.base.size ≠ size) :
    notify originators running transport dumpId size timeStamp construction s =
      (do delete_ running transport e; throw .freedEntry : SystemOp Unit) s := by
  rw [notify_eq, find_source.mpr h]
  exact if_neg hsize

theorem notify_pending (habsent : Absent dumpId s) (h : First INVALID_SOURCE_ID s k e) :
    notify originators running transport dumpId size timeStamp construction s =
      .ok () (updatedAt timeStamp size dumpId k s) := by
  rw [notify_eq, find_source_none.mpr habsent, find_source.mpr h]

theorem notify_new (habsent : Absent dumpId s) (hpending : Absent INVALID_SOURCE_ID s) :
    notify originators running transport dumpId size timeStamp construction s =
      match construction with
      | .done => .ok () (added originators timeStamp size dumpId s)
      | .invalidArgument => .ok () { s with reported := s.reported ++ [.internalFailure] }
      | .failed => .error (.error .sdBusError) s := by
  rw [notify_eq, find_source_none.mpr habsent, find_source_none.mpr hpending]

end Cases

section Stopped

variable {originators : OriginatorTable} {transport : Transport} {dumpId size timeStamp : Nat}
  {construction : Construction} {s t : SystemDumps} {k : Nat} {e : SystemEntry}

theorem updatedAt_get (hk : s.entries[k]? = some e) (l : Nat) :
    (updatedAt timeStamp size dumpId k s).entries[l]? =
      if k = l then some (updated timeStamp size dumpId e) else s.entries[l]? := by
  rw [updatedAt, alter_get, hk]
  rfl

theorem updatedAt_get_cases (hk : s.entries[k]? = some e) {l : Nat} {f : SystemEntry}
    (hl : (updatedAt timeStamp size dumpId k s).entries[l]? = some f) :
    k = l ∧ f = updated timeStamp size dumpId e ∨ k ≠ l ∧ s.entries[l]? = some f := by
  rw [updatedAt_get hk] at hl
  split at hl
  · rename_i hkl
    exact .inl ⟨hkl, (Option.some.inj hl).symm⟩
  · rename_i hkl
    exact .inr ⟨hkl, hl⟩

theorem unique_of_distinct (hdistinct : Distinct s) (hdumpId : dumpId ≠ INVALID_SOURCE_ID)
    (hk : s.entries[k]? = some e) (hsource : e.sourceDumpId = dumpId) (l : Nat) (f : SystemEntry)
    (hl : s.entries[l]? = some f) (hf : f.sourceDumpId = dumpId) : l = k :=
  hdistinct l k f e hl hk (hf.trans hsource.symm) fun h => hdumpId (hf.symm.trans h)

theorem announced_updatedAt (hdistinct : Distinct s) (hdumpId : dumpId ≠ INVALID_SOURCE_ID)
    (hk : s.entries[k]? = some e)
    (honly : ∀ (l : Nat) (f : SystemEntry), s.entries[l]? = some f → f.sourceDumpId = dumpId → l = k)
    (hup : e.sourceDumpId = dumpId ∨ First INVALID_SOURCE_ID s k e) :
    Announced dumpId size s (updatedAt timeStamp size dumpId k s) where
  distinct := by
    intro a b f g ha hb hsource hvalid
    rcases updatedAt_get_cases hk ha with ⟨rfl, rfl⟩ | ⟨hka, ha⟩
    · rcases updatedAt_get_cases hk hb with ⟨hkb, -⟩ | ⟨hkb, hb⟩
      · exact hkb
      · exact (honly b g hb hsource.symm).symm
    · rcases updatedAt_get_cases hk hb with ⟨rfl, rfl⟩ | ⟨hkb, hb⟩
      · exact honly a f ha hsource
      · exact hdistinct a b f g ha hb hsource hvalid
  completed := by
    refine ⟨k, updated timeStamp size dumpId e, by rw [updatedAt_get hk, if_pos rfl], rfl, rfl, rfl, ?_⟩
    intro l f hl hf
    rcases updatedAt_get_cases hk hl with ⟨hkl, -⟩ | ⟨-, hl⟩
    · exact hkl.symm
    · exact honly l f hl hf
  others := by
    intro l f hother hvalid
    rw [updatedAt_get hk]
    by_cases hkl : k = l
    · subst hkl
      rw [if_pos rfl, hk]
      constructor
      · intro hf
        exact absurd (congrArg SystemEntry.sourceDumpId (Option.some.inj hf)).symm hother
      · intro hf
        obtain rfl := Option.some.inj hf
        rcases hup with hsource | hfirst
        · exact absurd hsource hother
        · exact absurd hfirst.2.1 hvalid
    · rw [if_neg hkl]
  pending := by
    intro l f hl hf
    rw [updatedAt_get hk]
    by_cases hkl : k = l
    · subst hkl
      obtain rfl := Option.some.inj (hk.symm.trans hl)
      rcases hup with hsource | hfirst
      · exact absurd (hsource.symm.trans hf) hdumpId
      · exact .inr ⟨hfirst, updated timeStamp size dumpId e, if_pos rfl, rfl⟩
    · exact .inl ((if_neg hkl).trans hl)
  grown := by
    rintro ⟨l, hl, f, hf⟩
    rcases updatedAt_get_cases hk hf with ⟨rfl, -⟩ | ⟨-, hf⟩
    · rw [hk] at hl
      cases hl
    · rw [hl] at hf
      cases hf
  kept := fun _ => rfl

theorem announced_self (hdistinct : Distinct s) (hdumpId : dumpId ≠ INVALID_SOURCE_ID) (h : First dumpId s k e)
    (hsize : e.base.size = size) (hstatus : e.base.status = .Completed) : Announced dumpId size s s where
  distinct := hdistinct
  completed := ⟨k, e, h.1, h.2.1, hstatus, hsize, unique_of_distinct hdistinct hdumpId h.1 h.2.1⟩
  others := fun _ _ _ _ => Iff.rfl
  pending := fun _ _ hl _ => .inl hl
  grown := by
    rintro ⟨l, hl, f, hf⟩
    rw [hl] at hf
    cases hf
  kept := fun _ => rfl

theorem added_get_cases {l : Nat} {f : SystemEntry}
    (hl : (added originators timeStamp size dumpId s).entries[l]? = some f) :
    s.entries[l]? = some f ∨ nextId s = l ∧ s.entries[l]? = none ∧
      f = newEntry (nextId s) timeStamp size dumpId .Completed "" originators.Internal :=
  insertIfNew_cases hl

theorem announced_added (hdistinct : Distinct s) (habsent : Absent dumpId s) (hfree : s.entries[nextId s]? = none) :
    Announced dumpId size s (added originators timeStamp size dumpId s) := by
  have hget : ∀ l : Nat, (added originators timeStamp size dumpId s).entries[l]? =
      if nextId s = l then some (newEntry (nextId s) timeStamp size dumpId .Completed "" originators.Internal)
      else s.entries[l]? := by
    intro l
    rw [added, insertIfNew_of_absent hfree, insert_get]
  have hkept : ∀ (l : Nat) (f : SystemEntry), s.entries[l]? = some f →
      (added originators timeStamp size dumpId s).entries[l]? = some f := by
    intro l f hl
    rw [hget, if_neg, hl]
    rintro rfl
    rw [hfree] at hl
    cases hl
  refine ⟨?_, ?_, ?_, ?_, fun _ => rfl, ?_⟩
  · intro a b f g ha hb hsource hvalid
    rcases added_get_cases ha with ha | ⟨rfl, -, rfl⟩
    · rcases added_get_cases hb with hb | ⟨rfl, -, rfl⟩
      · exact hdistinct a b f g ha hb hsource hvalid
      · exact absurd hsource (habsent a f ha)
    · rcases added_get_cases hb with hb | ⟨rfl, -, rfl⟩
      · exact absurd hsource.symm (habsent b g hb)
      · rfl
  · refine ⟨nextId s, _, (hget _).trans (if_pos rfl), rfl, rfl, rfl, fun l f hl hf => ?_⟩
    rcases added_get_cases hl with hl | ⟨rfl, -, -⟩
    · exact absurd hf (habsent l f hl)
    · rfl
  · intro l f hother hvalid
    constructor
    · intro hl
      rcases added_get_cases hl with hl | ⟨-, -, rfl⟩
      · exact hl
      · exact absurd rfl hother
    · exact hkept l f
  · exact fun l f hl _ => .inl (hkept l f hl)
  · intro hadded
    exact absurd ⟨nextId s, hfree, _, (hget _).trans (if_pos rfl)⟩ hadded

theorem stale_not_ok {running : Bool} {u : SystemDumps}
    (h : (do delete_ running transport e; throw .freedEntry : SystemOp Unit) s = .ok () u) : False := by
  obtain ⟨a, t, -, hthrow⟩ := bind_eq_ok.mp h
  cases hthrow

theorem announced_of_fresh (hdistinct : Distinct s) (hdumpId : dumpId ≠ INVALID_SOURCE_ID)
    (hfresh : Fresh dumpId size construction s) :
    ∃ t, notify originators false transport dumpId size timeStamp construction s = .ok () t ∧
      Announced dumpId size s t := by
  rcases first_or_absent dumpId s with ⟨k, e, hfirst⟩ | habsent
  · have hsize := hfresh.1 k e hfirst.1 hfirst.2.1
    rw [notify_duplicate hfirst hsize]
    by_cases hstatus : e.base.status = .Completed
    · exact ⟨s, if_pos hstatus, announced_self hdistinct hdumpId hfirst hsize hstatus⟩
    · refine ⟨_, if_neg hstatus, announced_updatedAt hdistinct hdumpId hfirst.1 ?_ (.inl hfirst.2.1)⟩
      exact unique_of_distinct hdistinct hdumpId hfirst.1 hfirst.2.1
  · rcases first_or_absent INVALID_SOURCE_ID s with ⟨k, e, hfirst⟩ | hpending
    · refine ⟨_, notify_pending habsent hfirst, announced_updatedAt hdistinct hdumpId hfirst.1 ?_ (.inr hfirst)⟩
      exact fun l f hl hf => absurd hf (habsent l f hl)
    · obtain ⟨rfl, hfree⟩ := hfresh.2 habsent hpending
      exact ⟨_, notify_new habsent hpending, announced_added hdistinct habsent hfree⟩

theorem fresh_of_announced (hdistinct : Distinct s) (hdumpId : dumpId ≠ INVALID_SOURCE_ID)
    (hnotify : notify originators false transport dumpId size timeStamp construction s = .ok () t)
    (h : Announced dumpId size s t) : Fresh dumpId size construction s := by
  constructor
  · intro k e hk hsource
    rcases first_or_absent dumpId s with ⟨l, f, hfirst⟩ | habsent
    · obtain rfl := unique_of_distinct hdistinct hdumpId hk hsource l f hfirst.1 hfirst.2.1
      obtain rfl := Option.some.inj (hk.symm.trans hfirst.1)
      by_contra hsize
      rw [notify_stale hfirst hsize] at hnotify
      exact stale_not_ok hnotify
    · exact absurd hsource (habsent k e hk)
  · intro habsent hpending
    rw [notify_new habsent hpending] at hnotify
    obtain ⟨l, f, hl, hf, -⟩ := h.completed
    cases construction with
    | done =>
        cases hnotify
        rcases added_get_cases hl with hl | ⟨rfl, hfree, -⟩
        · exact absurd hf (habsent l f hl)
        · exact ⟨rfl, hfree⟩
    | invalidArgument =>
        cases hnotify
        exact absurd hf (habsent l f hl)
    | failed => cases hnotify

/-- A notification is taken as it should be exactly if no entry of the dump has another size
and the entry it needs can be added. -/
theorem announced_iff_fresh (hdistinct : Distinct s) (hdumpId : dumpId ≠ INVALID_SOURCE_ID) :
    (∃ t, notify originators false transport dumpId size timeStamp construction s = .ok () t ∧
      Announced dumpId size s t) ↔ Fresh dumpId size construction s := by
  constructor
  · rintro ⟨t, hnotify, h⟩
    exact fresh_of_announced hdistinct hdumpId hnotify h
  · exact announced_of_fresh hdistinct hdumpId

private def accepting : Transport := ⟨fun _ => true, fun _ => true⟩

private def oneDump : SystemDumps :=
  ⟨(∅ : ExtTreeMap Nat SystemEntry).insert 1 (newEntry 1 1000 10 5 .Completed "" 0), 1, [], []⟩

private theorem oneDump_get {k : Nat} {e : SystemEntry} (h : oneDump.entries[k]? = some e) :
    k = 1 ∧ e = newEntry 1 1000 10 5 .Completed "" 0 := by
  rw [oneDump, insert_get] at h
  split at h
  · rename_i hk
    exact ⟨hk.symm, (Option.some.inj h).symm⟩
  · cases h

private theorem oneDump_distinct : Distinct oneDump := fun _ _ _ _ hk hl _ _ =>
  (oneDump_get hk).1.trans (oneDump_get hl).1.symm

theorem same_size_announced :
    ∃ t, notify ⟨[], 0⟩ false accepting 5 10 2000 .done oneDump = .ok () t ∧ Announced 5 10 oneDump t := by
  refine (announced_iff_fresh oneDump_distinct (by decide)).mpr ⟨fun k e hk _ => ?_, fun habsent => ?_⟩
  · obtain ⟨-, rfl⟩ := oneDump_get hk
    rfl
  · exact absurd rfl (habsent 1 (newEntry 1 1000 10 5 .Completed "" 0) rfl)

/-- The entry of the dump is deleted for its size, and read after that. -/
theorem other_size_not_announced : Distinct oneDump ∧ 5 ≠ INVALID_SOURCE_ID ∧
    (∃ t, notify ⟨[], 0⟩ false accepting 5 20 2000 .done oneDump = .error .freedEntry t) ∧
    ¬∃ t, notify ⟨[], 0⟩ false accepting 5 20 2000 .done oneDump = .ok () t ∧ Announced 5 20 oneDump t := by
  have hfreed : notify ⟨[], 0⟩ false accepting 5 20 2000 .done oneDump =
      .error .freedEntry { oneDump with entries := oneDump.entries.erase 1 } := rfl
  refine ⟨oneDump_distinct, by decide, ⟨_, hfreed⟩, ?_⟩
  rintro ⟨t, hnotify, -⟩
  rw [hfreed] at hnotify
  cases hnotify

end Stopped

section Running

variable {originators : OriginatorTable} {transport : Transport} {dumpId size timeStamp : Nat}
  {construction : Construction} {s : SystemDumps} {k : Nat} {e : SystemEntry}

theorem stale_offloading (huri : e.offloadUri ≠ "") :
    (do delete_ true transport e; throw .freedEntry : SystemOp Unit) s = .error (.error .unavailable) s := by
  have hdelete : delete_ true transport e s = .error (.error .unavailable) s := by
    unfold delete_
    simp [throwIf, huri]
  rw [bind_of_error hdelete]

theorem stale_pending (huri : e.offloadUri = "") (hsource : e.sourceDumpId = INVALID_SOURCE_ID) :
    (do delete_ true transport e; throw .freedEntry : SystemOp Unit) s =
      .error .freedEntry { s with entries := s.entries.erase e.base.id } := by
  have hdelete : delete_ true transport e s = .ok () { s with entries := s.entries.erase e.base.id } := by
    unfold delete_
    simp [throwIf, whenever, erase, huri, hsource]
  rw [bind_of_ok hdelete, throw_apply]

theorem stale_requested (huri : e.offloadUri = "") (hsource : e.sourceDumpId ≠ INVALID_SOURCE_ID) :
    (final ((do delete_ true transport e; throw .freedEntry : SystemOp Unit) s)).deleteRequests =
      s.deleteRequests ++ [e.sourceDumpId] := by
  unfold delete_
  cases htransport : transport.requestDelete e.sourceDumpId <;>
    simp [throwIf, whenever, erase, requestDelete, huri, hsource, htransport]

theorem not_present (h : Absent dumpId s) : ¬Present dumpId size s := by
  rintro ⟨k, e, hk, hsource, -⟩
  exact h k e hk hsource

theorem first_unique {l : Nat} {f : SystemEntry} (hk : First dumpId s k e) (hl : First dumpId s l f) : f = e := by
  obtain rfl := Nat.le_antisymm (hk.2.2 l f hl.1 hl.2.1) (hl.2.2 k e hk.1 hk.2.1)
  exact Option.some.inj (hl.1.symm.trans hk.1)

theorem clear_of_first (h : First dumpId s k e) :
    Clear dumpId size construction s ↔ e.base.size = size ∨ e.offloadUri ≠ "" ∧ Present dumpId size s := by
  constructor
  · exact fun hclear => hclear.1 k e h
  · intro hfirst
    refine ⟨fun l f hl => ?_, fun habsent => absurd habsent (not_absent h)⟩
    obtain rfl := first_unique h hl
    exact hfirst

theorem clear_of_absent (h : Absent dumpId s) :
    Clear dumpId size construction s ↔ (Absent INVALID_SOURCE_ID s → construction = .done) :=
  ⟨fun hclear => hclear.2 h, fun hnew => ⟨fun _ _ hk => absurd h (not_absent hk), fun _ => hnew⟩⟩

theorem handled_quiet {t : SystemDumps} (hrequests : t.deleteRequests = s.deleteRequests)
    (hreported : t.reported = s.reported) : Handled dumpId size s (.ok () t) :=
  ⟨⟨[], by rw [final_ok, hrequests, List.append_nil], List.not_mem_nil⟩, .inl hreported⟩

/-- With a stale entry that is not being offloaded the host is asked to delete the dump that
has been announced. -/
theorem not_handled_stale (hsource : e.sourceDumpId = dumpId) (huri : e.offloadUri = "") :
    ¬Handled dumpId size s ((do delete_ true transport e; throw .freedEntry : SystemOp Unit) s) := by
  intro h
  by_cases hvalid : e.sourceDumpId = INVALID_SOURCE_ID
  · rw [stale_pending huri hvalid] at h
    exact h.2
  · obtain ⟨sent, hsent, hnot⟩ := h.1
    rw [stale_requested huri hvalid] at hsent
    rw [← List.append_cancel_left hsent, List.mem_singleton] at hnot
    exact hnot hsource.symm

theorem handled_stale (huri : e.offloadUri ≠ "") :
    Handled dumpId size s ((do delete_ true transport e; throw .freedEntry : SystemOp Unit) s) ↔
      Present dumpId size s := by
  rw [stale_offloading huri]
  exact ⟨fun h => h.2, fun h => ⟨⟨[], (List.append_nil _).symm, List.not_mem_nil⟩, h⟩⟩

theorem handled_iff_clear (s : SystemDumps) :
    Handled dumpId size s (notify originators true transport dumpId size timeStamp construction s) ↔
      Clear dumpId size construction s := by
  rcases first_or_absent dumpId s with ⟨k, e, hfirst⟩ | habsent
  · rw [clear_of_first hfirst]
    by_cases hsize : e.base.size = size
    · rw [notify_duplicate hfirst hsize]
      refine iff_of_true ?_ (.inl hsize)
      split <;> exact handled_quiet rfl rfl
    · rw [notify_stale hfirst hsize, or_iff_right hsize]
      by_cases huri : e.offloadUri = ""
      · exact iff_of_false (not_handled_stale hfirst.2.1 huri) fun h => h.1 huri
      · rw [handled_stale huri, and_iff_right huri]
  · rw [clear_of_absent habsent]
    rcases first_or_absent INVALID_SOURCE_ID s with ⟨k, e, hfirst⟩ | hpending
    · rw [notify_pending habsent hfirst]
      exact iff_of_true (handled_quiet rfl rfl) fun h => absurd h (not_absent hfirst)
    · rw [notify_new habsent hpending, imp_iff_right hpending]
      cases construction with
      | done => exact iff_of_true (handled_quiet rfl rfl) rfl
      | invalidArgument =>
          refine iff_of_false ?_ Construction.noConfusion
          rintro ⟨-, hreported | hpresent⟩
          · exact List.cons_ne_nil _ _ (List.self_eq_append_right.mp hreported.symm)
          · exact not_present habsent hpresent
      | failed => exact iff_of_false (fun h => not_present habsent h.2) Construction.noConfusion

def HandledAt (originators : OriginatorTable) (s : SystemDumps) : Event → Prop
  | .notify transport dumpId size timeStamp construction =>
      Handled dumpId size s (notify originators true transport dumpId size timeStamp construction s)
  | _ => True

def ClearAt (s : SystemDumps) : Event → Prop
  | .notify _ dumpId size _ construction => Clear dumpId size construction s
  | _ => True

theorem handledAt_iff (s : SystemDumps) (e : Event) : HandledAt originators s e ↔ ClearAt s e := by
  cases e with
  | notify => exact handled_iff_clear s
  | createDump => exact Iff.rfl
  | delete => exact Iff.rfl
  | deleteAll => exact Iff.rfl
  | initiateOffload => exact Iff.rfl

/-- While the host is running, every notification of a run is handled as it should be
exactly if each of them meets entries that are clear for it. -/
theorem handled_iff_clear_throughout (s : SystemDumps) (es : List Event) :
    EachStep (step originators true) (HandledAt originators) s es ↔ EachStep (step originators true) ClearAt s es :=
  eachStep_iff handledAt_iff

/-- The dump is announced with one size and then with another one. -/
theorem announced_dump_deleted :
    ∃ s, run (step ⟨[], 0⟩ true) ⟨∅, 0, [], []⟩ [.notify accepting 5 10 1000 .done] = some s ∧
      (final (notify ⟨[], 0⟩ true accepting 5 20 2000 .done s)).deleteRequests = [5] ∧
      ¬EachStep (step ⟨[], 0⟩ true) (HandledAt ⟨[], 0⟩) ⟨∅, 0, [], []⟩
        [.notify accepting 5 10 1000 .done, .notify accepting 5 20 2000 .done] := by
  have hrun : step ⟨[], 0⟩ true ⟨∅, 0, [], []⟩ (.notify accepting 5 10 1000 .done) = some oneDump := rfl
  have hdeleted : (final (notify ⟨[], 0⟩ true accepting 5 20 2000 .done oneDump)).deleteRequests = [5] := rfl
  refine ⟨oneDump, run_cons.mpr ⟨_, hrun, rfl⟩, hdeleted, ?_⟩
  rintro ⟨-, h⟩
  obtain ⟨sent, hsent, hnot⟩ := (h _ hrun).1.1
  rw [hdeleted] at hsent
  cases hsent
  exact hnot List.mem_cons_self

end Running

end DumpCollector.OpenPower.Notify
