import DumpCollector.OpenPower.Resource

namespace DumpCollector.OpenPower.ResourceRuns

open Std Lib.Effects Lib.Maps Lib.Runs FileNames Entries Requests Resource
open Manager (Failure Looked Transport INVALID_SOURCE_ID)
open State (Construction)

section Definitions

def completed (e : ResourceEntry) : Prop := e.base.status = .Completed ∧ e.sourceDumpId ≠ INVALID_SOURCE_ID

/-- Every entry is pending or completed, and a source id belongs to one entry. -/
structure Consistent (s : ResourceDumps) : Prop where
  status : ∀ (k : Nat) (e : ResourceEntry), s.entries[k]? = some e → pending e ∨ completed e
  distinct : ∀ (k l : Nat) (e f : ResourceEntry), s.entries[k]? = some e → s.entries[l]? = some f →
    e.sourceDumpId = f.sourceDumpId → e.sourceDumpId ≠ INVALID_SOURCE_ID → k = l

structure Settled (s : ResourceDumps) : Prop extends Consistent s where
  bounded : ∀ (k : Nat) (e : ResourceEntry), s.entries[k]? = some e → k ≤ s.lastEntryId

def Unknown (dumpId : Nat) (s : ResourceDumps) : Prop :=
  ∀ (k : Nat) (e : ResourceEntry), s.entries[k]? = some e → e.sourceDumpId ≠ dumpId

def Idle (s : ResourceDumps) : Prop := ∀ (k : Nat) (e : ResourceEntry), s.entries[k]? = some e → ¬ pending e

def FirstPending (s : ResourceDumps) (k : Nat) (e : ResourceEntry) : Prop :=
  s.entries[k]? = some e ∧ pending e ∧
    ∀ (l : Nat) (f : ResourceEntry), s.entries[l]? = some f → pending f → k ≤ l

variable (originators : OriginatorTable)

/-- What a notification is to do: nothing if the dump has an entry, and otherwise complete
the first pending entry or add one. Without its D-Bus object no entry is added. -/
structure Notified (dumpId size timeStamp : Nat) (construction : Construction) (s : ResourceDumps) : Prop where
  known : ∀ (k : Nat) (e : ResourceEntry), s.entries[k]? = some e → e.sourceDumpId = dumpId →
    notify originators dumpId size timeStamp construction s = .ok () s
  completes : ∀ k e, Unknown dumpId s → FirstPending s k e →
    notify originators dumpId size timeStamp construction s =
      .ok () { s with
        entries := s.entries.insert k { e with
          base := { e.base with
            elapsed := timeStamp, size := size, status := .Completed, completedTime := timeStamp }
          sourceDumpId := dumpId } }
  adds : Unknown dumpId s → Idle s → construction = .done →
    s.entries[s.lastEntryId + 1]? = none ∧ notify originators dumpId size timeStamp construction s =
      .ok () { s with
        entries := s.entries.insert (s.lastEntryId + 1)
          (newResource (s.lastEntryId + 1) timeStamp size dumpId "" "" .Completed "" originators.Internal)
        lastEntryId := s.lastEntryId + 1 }
  fails : Unknown dumpId s → Idle s → construction ≠ .done →
    (final (notify originators dumpId size timeStamp construction s)).entries = s.entries

/-- The counter does not wrap, and no dump is announced under the invalid source id. -/
def Regular (s : ResourceDumps) : Event → Prop
  | .notify dumpId _ _ _ => s.lastEntryId + 1 < 2 ^ 32 ∧ dumpId ≠ INVALID_SOURCE_ID
  | _ => s.lastEntryId + 1 < 2 ^ 32

def NotifiedAt (s : ResourceDumps) : Event → Prop
  | .notify dumpId size timeStamp construction => Notified originators dumpId size timeStamp construction s
  | _ => True

end Definitions

variable {originators : OriginatorTable} {dumpId size timeStamp : Nat} {construction : Construction}
  {s t : ResourceDumps} {k : Nat} {e : ResourceEntry}

section Loop

def isAnnounced (dumpId : Nat) (x : Nat × ResourceEntry) : Bool := announced dumpId x.2

def isPending (x : Nat × ResourceEntry) : Bool := pending x.2

/-- The loop ends at a completed entry of the dump, and otherwise with the first pending one. -/
theorem look_eq (upEntry : Option Nat) (xs : List (Nat × ResourceEntry)) : look dumpId upEntry xs =
    match xs.find? (isAnnounced dumpId) with
    | some _ => .returned
    | none => .finished (upEntry.or ((xs.find? isPending).map Prod.fst)) := by
  induction xs generalizing upEntry with
  | nil => cases upEntry <;> rfl
  | cons x rest ih =>
      obtain ⟨key, e⟩ := x
      rw [look]
      by_cases hannounced : announced dumpId e
      · rw [if_pos hannounced, List.find?_cons_of_pos (by simpa [isAnnounced] using hannounced)]
      · rw [if_neg hannounced, List.find?_cons_of_neg (by simpa [isAnnounced] using hannounced)]
        by_cases hpending : pending e
        · rw [List.find?_cons_of_pos (p := isPending) (by simpa [isPending] using hpending)]
          cases upEntry with
          | none =>
              rw [if_pos ⟨hpending, rfl⟩, ih]
              rfl
          | some up =>
              rw [if_neg (by simp), ih]
              rfl
        · rw [List.find?_cons_of_neg (p := isPending) (by simpa [isPending] using hpending),
            if_neg fun h => hpending h.1, ih]

theorem notify_known (hk : s.entries[k]? = some e) (h : announced dumpId e) :
    notify originators dumpId size timeStamp construction s = .ok () s := by
  unfold notify
  rw [get_bind, look_eq]
  cases hfind : s.entries.toList.find? (isAnnounced dumpId) with
  | some x => rfl
  | none =>
      have hno := find_iff_absent.mp hfind k e hk
      exact absurd (decide_eq_true h) (Bool.eq_false_iff.mp hno)

theorem find_announced_none (h : Unknown dumpId s) : s.entries.toList.find? (isAnnounced dumpId) = none :=
  find_iff_absent.mpr fun k e hk => decide_eq_false fun hannounced => h k e hk hannounced.1

theorem notify_completes (hunknown : Unknown dumpId s) (h : FirstPending s k e) :
    notify originators dumpId size timeStamp construction s =
      .ok () { s with entries := s.entries.insert k (update timeStamp size dumpId e) } := by
  have hfind : s.entries.toList.find? isPending = some (k, e) :=
    find_iff_least.mpr ⟨h.1, decide_eq_true h.2.1, fun l f hl hf => h.2.2 l f hl (of_decide_eq_true hf)⟩
  unfold notify
  rw [get_bind, look_eq, find_announced_none hunknown, hfind]
  dsimp only [Option.map_some, Option.none_or]
  rw [modify_apply, alter_of_present h.1]

theorem notify_adds (hunknown : Unknown dumpId s) (hidle : Idle s) :
    notify originators dumpId size timeStamp construction s =
      match construction with
      | .done =>
          .ok () { s with
            entries := s.entries.insertIfNew (nextId s)
              (newResource (nextId s) timeStamp size dumpId "" "" .Completed "" originators.Internal)
            lastEntryId := nextId s }
      | .invalidArgument => .ok () { s with reported := s.reported ++ [.internalFailure] }
      | .failed => .error (.error .sdBusError) s := by
  have hfind : s.entries.toList.find? isPending = none :=
    find_iff_absent.mpr fun k e hk => decide_eq_false (hidle k e hk)
  unfold notify
  rw [get_bind, look_eq, find_announced_none hunknown, hfind]
  cases construction <;> rfl

end Loop

section Steps

theorem nextId_eq (h : s.lastEntryId + 1 < 2 ^ 32) : nextId s = s.lastEntryId + 1 := uint32_eq h

theorem free_of_bounded (hs : Settled s) : s.entries[s.lastEntryId + 1]? = none := by
  cases hk : s.entries[s.lastEntryId + 1]? with
  | none => rfl
  | some e =>
      have hle := hs.bounded _ e hk
      omega

/-- Only entries that are there stay, and the counter is left alone. -/
def Shrunk (s t : ResourceDumps) : Prop :=
  t.lastEntryId = s.lastEntryId ∧
    ∀ (k : Nat) (f : ResourceEntry), t.entries[k]? = some f → s.entries[k]? = some f

instance reflShrunk : Std.Refl Shrunk := ⟨fun _ => ⟨rfl, fun _ _ hf => hf⟩⟩

instance transShrunk : IsTrans ResourceDumps Shrunk :=
  ⟨fun _ _ _ hst htu => ⟨htu.1.trans hst.1, fun k f hf => hst.2 k f (htu.2 k f hf)⟩⟩

theorem settled_shrunk (h : Shrunk s t) (hs : Settled s) : Settled t where
  status k e hk := hs.status k e (h.2 k e hk)
  distinct k l e f hk hl := hs.distinct k l e f (h.2 k e hk) (h.2 l f hl)
  bounded k e hk := by
    rw [h.1]
    exact hs.bounded k e (h.2 k e hk)

/-- An entry takes the place of one, or is added behind all, and shares its source id with
no other. -/
theorem settled_insert (hs : Settled s) {f : ResourceEntry} {last : Nat} (hstatus : pending f ∨ completed f)
    (hdistinct : ∀ (l : Nat) (g : ResourceEntry), s.entries[l]? = some g → g.sourceDumpId = f.sourceDumpId →
      f.sourceDumpId ≠ INVALID_SOURCE_ID → l = k)
    (hlast : s.lastEntryId ≤ last) (hk : k ≤ last) :
    Settled { s with entries := s.entries.insert k f, lastEntryId := last } where
  status l g hl := by
    rw [insert_get] at hl
    split at hl
    · cases hl
      exact hstatus
    · exact hs.status l g hl
  distinct l m g g' hl hm hsource hvalid := by
    rw [insert_get] at hl hm
    split at hl
    · rename_i hkl
      cases hl
      split at hm
      · rename_i hkm
        exact hkl.symm.trans hkm
      · exact hkl.symm.trans (hdistinct m g' hm hsource.symm hvalid).symm
    · split at hm
      · rename_i hkm
        cases hm
        exact (hdistinct l g hl hsource (hsource ▸ hvalid)).trans hkm
      · exact hs.distinct l m g g' hl hm hsource hvalid
  bounded l g hl := by
    rw [insert_get] at hl
    split at hl
    · rename_i hkl
      exact hkl ▸ hk
    · exact (hs.bounded l g hl).trans hlast

theorem shrunk_keeps_isHostRunning (reading : Option Bool) : Keeps Shrunk (isHostRunning reading) := by
  cases reading with
  | some running => exact keeps_pure running
  | none => exact keeps_throw _

theorem keeps_delete (readings : Readings) (transport : Transport) (e : ResourceEntry) :
    Keeps Shrunk (delete_ readings transport e) := by
  unfold delete_
  refine keeps_bind ?_ fun _ => keeps_bind (keeps_throwIf _ _) fun _ =>
    keeps_bind (shrunk_keeps_isHostRunning _) fun _ => keeps_bind (keeps_whenever ?_) fun _ => ?_
  · exact keeps_ite (keeps_pure _) (shrunk_keeps_isHostRunning _)
  · exact keeps_bind (keeps_modify fun s => ⟨rfl, fun _ _ hf => hf⟩) fun _ => keeps_throwIf _ _
  · refine keeps_modify fun s => ⟨rfl, fun k f hf => ?_⟩
    rw [erase_get] at hf
    split at hf
    · cases hf
    · exact hf

theorem keeps_deleteAll (readings : Nat → Readings) (transport : Transport) :
    Keeps Shrunk (deleteAll readings transport) := by
  unfold deleteAll
  exact keeps_bind keeps_get fun s => keeps_forM fun x => keeps_delete _ _ x.2

theorem settled_initiateOffload (hs : Settled s) (hk : s.entries[k]? = some e) (reading : Option Bool)
    (transport : Transport) (uri : String) : Settled (final (initiateOffload reading transport k e uri s)) := by
  have hset : Settled { s with entries := s.entries.insert k { e with offloadUri := uri } } :=
    settled_insert hs (hs.status k e hk) (fun l g hl hsource hvalid => hs.distinct l k g e hl hk hsource
      (hsource ▸ hvalid)) le_rfl (hs.bounded k e hk)
  rcases reading with _ | _ | _
  · exact hs
  · exact hs
  · unfold initiateOffload
    cases htransport : transport.requestOffload e.sourceDumpId <;> simpa [isHostRunning, throwIf, htransport] using hset

theorem textParameter_cases (params : DumpCreateParams) (parameter : ResourceParameters) (argumentName : String) :
    (∃ value, textParameter params parameter argumentName s = .ok value s) ∨
      ∃ f, textParameter params parameter argumentName s = .error f s := by
  rw [textParameter]
  rcases params[convertCreateParametersToString parameter]? with _ | value | value
  · exact .inl ⟨"", rfl⟩
  · exact .inl ⟨value, rfl⟩
  · exact .inr ⟨_, rfl⟩

theorem createDump_cases (r : Request) : final (createDump originators r s) = s ∨
    ∃ (vspString pwd originatorId : String) (originatorType : OriginatorTypes),
      final (createDump originators r s) = { s with
        entries := s.entries.insertIfNew (nextId s) (newResource (nextId s) r.timeStamp 0 INVALID_SOURCE_ID
          vspString pwd .InProgress originatorId originatorType)
        lastEntryId := nextId s } := by
  unfold createDump
  rcases r.running with _ | _ | _
  · exact .inl rfl
  · exact .inl rfl
  · have hrunning : isHostRunning (some true) s = .ok true s := rfl
    have hup : throwIf (!true) Failure.notAllowed s = .ok () s := rfl
    rw [bind_of_ok hrunning, bind_of_ok hup]
    rcases @textParameter_cases s r.params .VSPString "VSP_STRING" with ⟨vspString, hvsp⟩ | ⟨f, hvsp⟩
    · rw [bind_of_ok hvsp]
      rcases @textParameter_cases s r.params .Password "PASSWORD" with ⟨pwd, hpwd⟩ | ⟨f, hpwd⟩
      · rw [bind_of_ok hpwd]
        cases extractOriginatorProperties originators r.params with
        | error e => exact .inl rfl
        | ok o =>
            cases r.construction with
            | done => exact .inr ⟨vspString, pwd, o.1, o.2, rfl⟩
            | invalidArgument => exact .inl rfl
            | failed => exact .inl rfl
      · rw [bind_of_error hpwd]
        exact .inl rfl
    · rw [bind_of_error hvsp]
      exact .inl rfl

theorem settled_createDump (hs : Settled s) (hlast : s.lastEntryId + 1 < 2 ^ 32) (r : Request) :
    Settled (final (createDump originators r s)) := by
  rcases @createDump_cases originators s r with h | ⟨vspString, pwd, originatorId, originatorType, h⟩
  · rw [h]
    exact hs
  · rw [h, nextId_eq hlast, insertIfNew_of_absent (free_of_bounded hs)]
    exact settled_insert hs (.inl ⟨rfl, rfl⟩) (fun l g _ _ hvalid => absurd rfl hvalid) (by omega) le_rfl

theorem known_or_unknown (dumpId : Nat) (s : ResourceDumps) :
    (∃ (k : Nat) (e : ResourceEntry), s.entries[k]? = some e ∧ e.sourceDumpId = dumpId) ∨ Unknown dumpId s := by
  by_cases h : Unknown dumpId s
  · exact .inr h
  · simp only [Unknown, not_forall, not_not] at h
    obtain ⟨k, e, hk, hsource⟩ := h
    exact .inl ⟨k, e, hk, hsource⟩

theorem firstPending_or_idle (s : ResourceDumps) : (∃ k e, FirstPending s k e) ∨ Idle s := by
  cases hfind : s.entries.toList.find? isPending with
  | none => exact .inr fun k e hk => of_decide_eq_false (find_iff_absent.mp hfind k e hk)
  | some x =>
      obtain ⟨hk, hpending, hleast⟩ := find_iff_least.mp hfind
      exact .inl ⟨x.1, x.2, hk, of_decide_eq_true hpending, fun l f hl hf => hleast l f hl (decide_eq_true hf)⟩

theorem announced_of_settled (hs : Settled s) (hdumpId : dumpId ≠ INVALID_SOURCE_ID) (hk : s.entries[k]? = some e)
    (hsource : e.sourceDumpId = dumpId) : announced dumpId e := by
  rcases hs.status k e hk with hpending | hcompleted
  · exact absurd (hsource.symm.trans hpending.2) hdumpId
  · exact ⟨hsource, hcompleted.1⟩

theorem notified_of_settled (hs : Settled s) (hlast : s.lastEntryId + 1 < 2 ^ 32)
    (hdumpId : dumpId ≠ INVALID_SOURCE_ID) : Notified originators dumpId size timeStamp construction s where
  known k e hk hsource := notify_known hk (announced_of_settled hs hdumpId hk hsource)
  completes k e hunknown hfirst := notify_completes hunknown hfirst
  adds hunknown hidle hdone := by
    have hfree := free_of_bounded hs
    subst hdone
    rw [notify_adds hunknown hidle, nextId_eq hlast, insertIfNew_of_absent hfree]
    exact ⟨hfree, rfl⟩
  fails hunknown hidle hfails := by
    rw [notify_adds hunknown hidle]
    cases construction with
    | done => exact absurd rfl hfails
    | invalidArgument => rfl
    | failed => rfl

theorem settled_notify (hs : Settled s) (hlast : s.lastEntryId + 1 < 2 ^ 32) (hdumpId : dumpId ≠ INVALID_SOURCE_ID) :
    Settled (final (notify originators dumpId size timeStamp construction s)) := by
  have h : Notified originators dumpId size timeStamp construction s := notified_of_settled hs hlast hdumpId
  rcases known_or_unknown dumpId s with ⟨k, e, hk, hsource⟩ | hunknown
  · rw [h.known k e hk hsource]
    exact hs
  · have honly : ∀ (m l : Nat) (g : ResourceEntry), s.entries[l]? = some g → g.sourceDumpId = dumpId →
        dumpId ≠ INVALID_SOURCE_ID → l = m := fun m l g hl hsource => absurd hsource (hunknown l g hl)
    rcases firstPending_or_idle s with ⟨k, e, hfirst⟩ | hidle
    · rw [h.completes k e hunknown hfirst]
      exact settled_insert hs (.inr ⟨rfl, hdumpId⟩) (honly k) le_rfl (hs.bounded k e hfirst.1)
    · cases construction with
      | done =>
          rw [(h.adds hunknown hidle rfl).2]
          exact settled_insert hs (.inr ⟨rfl, hdumpId⟩) (honly _) (by omega) le_rfl
      | invalidArgument =>
          rw [notify_adds hunknown hidle]
          exact settled_shrunk (s := s) ⟨rfl, fun _ _ hf => hf⟩ hs
      | failed =>
          rw [notify_adds hunknown hidle]
          exact hs

theorem settled_step {ev : Event} (hs : Settled s) (h : Regular s ev) (hstep : step originators s ev = some t) :
    Settled t := by
  cases ev with
  | notify dumpId size timeStamp construction =>
      cases hstep
      exact settled_notify hs h.1 h.2
  | createDump r =>
      cases hstep
      exact settled_createDump hs h r
  | delete readings transport id =>
      obtain ⟨e, -, rfl⟩ := Option.map_eq_some_iff.mp hstep
      exact settled_shrunk (keeps_delete readings transport e s) hs
  | deleteAll readings transport =>
      cases hstep
      exact settled_shrunk (keeps_deleteAll readings transport s) hs
  | initiateOffload running transport id uri =>
      obtain ⟨e, hk, rfl⟩ := Option.map_eq_some_iff.mp hstep
      exact settled_initiateOffload hs hk running transport uri

theorem settled_started : Settled started where
  status k e hk := by cases hk
  distinct k l e f hk := by cases hk
  bounded k e hk := by cases hk

theorem notifiedAt_of_settled {ev : Event} (hs : Settled s) (h : Regular s ev) : NotifiedAt originators s ev := by
  cases ev with
  | notify dumpId size timeStamp construction => exact notified_of_settled hs h.1 h.2
  | createDump | delete | deleteAll | initiateOffload => trivial

/-- Throughout a run the entries are pending or completed with source ids of their own, and
every notification is taken once. -/
theorem consistent_and_notified {es : List Event} (h : EachStep (step originators) Regular started es) :
    Always (step originators) Consistent started es ∧
      EachStep (step originators) (NotifiedAt originators) started es :=
  ⟨always_along (fun _ hs => hs.toConsistent) (fun _ _ _ hs hC => settled_step hs hC) settled_started h,
    eachStep_along (D := NotifiedAt originators) (fun _ _ hs hC => notifiedAt_of_settled hs hC)
      (fun _ _ _ hs hC => settled_step hs hC) settled_started h⟩

theorem consistent_and_notified_once :
    Always (step ⟨[], 0⟩) Consistent started [.createDump ⟨∅, some true, 1000, .done⟩, .notify 5 10 2000 .done,
      .notify 5 20 3000 .done] ∧
    EachStep (step ⟨[], 0⟩) (NotifiedAt ⟨[], 0⟩) started [.createDump ⟨∅, some true, 1000, .done⟩,
      .notify 5 10 2000 .done, .notify 5 20 3000 .done] := by
  refine consistent_and_notified ⟨(by decide : started.lastEntryId + 1 < 2 ^ 32), fun t ht => ?_⟩
  cases ht
  refine ⟨⟨by decide, by decide⟩, fun t ht => ?_⟩
  cases ht
  exact ⟨⟨by decide, by decide⟩, fun _ _ => trivial⟩

end Steps

end DumpCollector.OpenPower.ResourceRuns
