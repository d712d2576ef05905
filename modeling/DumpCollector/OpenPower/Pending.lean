import DumpCollector.OpenPower.Notify

namespace DumpCollector.OpenPower.Pending

open Std Lib.Effects Lib.Maps Lib.Runs FileNames Entries Requests Manager Notify
open State (Construction)

inductive BIOSAttrValueType
  | number (value : Int)
  | text (value : String)
  deriving DecidableEq

/-- The attribute pvm_sys_dump_active, which is absent where its read throws: a failure and
a value of the other type count as no dump in progress. -/
def isSystemDumpInProgress : Option BIOSAttrValueType → Bool
  | some (.text value) => value = "Enabled"
  | some (.number _) => false
  | none => false

structure Call where
  running : Bool
  attrVal : Option BIOSAttrValueType
  event : Event

def Call.answered (c : Call) : Event :=
  match c.event with
  | .createDump r => .createDump { r with dumpInProgress := isSystemDumpInProgress c.attrVal }
  | e => e

def step (originators : OriginatorTable) (s : SystemDumps) (c : Call) : Option SystemDumps :=
  Manager.step originators c.running s c.answered

def started : SystemDumps := ⟨∅, 0, [], []⟩

def AtMostOnePending (s : SystemDumps) : Prop :=
  ∀ (k l : Nat) (e f : SystemEntry), s.entries[k]? = some e → s.entries[l]? = some f →
    e.sourceDumpId = INVALID_SOURCE_ID → f.sourceDumpId = INVALID_SOURCE_ID → k = l

structure Passes (originators : OriginatorTable) (r : Request) (o : String × OriginatorTypes) : Prop where
  idle : r.dumpInProgress = false
  allowed : r.allowed = some true
  originator : extractOriginatorProperties originators r.params = .ok o
  unitStarted : r.unitStarted = true
  constructed : r.construction = .done

/-- A dump that is asked for while one is pending is refused because of the attribute, or
gets no entry for another reason. -/
def Excluded (originators : OriginatorTable) (s : SystemDumps) (c : Call) : Prop :=
  match c.event with
  | .createDump r =>
      ¬ Absent INVALID_SOURCE_ID s → c.attrVal = some (.text "Enabled") ∨ s.entries[nextId s]? ≠ none ∨
        ∀ o, ¬ Passes originators { r with dumpInProgress := false } o
  | _ => True

def NoNewPending (s t : SystemDumps) : Prop :=
  ∀ (k : Nat) (f : SystemEntry), t.entries[k]? = some f → f.sourceDumpId = INVALID_SOURCE_ID →
    ∃ e, s.entries[k]? = some e ∧ e.sourceDumpId = INVALID_SOURCE_ID

instance reflNoNewPending : Std.Refl NoNewPending := ⟨fun _ _ f hf hsource => ⟨f, hf, hsource⟩⟩

instance transNoNewPending : IsTrans SystemDumps NoNewPending :=
  ⟨fun _ _ _ hst htu k g hg hsource => by
    obtain ⟨f, hf, hfsource⟩ := htu k g hg hsource
    exact hst k f hf hfsource⟩

variable {originators : OriginatorTable} {running : Bool} {transport : Transport} {s t : SystemDumps}

theorem atMostOne_of_noNewPending (h : NoNewPending s t) (hs : AtMostOnePending s) : AtMostOnePending t := by
  intro k l f g hf hg hfsource hgsource
  obtain ⟨e, he, hesource⟩ := h k f hf hfsource
  obtain ⟨e', he', hesource'⟩ := h l g hg hgsource
  exact hs k l e e' he he' hesource hesource'

theorem noNewPending_erase (id : Nat) : NoNewPending s { s with entries := s.entries.erase id } := by
  intro k f hf hsource
  rw [erase_get] at hf
  split at hf
  · cases hf
  · exact ⟨f, hf, hsource⟩

theorem keeps_delete (e : SystemEntry) : Keeps NoNewPending (delete_ running transport e) := by
  unfold delete_
  refine keeps_bind (keeps_throwIf _ _) fun _ => keeps_bind (keeps_whenever ?_) fun _ => ?_
  · exact keeps_bind (keeps_modify fun s => fun k f hf hsource => ⟨f, hf, hsource⟩) fun _ => keeps_throwIf _ _
  · exact keeps_modify fun s => noNewPending_erase _

theorem keeps_deleteAll : Keeps NoNewPending (deleteAll running transport) := by
  unfold deleteAll
  exact keeps_bind keeps_get fun s => keeps_forM fun x => keeps_delete x.2

theorem noNewPending_initiateOffload {id : Nat} {e : SystemEntry} (uri : String) (he : s.entries[id]? = some e) :
    NoNewPending s (final (initiateOffload transport id e uri s)) := by
  have hset : NoNewPending s { s with entries := s.entries.insert id { e with offloadUri := uri } } := by
    intro k f hf hsource
    rw [insert_get] at hf
    split at hf
    · rename_i hk
      subst hk
      cases hf
      exact ⟨e, he, hsource⟩
    · exact ⟨f, hf, hsource⟩
  unfold initiateOffload
  rw [modify_bind]
  exact trans_of NoNewPending hset (keeps_throwIf _ _ _)

theorem reply_some {r : EStateM.Result Failure SystemDumps Unit} (h : reply r = some t) : final r = t := by
  cases r with
  | ok a u => exact Option.some.inj h
  | error f u =>
      cases f with
      | freedEntry => cases h
      | error e => exact Option.some.inj h
      | notAllowed => exact Option.some.inj h

section Notify

variable {dumpId size timeStamp : Nat} {construction : Construction}

theorem atMostOne_updatedAt {k : Nat} {e : SystemEntry} (hk : s.entries[k]? = some e)
    (hsource : e.sourceDumpId = dumpId ∨ e.sourceDumpId = INVALID_SOURCE_ID) (hs : AtMostOnePending s) :
    AtMostOnePending (updatedAt timeStamp size dumpId k s) := by
  refine atMostOne_of_noNewPending (fun l f hf hpending => ?_) hs
  rcases updatedAt_get_cases hk hf with ⟨rfl, rfl⟩ | ⟨-, hf⟩
  · exact ⟨e, hk, hsource.elim (fun h => h.trans hpending) id⟩
  · exact ⟨f, hf, hpending⟩

theorem atMostOne_added (hpending : Absent INVALID_SOURCE_ID s) :
    AtMostOnePending (added originators timeStamp size dumpId s) := by
  intro k l f g hf hg hfsource hgsource
  rcases added_get_cases hf with hf | ⟨rfl, -, -⟩
  · exact absurd hfsource (hpending k f hf)
  · rcases added_get_cases hg with hg | ⟨rfl, -, -⟩
    · exact absurd hgsource (hpending l g hg)
    · rfl

/-- A notification never makes a second entry pending, whatever source id it announces. -/
theorem atMostOne_notify (hs : AtMostOnePending s)
    (h : reply (notify originators running transport dumpId size timeStamp construction s) = some t) :
    AtMostOnePending t := by
  rcases first_or_absent dumpId s with ⟨k, e, hfirst⟩ | habsent
  · by_cases hsize : e.base.size = size
    · rw [notify_duplicate hfirst hsize] at h
      split at h
      · cases h
        exact hs
      · cases h
        exact atMostOne_updatedAt hfirst.1 (.inl hfirst.2.1) hs
    · rw [notify_stale hfirst hsize] at h
      have hkeeps : Keeps NoNewPending (do delete_ running transport e; throw .freedEntry : SystemOp Unit) :=
        keeps_bind (keeps_delete e) fun _ => keeps_throw _
      rw [← reply_some h]
      exact atMostOne_of_noNewPending (hkeeps s) hs
  · rcases first_or_absent INVALID_SOURCE_ID s with ⟨k, e, hfirst⟩ | hpending
    · rw [notify_pending habsent hfirst] at h
      cases h
      exact atMostOne_updatedAt hfirst.1 (.inr hfirst.2.1) hs
    · rw [notify_new habsent hpending] at h
      cases construction with
      | done =>
          cases h
          exact atMostOne_added hpending
      | invalidArgument =>
          cases h
          exact hs
      | failed =>
          cases h
          exact hs

end Notify

section CreateDump

variable {r : Request}

def pendingAdded (timeStamp : Nat) (o : String × OriginatorTypes) (s : SystemDumps) : SystemDumps :=
  { s with
    entries := s.entries.insertIfNew (nextId s)
      (newEntry (nextId s) timeStamp 0 INVALID_SOURCE_ID .InProgress o.1 o.2)
    lastEntryId := nextId s }

theorem createDump_passes {o : String × OriginatorTypes} (h : Passes originators r o) :
    createDump originators r s = .ok () (pendingAdded r.timeStamp o s) := by
  unfold createDump
  rw [h.idle, h.allowed, h.originator, h.unitStarted, h.constructed]
  rfl

theorem createDump_refused (h : ∀ o, ¬ Passes originators r o) : reply (createDump originators r s) = some s := by
  unfold createDump
  cases hidle : r.dumpInProgress with
  | true => rfl
  | false =>
      rcases hallowed : r.allowed with _ | _ | _
      · rfl
      · rfl
      · cases horiginator : extractOriginatorProperties originators r.params with
        | error e => rfl
        | ok o =>
            cases hstarted : r.unitStarted with
            | false => rfl
            | true =>
                cases hconstructed : r.construction with
                | done => exact absurd ⟨hidle, hallowed, horiginator, hstarted, hconstructed⟩ (h o)
                | invalidArgument => rfl
                | failed => rfl

theorem pendingAdded_get_cases {timeStamp l : Nat} {o : String × OriginatorTypes} {f : SystemEntry}
    (hl : (pendingAdded timeStamp o s).entries[l]? = some f) :
    s.entries[l]? = some f ∨ nextId s = l ∧ s.entries[l]? = none ∧
      f = newEntry (nextId s) timeStamp 0 INVALID_SOURCE_ID .InProgress o.1 o.2 :=
  insertIfNew_cases hl

theorem atMostOne_pendingAdded {timeStamp : Nat} {o : String × OriginatorTypes} (hs : AtMostOnePending s) :
    AtMostOnePending (pendingAdded timeStamp o s) ↔
      (¬ Absent INVALID_SOURCE_ID s → s.entries[nextId s]? ≠ none) := by
  constructor
  · intro h hpending hfree
    refine hpending fun k e hk hsource => ?_
    have hget : ∀ l : Nat, (pendingAdded timeStamp o s).entries[l]? =
        if nextId s = l then some (newEntry (nextId s) timeStamp 0 INVALID_SOURCE_ID .InProgress o.1 o.2)
        else s.entries[l]? := by
      intro l
      rw [pendingAdded, insertIfNew_of_absent hfree, insert_get]
    have hne : nextId s ≠ k := by
      rintro rfl
      rw [hfree] at hk
      cases hk
    have hk' := (hget k).trans ((if_neg hne).trans hk)
    exact hne (h _ _ _ _ ((hget _).trans (if_pos rfl)) hk' rfl hsource)
  · intro h
    by_cases hpending : Absent INVALID_SOURCE_ID s
    · intro k l f g hf hg hfsource hgsource
      rcases pendingAdded_get_cases hf with hf | ⟨rfl, -, -⟩
      · exact absurd hfsource (hpending k f hf)
      · rcases pendingAdded_get_cases hg with hg | ⟨rfl, -, -⟩
        · exact absurd hgsource (hpending l g hg)
        · rfl
    · refine atMostOne_of_noNewPending (fun k f hf hsource => ?_) hs
      rcases pendingAdded_get_cases hf with hf | ⟨rfl, hfree, -⟩
      · exact ⟨f, hf, hsource⟩
      · exact absurd hfree (h hpending)

theorem passes_answered {o : String × OriginatorTypes} {attrVal : Option BIOSAttrValueType} :
    Passes originators { r with dumpInProgress := isSystemDumpInProgress attrVal } o ↔
      attrVal ≠ some (.text "Enabled") ∧ Passes originators { r with dumpInProgress := false } o := by
  have hprogress : isSystemDumpInProgress attrVal = false ↔ attrVal ≠ some (.text "Enabled") := by
    rcases attrVal with _ | _ | value <;> simp [isSystemDumpInProgress]
  constructor
  · intro h
    exact ⟨hprogress.mp h.idle, rfl, h.allowed, h.originator, h.unitStarted, h.constructed⟩
  · rintro ⟨hattrVal, h⟩
    exact ⟨hprogress.mpr hattrVal, h.allowed, h.originator, h.unitStarted, h.constructed⟩

theorem atMostOne_createDump {attrVal : Option BIOSAttrValueType} (hs : AtMostOnePending s)
    (h : reply (createDump originators { r with dumpInProgress := isSystemDumpInProgress attrVal } s) = some t) :
    AtMostOnePending t ↔ (¬ Absent INVALID_SOURCE_ID s → attrVal = some (.text "Enabled") ∨
      s.entries[nextId s]? ≠ none ∨ ∀ o, ¬ Passes originators { r with dumpInProgress := false } o) := by
  by_cases hpasses : ∃ o, Passes originators { r with dumpInProgress := isSystemDumpInProgress attrVal } o
  · obtain ⟨o, ho⟩ := hpasses
    obtain ⟨hattrVal, ho'⟩ := passes_answered.mp ho
    rw [createDump_passes ho] at h
    cases h
    rw [atMostOne_pendingAdded hs]
    refine imp_congr_right fun _ => ⟨fun hfree => .inr (.inl hfree), ?_⟩
    rintro (h | hfree | hnone)
    · exact absurd h hattrVal
    · exact hfree
    · exact absurd ho' (hnone o)
  · rw [createDump_refused (not_exists.mp hpasses)] at h
    cases h
    refine iff_of_true hs fun _ => ?_
    by_cases hattrVal : attrVal = some (.text "Enabled")
    · exact .inl hattrVal
    · exact .inr (.inr fun o ho => hpasses ⟨o, passes_answered.mpr ⟨hattrVal, ho⟩⟩)

end CreateDump

theorem atMostOne_step {c : Call} (hs : AtMostOnePending s) (h : step originators s c = some t) :
    AtMostOnePending t ↔ Excluded originators s c := by
  obtain ⟨running, attrVal, event⟩ := c
  cases event with
  | createDump r => exact atMostOne_createDump hs h
  | notify transport dumpId size timeStamp construction => exact iff_of_true (atMostOne_notify hs h) trivial
  | delete transport id =>
      obtain ⟨e, -, h⟩ := Option.bind_eq_some_iff.mp h
      rw [← reply_some h]
      exact iff_of_true (atMostOne_of_noNewPending (keeps_delete e s) hs) trivial
  | deleteAll transport =>
      rw [← reply_some h]
      exact iff_of_true (atMostOne_of_noNewPending (keeps_deleteAll s) hs) trivial
  | initiateOffload transport id uri =>
      obtain ⟨e, he, h⟩ := Option.bind_eq_some_iff.mp h
      rw [← reply_some h]
      exact iff_of_true (atMostOne_of_noNewPending (noNewPending_initiateOffload uri he) hs) trivial

theorem atMostOne_started : AtMostOnePending started := by
  intro k l e f he
  cases he

/-- At most one entry is pending throughout a run exactly if the attribute keeps every
further dump from getting one. -/
theorem atMostOne_iff_excluded {cs : List Call} (hrun : run (step originators) started cs = some t) :
    Always (step originators) AtMostOnePending started cs ↔
      EachStep (step originators) (Excluded originators) started cs :=
  always_iff_eachStep (J := fun _ => True) (fun _ _ _ _ _ => trivial) (fun _ _ _ _ hs h => atMostOne_step hs h)
    hrun trivial atMostOne_started

private def userDump (attrVal : Option BIOSAttrValueType) : Call :=
  ⟨true, attrVal, .createDump ⟨∅, true, some true, true, 1000, .done⟩⟩

theorem atMostOne_enabled :
    Always (step ⟨[], 0⟩) AtMostOnePending started [userDump (some (.text "Disabled")),
      userDump (some (.text "Enabled"))] := by
  have hrun : ∃ t, run (step ⟨[], 0⟩) started [userDump (some (.text "Disabled")),
      userDump (some (.text "Enabled"))] = some t := ⟨_, rfl⟩
  obtain ⟨t, hrun⟩ := hrun
  refine (atMostOne_iff_excluded hrun).mpr ⟨fun h => ?_, fun u hu => ⟨fun _ => .inl rfl, fun _ _ => trivial⟩⟩
  exact absurd (fun k e hk => by cases hk) h

/-- The attribute cannot be read, and two dumps that the user asks for are both pending. -/
theorem two_pending : ¬ Always (step ⟨[], 0⟩) AtMostOnePending started [userDump none, userDump none] := by
  rintro ⟨-, h⟩
  have hpair := h _ rfl
  have hone : AtMostOnePending _ := hpair.2 _ rfl
  have hkeys : 1 = 2 := hone 1 2 _ _ rfl rfl rfl rfl
  cases hkeys

end DumpCollector.OpenPower.Pending
