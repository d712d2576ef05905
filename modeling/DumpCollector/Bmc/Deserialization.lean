import DumpCollector.Bmc.Recall

namespace DumpCollector.Bmc.Deserialization

open Std Lib.Directory Lib.Maps Entries JsonText Requests State Bmc.Manager Bmc.Recall Bmc.Restore

structure Stored where
  originatorId : String
  originatorType : OriginatorTypes
  startTime : Nat

def Stored.setIn (p : Stored) (e : BmcEntry) : BmcEntry :=
  { e with base := { e.base with
      originatorId := p.originatorId
      originatorType := p.originatorType
      startTime := p.startTime } }

/-- The document is one of the entry with the id, and it has the properties in their types. -/
structure WellTyped (j : Json) (id : Nat) (p : Stored) : Prop where
  version : j.at "version" = .ok (.integer CLASS_SERIALIZATION_VERSION)
  dumpId : j.at "dumpId" = .ok (.integer id)
  originatorId : j.at "originatorId" = .ok (.string p.originatorId)
  originatorType : j.at "originatorType" = .ok (.integer p.originatorType.toInt)
  startTime : j.at "startTime" = .ok (.integer p.startTime)
  inRange : p.startTime < 2 ^ 64

def AllOrNothing (doc : Option Content) (e e' : BmcEntry) : Prop :=
  (∃ size j p, doc = some ⟨size, some j⟩ ∧ WellTyped j e.base.id p ∧ e' = p.setIn e) ∨ e' = e

def Repeats (j : Json) (b : Entry) : Prop :=
  ∀ originatorId, (j.subscript "originatorId" >>= Json.getString) = .ok originatorId →
    originatorId = b.originatorId ∧
  ∀ originatorType, (j.subscript "originatorType" >>= Json.getEnum) = .ok originatorType →
    originatorType = b.originatorType ∧
  ∀ startTime, (j.subscript "startTime" >>= Json.getNumberUnsigned) = .ok startTime → startTime = b.startTime

def Faultless (doc : Option Content) (e : BmcEntry) : Prop :=
  ∀ size j, doc = some ⟨size, some j⟩ → Belongs j e.base.id →
    (∃ p, WellTyped j e.base.id p) ∨ Repeats j e.base

variable {j v : Json} {key : String} {e : BmcEntry} {p : Stored} {s : BmcDaemon}

theorem subscript_of_at (h : j.at key = .ok v) : j.subscript key = .ok v := by
  cases j with
  | object members =>
      rw [Json.at] at h
      rw [Json.subscript]
      cases hvalue : members.lookup key with
      | none =>
          rw [hvalue] at h
          cases h
      | some value =>
          rw [hvalue] at h
          exact h
  | _ => cases h

theorem deserializeFrom_wellTyped (h : WellTyped j e.base.id p) : deserializeFrom j e = p.setIn e := by
  have horiginator : (j.subscript "originatorId" >>= Json.getString) = .ok p.originatorId := by
    rw [subscript_of_at h.originatorId]
    rfl
  have htype : (j.subscript "originatorType" >>= Json.getEnum) = .ok p.originatorType := by
    rw [subscript_of_at h.originatorType]
    exact congrArg Except.ok (Int32.ofInt_toInt p.originatorType)
  have hstart : (j.subscript "startTime" >>= Json.getNumberUnsigned) = .ok p.startTime := by
    rw [subscript_of_at h.startTime]
    exact congrArg Except.ok ((Int.toNat_natCast (p.startTime % 2 ^ 64)).trans (Nat.mod_eq_of_lt h.inRange))
  rw [deserializeFrom, horiginator]
  dsimp only
  rw [htype]
  dsimp only
  rw [hstart]
  rfl

/-- The properties are set one after the other, so an entry stays as it is exactly if
every one that is set was there before. -/
theorem deserializeFrom_eq_self_iff : deserializeFrom j e = e ↔ Repeats j e.base := by
  obtain ⟨⟨id, _, _, size, status, elapsed, _, completed, file⟩, progress, timer, group⟩ := e
  rw [deserializeFrom, Repeats]
  cases j.subscript "originatorId" >>= Json.getString with
  | error x => simp
  | ok originatorId =>
      cases j.subscript "originatorType" >>= Json.getEnum with
      | error x => simp
      | ok originatorType =>
          cases j.subscript "startTime" >>= Json.getNumberUnsigned with
          | error x => simp
          | ok startTime => simp

theorem deserializeDocument_allOrNothing_iff {size : Nat} {dir : Path} :
    AllOrNothing (some ⟨size, some j⟩) e (deserializeDocument j dir e s).1 ↔ Faultless (some ⟨size, some j⟩) e := by
  by_cases hown : Belongs j e.base.id
  · rw [deserializeDocument_own hown]
    constructor
    · rintro (⟨size', j', p, hdoc, hp, -⟩ | hsame) size'' j'' hdoc' -
      · cases hdoc
        cases hdoc'
        exact .inl ⟨p, hp⟩
      · cases hdoc'
        exact .inr (deserializeFrom_eq_self_iff.mp hsame)
    · intro h
      rcases h size j rfl hown with ⟨p, hp⟩ | hrepeats
      · exact .inl ⟨size, j, p, rfl, hp, deserializeFrom_wellTyped hp⟩
      · exact .inr (deserializeFrom_eq_self_iff.mpr hrepeats)
  · refine ⟨fun _ size' j' hdoc hown' => ?_, fun _ => .inr (deserializeDocument_foreign hown)⟩
    cases hdoc
    exact absurd hown' hown

/-- A document is read back as a whole, or not at all, exactly if it is not one of the
entry, has all its properties in their types, or repeats what the entry has. -/
theorem deserialize_allOrNothing_iff (dumpPath : Path) (e : BmcEntry) (s : BmcDaemon) :
    ∃ e' t, deserialize dumpPath e s = .ok e' t ∧
      (AllOrNothing (s.disk.content (dumpPath ++ [PRESERVE, SERIAL_FILE])) e e' ↔
        Faultless (s.disk.content (dumpPath ++ [PRESERVE, SERIAL_FILE])) e) := by
  refine ⟨_, _, deserialize_eq dumpPath e s, ?_⟩
  rw [loaded]
  rcases s.disk.content (dumpPath ++ [PRESERVE, SERIAL_FILE]) with _ | ⟨size, _ | j⟩
  · exact ⟨fun _ size j hdoc => (by cases hdoc), fun _ => .inr rfl⟩
  · exact ⟨fun _ size j hdoc => (by cases hdoc), fun _ => .inr rfl⟩
  · exact deserializeDocument_allOrNothing_iff

section HalfApplied

def illTyped : Json :=
  .object [("dumpId", .integer 1), ("originatorId", .string "client"), ("originatorType", .string "Client"),
    ("startTime", .integer 7), ("version", .integer 1)]

def dump : BmcEntry := create 1 5 10 (some ["1", "obmcdump_1_5.tar.xz"]) .Completed "" 0 0

def holding (doc : Json) : BmcDaemon :=
  bare ⟨false⟩ (((FileTree.root.mkdir [] "1").mkdir ["1"] PRESERVE).write ["1", PRESERVE] SERIAL_FILE
    ⟨doc.dump.utf8ByteSize, some doc⟩)

/-- The entry gets the originator of the record and keeps the rest. -/
theorem deserialize_half :
    (∃ e' t, deserialize ["1"] dump (holding illTyped) = .ok e' t ∧ e'.base.originatorId = "client" ∧
      e'.base.startTime = dump.base.startTime) ∧
    ¬∃ e' t, deserialize ["1"] dump (holding illTyped) = .ok e' t ∧
      AllOrNothing ((holding illTyped).disk.content ["1", PRESERVE, SERIAL_FILE]) dump e' := by
  have hcontent : (holding illTyped).disk.content ["1", PRESERVE, SERIAL_FILE] =
      some ⟨illTyped.dump.utf8ByteSize, some illTyped⟩ := rfl
  have hloaded : deserialize ["1"] dump (holding illTyped) =
      .ok { dump with base := { dump.base with originatorId := "client" } } (holding illTyped) := rfl
  refine ⟨⟨_, _, hloaded, rfl, rfl⟩, ?_⟩
  rintro ⟨e', t, hread, hall⟩
  rw [hloaded] at hread
  cases hread
  rcases hall with ⟨size, j, p, hdoc, hp, -⟩ | hsame
  · rw [hcontent] at hdoc
    cases hdoc
    cases hp.originatorType
  · exact absurd (congrArg (fun e => e.base.originatorId) hsame) (by decide)

end HalfApplied

end DumpCollector.Bmc.Deserialization
