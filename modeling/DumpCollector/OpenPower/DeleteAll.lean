import DumpCollector.Lib.Sweep
import DumpCollector.OpenPower.Pending
import DumpCollector.OpenPower.ResourceRuns

namespace DumpCollector.OpenPower.DeleteAll

open Std Lib.Effects Lib.Maps Lib.Runs Lib.Sweep Manager Resource Pending ResourceRuns

section Methods

variable {σ : Type}

def readHost (reading : Option Bool) : EStateM Failure σ Bool :=
  match reading with
  | some running => pure running
  | none => throw (.error .sdBusError)

def readOffload (readings : Readings) (offloadUri : String) : EStateM Failure σ Bool :=
  if offloadUri = "" then pure false else readHost readings.first

/-- The method delete_ of both entries, with the call to the host and the removal of the
entry. The host is read each time that it is asked for. -/
def deleteEntry (readings : Readings) (offloadUri : String) (sourceDumpId : Nat)
    (requestDelete erase : EStateM Failure σ Unit) : EStateM Failure σ Unit := do
  let offloadInProgress ← readOffload readings offloadUri
  throwIf offloadInProgress (.error .unavailable)
  let running ← readHost readings.second
  whenever (running && sourceDumpId ≠ INVALID_SOURCE_ID) requestDelete
  erase

def deleteSystem (readings : Readings) (transport : Transport) (e : SystemEntry) : SystemOp Unit :=
  deleteEntry readings e.offloadUri e.sourceDumpId (Manager.requestDelete transport e.sourceDumpId) (erase e.base.id)

def deleteAllSystem (readings : Nat → Readings) (transport : Transport) : SystemOp Unit := do
  let s ← get
  forM s.entries.toList fun x => deleteSystem (readings x.1) transport x.2

theorem deleteSystem_steady (running : Bool) (transport : Transport) (e : SystemEntry) :
    deleteSystem ⟨some running, some running⟩ transport e = Manager.delete_ running transport e := by
  rw [deleteSystem, deleteEntry, readOffload, Manager.delete_]
  by_cases huri : e.offloadUri = ""
  · simp [huri, readHost, throwIf]
  · simp [huri, readHost]

theorem deleteAllSystem_steady (running : Bool) (transport : Transport) :
    deleteAllSystem (fun _ => ⟨some running, some running⟩) transport = Manager.deleteAll running transport := by
  rw [deleteAllSystem, Manager.deleteAll]
  simp only [deleteSystem_steady]

theorem deleteResource_eq (readings : Readings) (transport : Transport) (e : ResourceEntry) :
    Resource.delete_ readings transport e =
      deleteEntry readings e.offloadUri e.sourceDumpId (Resource.requestDelete transport e.sourceDumpId)
        (modify fun s => { s with entries := s.entries.erase e.base.id }) := rfl

end Methods

/-- The deletion goes through: no offload is in progress, and the host, where it is up and
knows the dump, can be asked to delete it. -/
def Deletable (readings : Readings) (transport : Transport) (offloadUri : String) (sourceDumpId : Nat) : Prop :=
  (offloadUri = "" ∨ readings.first = some false) ∧
    (readings.second = some false ∨
      readings.second = some true ∧
        (sourceDumpId = INVALID_SOURCE_ID ∨ transport.requestDelete sourceDumpId = true))

section Entries

variable {σ β : Type} {entries : σ → ExtTreeMap Nat β} {readings : Readings} {transport : Transport}
  {offloadUri : String} {sourceDumpId k : Nat} {requestDelete erase : EStateM Failure σ Unit}

structure Asks (entries : σ → ExtTreeMap Nat β) (accepted : Bool) (requestDelete : EStateM Failure σ Unit) : Prop where
  sent : accepted = true → ∀ s, ∃ t, requestDelete s = .ok () t ∧ entries t = entries s
  refused : accepted = false → ∀ s, ∃ e t, requestDelete s = .error e t ∧ entries t = entries s

theorem asks_modify {f : σ → σ} (hf : ∀ s, entries (f s) = entries s) (accepted : Bool) (e : Failure) :
    Asks entries accepted (do modify f; throwIf (!accepted) e) := by
  constructor
  · intro haccepted s
    refine ⟨f s, ?_, hf s⟩
    rw [modify_bind, haccepted]
    rfl
  · intro hrefused s
    refine ⟨e, f s, ?_, hf s⟩
    rw [modify_bind, hrefused]
    rfl

theorem deleteEntry_idle (h : offloadUri = "" ∨ readings.first = some false) :
    deleteEntry readings offloadUri sourceDumpId requestDelete erase = (do
      let running ← readHost readings.second
      whenever (running && sourceDumpId ≠ INVALID_SOURCE_ID) requestDelete
      erase) := by
  have hread : (readOffload readings offloadUri : EStateM Failure σ Bool) = pure false := by
    rw [readOffload]
    rcases h with huri | hfirst
    · rw [if_pos huri]
    · rw [hfirst]
      split <;> rfl
  rw [deleteEntry, hread]
  rfl

theorem deleteEntry_offloading (h : ¬(offloadUri = "" ∨ readings.first = some false)) (sourceDumpId : Nat)
    (requestDelete erase : EStateM Failure σ Unit) (s : σ) :
    ∃ e, deleteEntry readings offloadUri sourceDumpId requestDelete erase s = .error e s := by
  obtain ⟨huri, hfirst⟩ := not_or.mp h
  rw [deleteEntry, readOffload, if_neg huri]
  rcases hreading : readings.first with _ | _ | _
  · exact ⟨.error .sdBusError, rfl⟩
  · exact absurd hreading hfirst
  · exact ⟨.error .unavailable, rfl⟩

theorem deleteEntry_unasked (hidle : offloadUri = "" ∨ readings.first = some false)
    (h : readings.second = some false ∨ readings.second = some true ∧ sourceDumpId = INVALID_SOURCE_ID) :
    deleteEntry readings offloadUri sourceDumpId requestDelete erase = erase := by
  rw [deleteEntry_idle hidle]
  rcases h with hdown | ⟨hup, hinvalid⟩
  · rw [hdown]
    rfl
  · rw [hup, hinvalid]
    rfl

theorem deleteEntry_asked (hidle : offloadUri = "" ∨ readings.first = some false) (hup : readings.second = some true)
    (hvalid : sourceDumpId ≠ INVALID_SOURCE_ID) :
    deleteEntry readings offloadUri sourceDumpId requestDelete erase = requestDelete >>= fun _ => erase := by
  rw [deleteEntry_idle hidle, hup, decide_eq_true hvalid]
  rfl

theorem deleteEntry_removes {p : Nat × β → Prop} {x : Nat × β}
    (hp : p x ↔ Deletable readings transport offloadUri sourceDumpId)
    (hasks : Asks entries (transport.requestDelete sourceDumpId) requestDelete)
    (herase : ∀ s, ∃ t, erase s = .ok () t ∧ entries t = (entries s).erase x.1) :
    Removes entries p (deleteEntry readings offloadUri sourceDumpId requestDelete erase) x := by
  constructor
  · intro hx s
    obtain ⟨hidle, hdown | ⟨hup, hsource⟩⟩ := hp.mp hx
    · rw [deleteEntry_unasked hidle (.inl hdown)]
      exact herase s
    · by_cases hinvalid : sourceDumpId = INVALID_SOURCE_ID
      · rw [deleteEntry_unasked hidle (.inr ⟨hup, hinvalid⟩)]
        exact herase s
      · obtain ⟨t, hsent, hsame⟩ := hasks.sent (hsource.resolve_left hinvalid) s
        obtain ⟨u, hok, hu⟩ := herase t
        refine ⟨u, ?_, hu.trans (congrArg (ExtTreeMap.erase · x.1) hsame)⟩
        rw [deleteEntry_asked hidle hup hinvalid, bind_of_ok hsent, hok]
  · intro hx s
    have hfails := mt hp.mpr hx
    by_cases hidle : offloadUri = "" ∨ readings.first = some false
    · rcases hreading : readings.second with _ | _ | _
      · rw [deleteEntry_idle hidle, hreading]
        exact ⟨.error .sdBusError, s, rfl, rfl⟩
      · exact absurd ⟨hidle, .inl hreading⟩ hfails
      · have hsource : ¬(sourceDumpId = INVALID_SOURCE_ID ∨ transport.requestDelete sourceDumpId = true) :=
          fun hsource => hfails ⟨hidle, .inr ⟨hreading, hsource⟩⟩
        obtain ⟨hvalid, hrefused⟩ := not_or.mp hsource
        obtain ⟨e, t, herror, hsame⟩ := hasks.refused (Bool.eq_false_iff.mpr hrefused) s
        refine ⟨e, t, ?_, hsame⟩
        rw [deleteEntry_asked hidle hreading hvalid, bind_of_error herror]
    · obtain ⟨e, herror⟩ := deleteEntry_offloading hidle sourceDumpId requestDelete erase s
      exact ⟨e, s, herror, rfl⟩

end Entries

section Keyed

variable {σ β : Type} {idOf : β → Nat} {m : ExtTreeMap Nat β} {k : Nat} {v : β}

def Keyed (idOf : β → Nat) (m : ExtTreeMap Nat β) : Prop := ∀ (k : Nat) (v : β), m[k]? = some v → idOf v = k

theorem keyed_empty (idOf : β → Nat) : Keyed idOf ∅ := by
  intro k v hv
  rw [ExtTreeMap.getElem?_empty] at hv
  cases hv

theorem keyed_erase (h : Keyed idOf m) (k : Nat) : Keyed idOf (m.erase k) := by
  intro l v hv
  rw [erase_get] at hv
  split at hv
  · cases hv
  · exact h l v hv

theorem keyed_insert (h : Keyed idOf m) (hv : idOf v = k) : Keyed idOf (m.insert k v) := by
  intro l w hw
  rw [insert_get] at hw
  split at hw
  · rename_i hkl
    cases hw
    exact hv.trans hkl
  · exact h l w hw

theorem keyed_insertIfNew (h : Keyed idOf m) (hv : idOf v = k) : Keyed idOf (m.insertIfNew k v) := by
  intro l w hw
  rcases insertIfNew_cases hw with hw | ⟨hk, -, rfl⟩
  · exact h l w hw
  · exact hv.trans hk

theorem keyed_alter {f : β → β} (h : Keyed idOf m) (hf : ∀ v, idOf (f v) = idOf v) (k : Nat) :
    Keyed idOf (m.alter k (Option.map f)) := by
  intro l w hw
  rw [alter_get] at hw
  split at hw
  · rename_i hkl
    subst hkl
    obtain ⟨v, hv, rfl⟩ := Option.map_eq_some_iff.mp hw
    exact (hf v).trans (h k v hv)
  · exact h l w hw

def Maintains (idOf : β → Nat) (entries : σ → ExtTreeMap Nat β) (s t : σ) : Prop :=
  Keyed idOf (entries s) → Keyed idOf (entries t)

variable (entries : σ → ExtTreeMap Nat β)

instance reflMaintains : Std.Refl (Maintains idOf entries) := ⟨fun _ h => h⟩

instance transMaintains : IsTrans σ (Maintains idOf entries) := ⟨fun _ _ _ h k => k ∘ h⟩

end Keyed

section SystemRuns

variable {originators : Requests.OriginatorTable} {running : Bool}

def systemId (e : SystemEntry) : Nat := e.base.id

abbrev MaintainsSystem : SystemDumps → SystemDumps → Prop := Maintains systemId SystemDumps.entries

theorem maintains_delete (transport : Transport) (e : SystemEntry) :
    Keeps MaintainsSystem (Manager.delete_ running transport e) := by
  unfold Manager.delete_
  refine keeps_bind (keeps_throwIf _ _) fun _ => keeps_bind (keeps_whenever ?_) fun _ => ?_
  · exact keeps_bind (keeps_modify fun _ => id) fun _ => keeps_throwIf _ _
  · exact keeps_modify fun _ h => keyed_erase h _

theorem maintains_deleteAll (transport : Transport) :
    Keeps MaintainsSystem (Manager.deleteAll running transport) := by
  unfold Manager.deleteAll
  exact keeps_bind keeps_get fun s => keeps_forM fun x => maintains_delete transport x.2

theorem maintains_addEntry {e : Nat → SystemEntry} (he : ∀ id, systemId (e id) = id) :
    Keeps MaintainsSystem (Manager.addEntry e) :=
  keeps_modify fun _ h => keyed_insertIfNew h (he _)

theorem maintains_look (transport : Transport) (dumpId size : Nat) (xs : List (Nat × SystemEntry))
    (upEntry : Option Nat) :
    Keeps MaintainsSystem (Manager.look running transport dumpId size upEntry xs) := by
  induction xs generalizing upEntry with
  | nil => exact keeps_pure _
  | cons x xs ih =>
      obtain ⟨key, e⟩ := x
      unfold Manager.look
      refine keeps_ite (keeps_ite (keeps_pure _) (keeps_pure _)) (keeps_ite ?_ (keeps_ite (ih _) (ih _)))
      exact keeps_bind (maintains_delete transport e) fun _ => keeps_throw _

theorem maintains_notify (transport : Transport) (dumpId size timeStamp : Nat) (construction : State.Construction) :
    Keeps MaintainsSystem (Manager.notify originators running transport dumpId size timeStamp construction) := by
  unfold Manager.notify
  refine keeps_bind keeps_get fun s => keeps_bind (maintains_look transport dumpId size _ _) fun looked => ?_
  rcases looked with _ | _ | key
  · exact keeps_pure ()
  · cases construction with
    | done => exact maintains_addEntry fun _ => rfl
    | invalidArgument => exact keeps_modify fun _ => id
    | failed => exact keeps_throw _
  · exact keeps_modify fun _ h => keyed_alter (f := updated timeStamp size dumpId) h (fun _ => rfl) key

theorem maintains_createDump (r : Manager.Request) : Keeps MaintainsSystem (Manager.createDump originators r) := by
  unfold Manager.createDump
  refine keeps_bind (keeps_throwIf _ _) fun _ => ?_
  rcases r.allowed with _ | _ | _
  · exact keeps_pure ()
  · exact keeps_throw _
  · refine keeps_bind (keeps_fromExcept _) fun _ => keeps_bind (keeps_throwIf _ _) fun _ => ?_
    cases r.construction with
    | done => exact maintains_addEntry fun _ => rfl
    | invalidArgument => exact keeps_throw _
    | failed => exact keeps_throw _

theorem keyed_system_initiateOffload {s : SystemDumps} {transport : Transport} {id : Nat} {e : SystemEntry}
    {uri : String} (hs : Keyed systemId s.entries) (he : s.entries[id]? = some e) :
    Keyed systemId (final (Manager.initiateOffload transport id e uri s)).entries := by
  have hset : Keyed systemId (s.entries.insert id { e with offloadUri := uri }) := keyed_insert hs (hs id e he)
  unfold Manager.initiateOffload
  rw [modify_bind]
  exact keeps_throwIf (R := MaintainsSystem) _ _ _ hset

theorem keyed_system_step {s t : SystemDumps} {e : Manager.Event} (hs : Keyed systemId s.entries)
    (h : Manager.step originators running s e = some t) : Keyed systemId t.entries := by
  cases e with
  | notify transport dumpId size timeStamp construction =>
      rw [← reply_some h]
      exact maintains_notify transport dumpId size timeStamp construction s hs
  | createDump r =>
      rw [← reply_some h]
      exact maintains_createDump r s hs
  | delete transport id =>
      obtain ⟨e, -, he⟩ := Option.bind_eq_some_iff.mp h
      rw [← reply_some he]
      exact maintains_delete transport e s hs
  | deleteAll transport =>
      rw [← reply_some h]
      exact maintains_deleteAll transport s hs
  | initiateOffload transport id uri =>
      obtain ⟨e, hget, he⟩ := Option.bind_eq_some_iff.mp h
      rw [← reply_some he]
      exact keyed_system_initiateOffload hs hget

/-- In every state that the calls lead to, an entry is kept under its own id. -/
theorem keyed_system_run {t : SystemDumps} {es : List Manager.Event}
    (h : run (Manager.step originators running) ⟨∅, 0, [], []⟩ es = some t) : Keyed systemId t.entries :=
  invariant_run (I := fun s => Keyed systemId s.entries) (fun _ _ _ => keyed_system_step) h (keyed_empty systemId)

end SystemRuns

section ResourceRuns

variable {originators : Requests.OriginatorTable}

def resourceId (e : ResourceEntry) : Nat := e.base.id

abbrev MaintainsResource : ResourceDumps → ResourceDumps → Prop := Maintains resourceId ResourceDumps.entries

theorem maintains_isHostRunning (reading : Option Bool) : Keeps MaintainsResource (isHostRunning reading) := by
  cases reading with
  | none => exact keeps_throw _
  | some running => exact keeps_pure running

theorem maintains_deleteResource (readings : Readings) (transport : Transport) (e : ResourceEntry) :
    Keeps MaintainsResource (Resource.delete_ readings transport e) := by
  unfold Resource.delete_
  refine keeps_bind ?_ fun _ => keeps_bind (keeps_throwIf _ _) fun _ =>
    keeps_bind (maintains_isHostRunning _) fun _ => keeps_bind (keeps_whenever ?_) fun _ => ?_
  · exact keeps_ite (keeps_pure _) (maintains_isHostRunning _)
  · exact keeps_bind (keeps_modify fun _ => id) fun _ => keeps_throwIf _ _
  · exact keeps_modify fun _ h => keyed_erase h _

theorem maintains_deleteAllResource (readings : Nat → Readings) (transport : Transport) :
    Keeps MaintainsResource (Resource.deleteAll readings transport) := by
  unfold Resource.deleteAll
  exact keeps_bind keeps_get fun s => keeps_forM fun x => maintains_deleteResource (readings x.1) transport x.2

theorem maintains_resourceNotify (dumpId size timeStamp : Nat) (construction : State.Construction) :
    Keeps MaintainsResource (Resource.notify originators dumpId size timeStamp construction) := by
  unfold Resource.notify
  refine keeps_get_bind fun s => ?_
  rcases Resource.look dumpId none s.entries.toList with _ | _ | key
  · exact id
  · cases construction with
    | done => exact fun h => keyed_insertIfNew h rfl
    | invalidArgument => exact id
    | failed => exact id
  · exact fun h => keyed_alter (f := Resource.update timeStamp size dumpId) h (fun _ => rfl) key

theorem keyed_resource_createDump {s : ResourceDumps} (hs : Keyed resourceId s.entries) (r : Resource.Request) :
    Keyed resourceId (final (Resource.createDump originators r s)).entries := by
  rcases @createDump_cases originators s r with h | ⟨vspString, pwd, originatorId, originatorType, h⟩
  · rw [h]
    exact hs
  · rw [h]
    exact keyed_insertIfNew hs rfl

theorem keyed_resource_initiateOffload {s : ResourceDumps} {reading : Option Bool} {transport : Transport} {id : Nat}
    {e : ResourceEntry} {uri : String} (hs : Keyed resourceId s.entries) (he : s.entries[id]? = some e) :
    Keyed resourceId (final (Resource.initiateOffload reading transport id e uri s)).entries := by
  have hset : Keyed resourceId (s.entries.insert id { e with offloadUri := uri }) := keyed_insert hs (hs id e he)
  rcases reading with _ | _ | _
  · exact hs
  · exact hs
  · unfold Resource.initiateOffload
    exact keeps_throwIf (R := MaintainsResource) _ _ _ hset

theorem keyed_resource_step {s t : ResourceDumps} {e : Resource.Event} (hs : Keyed resourceId s.entries)
    (h : Resource.step originators s e = some t) : Keyed resourceId t.entries := by
  cases e with
  | notify dumpId size timeStamp construction =>
      cases h
      exact maintains_resourceNotify dumpId size timeStamp construction s hs
  | createDump r =>
      cases h
      exact keyed_resource_createDump hs r
  | delete readings transport id =>
      obtain ⟨e, -, rfl⟩ := Option.map_eq_some_iff.mp h
      exact maintains_deleteResource readings transport e s hs
  | deleteAll readings transport =>
      cases h
      exact maintains_deleteAllResource readings transport s hs
  | initiateOffload reading transport id uri =>
      obtain ⟨e, he, rfl⟩ := Option.map_eq_some_iff.mp h
      exact keyed_resource_initiateOffload hs he

theorem keyed_resource_run {t : ResourceDumps} {es : List Resource.Event}
    (h : run (Resource.step originators) Resource.started es = some t) : Keyed resourceId t.entries :=
  invariant_run (I := fun s => Keyed resourceId s.entries) (fun _ _ _ => keyed_resource_step) h (keyed_empty resourceId)

end ResourceRuns

section DeleteAll

variable (readings : Nat → Readings) (transport : Transport)

def systemDeletable (x : Nat × SystemEntry) : Prop :=
  Deletable (readings x.1) transport x.2.offloadUri x.2.sourceDumpId

def resourceDeletable (x : Nat × ResourceEntry) : Prop :=
  Deletable (readings x.1) transport x.2.offloadUri x.2.sourceDumpId

variable {readings transport}

theorem deleteSystem_removes {k : Nat} {e : SystemEntry} (hk : systemId e = k) :
    Removes SystemDumps.entries (systemDeletable readings transport) (deleteSystem (readings k) transport e)
      (k, e) := by
  apply deleteEntry_removes Iff.rfl
  · exact asks_modify (f := fun s : SystemDumps => { s with deleteRequests := s.deleteRequests ++ [e.sourceDumpId] })
      (fun _ => rfl) _ _
  · intro s
    exact ⟨_, rfl, by rw [← hk]; rfl⟩

theorem deleteResource_removes {k : Nat} {e : ResourceEntry} (hk : resourceId e = k) :
    Removes ResourceDumps.entries (resourceDeletable readings transport) (Resource.delete_ (readings k) transport e)
      (k, e) := by
  rw [deleteResource_eq]
  apply deleteEntry_removes Iff.rfl
  · exact asks_modify
      (f := fun s : ResourceDumps => { s with deleteRequests := s.deleteRequests ++ [e.sourceDumpId] })
      (fun _ => rfl) _ _
  · intro s
    exact ⟨_, rfl, by rw [← hk]; rfl⟩

/-- All entries that can be deleted are removed, and the others kept, exactly if none of
the others has a smaller id than one of them. -/
theorem deleteAll_sweeps_iff (readings : Nat → Readings) (transport : Transport) :
    (∀ s : SystemDumps, Keyed systemId s.entries →
      (Swept (systemDeletable readings transport) s.entries (final (deleteAllSystem readings transport s)).entries ↔
        Unobstructed (systemDeletable readings transport) s.entries)) ∧
    (∀ s : ResourceDumps, Keyed resourceId s.entries →
      (Swept (resourceDeletable readings transport) s.entries
          (final (Resource.deleteAll readings transport s)).entries ↔
        Unobstructed (resourceDeletable readings transport) s.entries)) := by
  constructor
  · intro s hs
    exact sweep_iff fun x hx => deleteSystem_removes (hs x.1 x.2 (ExtTreeMap.mem_toList_iff_getElem?_eq_some.mp hx))
  · intro s hs
    exact sweep_iff fun x hx => deleteResource_removes (hs x.1 x.2 (ExtTreeMap.mem_toList_iff_getElem?_eq_some.mp hx))

def hostUp : Nat → Readings := fun _ => ⟨some true, some true⟩

def accepting : Transport := ⟨fun _ => true, fun _ => true⟩

def offloaded : SystemDumps where
  entries := ((∅ : ExtTreeMap Nat SystemEntry).insert 1
    { newEntry 1 5 10 7 .Completed "" 0 with offloadUri := "/tmp/offload" }).insert 2
      (newEntry 2 6 10 8 .Completed "" 0)
  lastEntryId := 2
  deleteRequests := []
  reported := []

def lastOffloaded : SystemDumps :=
  { offloaded with
    entries := ((∅ : ExtTreeMap Nat SystemEntry).insert 1 (newEntry 1 5 10 7 .Completed "" 0)).insert 2
      { newEntry 2 6 10 8 .Completed "" 0 with offloadUri := "/tmp/offload" } }

theorem lastOffloaded_get {k : Nat} {e : SystemEntry} (h : lastOffloaded.entries[k]? = some e) :
    k = 2 ∧ e.offloadUri = "/tmp/offload" ∨ k = 1 := by
  simp only [lastOffloaded, insert_get, ExtTreeMap.getElem?_empty] at h
  split at h
  · rename_i hk
    cases h
    exact .inl ⟨hk.symm, rfl⟩
  · split at h
    · rename_i hk
      exact .inr hk.symm
    · cases h

theorem deleteAll_sweeps_offloaded :
    Swept (systemDeletable hostUp accepting) lastOffloaded.entries
      (final (deleteAllSystem hostUp accepting lastOffloaded)).entries := by
  refine ((deleteAll_sweeps_iff hostUp accepting).1 lastOffloaded
    (keyed_insert (keyed_insert (keyed_empty systemId) rfl) rfl)).mpr fun k v l w hk hl hlt hdeletable => ?_
  rcases lastOffloaded_get hl with ⟨rfl, huri⟩ | rfl
  · rcases hdeletable.1 with hempty | hfirst
    · rw [huri] at hempty
      exact absurd hempty (by decide)
    · cases hfirst
  · rcases lastOffloaded_get hk with ⟨rfl, -⟩ | rfl <;> omega

/-- The second dump stays, although the host would delete it. -/
theorem offload_stops_deleteAll :
    systemDeletable hostUp accepting (2, newEntry 2 6 10 8 .Completed "" 0) ∧
    (final (deleteAllSystem hostUp accepting offloaded)).entries[2]? = some (newEntry 2 6 10 8 .Completed "" 0) ∧
    ¬Swept (systemDeletable hostUp accepting) offloaded.entries
      (final (deleteAllSystem hostUp accepting offloaded)).entries := by
  have hdeletable : systemDeletable hostUp accepting (2, newEntry 2 6 10 8 .Completed "" 0) :=
    ⟨.inl rfl, .inr ⟨rfl, .inr rfl⟩⟩
  have hstays : (final (deleteAllSystem hostUp accepting offloaded)).entries[2]? =
      some (newEntry 2 6 10 8 .Completed "" 0) := by decide +kernel
  exact ⟨hdeletable, hstays, fun h => ((h 2 _).mp hstays).2 hdeletable⟩

end DeleteAll

end DumpCollector.OpenPower.DeleteAll
