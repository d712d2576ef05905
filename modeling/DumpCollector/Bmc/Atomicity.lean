import DumpCollector.Bmc.Steps
import DumpCollector.Children
import Mathlib.Data.List.Nodup
import Mathlib.Data.List.Range

namespace DumpCollector.Bmc.Atomicity

open Std Lib.Directory Lib.Effects Lib.Maps Lib.Runs Entries FileNames Requests State Dispatch Frames
open DumpCollector.Steps Slots Children Bmc.Manager Capture Bmc.Steps

variable (cfg : Config)

def InProgressAt (n : Nat) (s : BmcDaemon) : Prop :=
  ∃ e : BmcEntry, s.entries[n]? = some (some e) ∧ e.base.status = .InProgress

/-- A request that throws has left no trace but on the files, and one that returns an id
has started one process with that id, whose entry is in progress. -/
structure AllOrNothing (s : BmcDaemon) (r : Request) : Prop where
  thrown : ∀ e t, createDump cfg r s = .error e t → t.procs = s.procs ∧ t.entries = s.entries ∧
    t.lastEntryId = s.lastEntryId ∧ t.childPtrMap = s.childPtrMap ∧ t.own = s.own
  returned : ∀ n t, createDump cfg r s = .ok n t → (∃ pid type, pid ∉ s.procs ∧
    t.procs = s.procs.insert pid ⟨⟨type, n⟩, .running⟩) ∧ InProgressAt n t

/-- A request that comes to fork a collector has it registered and its entry constructed,
and the next id is not that of an entry whose dump is finished. -/
def Completes (s : BmcDaemon) : Event Request FileEvent → Prop
  | .createDump r => starts cfg r s ≠ none → r.fork.registered = true ∧ r.construction = .done ∧
      ∀ slot ∈ s.entries[nextEntryId s]?, slot.map (fun e => e.base.status) = some .InProgress
  | _ => True

instance decidableCompletes (s : BmcDaemon) (ev : Event Request FileEvent) : Decidable (Completes cfg s ev) :=
  match ev with
  | .createDump r => inferInstanceAs (Decidable (starts cfg r s ≠ none → r.fork.registered = true ∧
      r.construction = .done ∧ ∀ slot ∈ s.entries[nextEntryId s]?,
        slot.map (fun e => e.base.status) = some .InProgress))
  | .delete _ | .deleteAll | .files _ | .exits _ _ | .stops _ _ | .continues _ | .watchReady _ | .handle _
  | .childNotification _ => isTrue trivial

section Request

variable {cfg} {r : Request} {s t : BmcDaemon}

theorem prepare_unrotated (hrotate : cfg.BMC_DUMP_ROTATE_CONFIG = false) : final (prepare cfg r s) = s := by
  have hroom (size : Nat) : Keeps Eq (makeRoom cfg size) := by
    refine keeps_bind keeps_get fun s => ?_
    rw [if_neg (by simp [hrotate])]
    exact keeps_ite (keeps_throw _) (keeps_pure _)
  have hsize : Keeps Eq (getAllowedSize cfg) :=
    keeps_bind (keeps_getDirectorySize _) fun _ => keeps_bind (hroom _) fun _ => keeps_pure _
  have hprepare : Keeps Eq (prepare cfg r) :=
    keeps_bind (keeps_checkRequest cfg r) fun _ => keeps_bind hsize fun _ =>
      keeps_bind (keeps_fromExcept _) fun _ => keeps_pure _
  exact (hprepare s).symm

theorem insertIfNew_inProgress {id : Nat} {e : BmcEntry} (he : e.base.status = .InProgress)
    (ht : t.entries = s.entries.insertIfNew id (some e)) :
    InProgressAt id t ↔ ∀ slot ∈ s.entries[id]?, slot.map (fun e => e.base.status) = some .InProgress := by
  rw [InProgressAt, ht, insertIfNew_get, if_pos rfl]
  rcases hslot : s.entries[id]? with _ | _ | e'
  · simpa using he
  · simp
  · simp

theorem started_ne {pid : Nat} {type : DumpTypes} (hfresh : pid ∉ s.procs) : (forked pid type s).procs ≠ s.procs := by
  intro h
  have hget : (forked pid type s).procs[pid]? = some ⟨⟨type, nextEntryId s⟩, .running⟩ :=
    (insert_get ..).trans (if_pos rfl)
  rw [h, (not_mem_iff _ _).mp hfresh] at hget
  cases hget

/-- The step lemma: a request is all or nothing exactly if it completes what it starts. -/
theorem allOrNothing_iff (hrotate : cfg.BMC_DUMP_ROTATE_CONFIG = false) (hfresh : r.fork.fresh s = true) :
    AllOrNothing cfg s r ↔ Completes cfg s (.createDump r) := by
  have hcaptured := createDump_captured cfg r s
  generalize hresult : createDump cfg r s = result at hcaptured
  cases hcaptured with
  | refused e t hstarts ht =>
      rw [prepare_unrotated hrotate] at ht
      subst ht
      refine iff_of_true ⟨fun e' t' h => ?_, fun n t' h => ?_⟩ fun h => absurd hstarts h
      · rw [hresult] at h
        cases h
        exact ⟨rfl, rfl, rfl, rfl, rfl⟩
      · rw [hresult] at h
        cases h
  | unregistered pid type u hstarts hu hregistered =>
      rw [prepare_unrotated hrotate] at hu
      subst hu
      refine iff_of_false (fun h => ?_) fun h => ?_
      · exact started_ne (not_mem_of_fresh hfresh (starts_eq_some.mp hstarts).1) (h.thrown _ _ hresult).1
      · rw [(h (by simp [hstarts])).1] at hregistered
        cases hregistered
  | unconstructed e pid type u hstarts hu hregistered hconstruction =>
      rw [prepare_unrotated hrotate] at hu
      subst hu
      refine iff_of_false (fun h => ?_) fun h => hconstruction (h (by simp [hstarts])).2.1
      exact started_ne (not_mem_of_fresh hfresh (starts_eq_some.mp hstarts).1) (h.thrown _ _ hresult).1
  | inserted pid type u originatorId originatorType hstarts hu hregistered hconstruction =>
      rw [prepare_unrotated hrotate] at hu
      subst hu
      have hnew := not_mem_of_fresh hfresh (starts_eq_some.mp hstarts).1
      have hslot := insertIfNew_inProgress (s := u) (t := { registered pid type u with
        entries := u.entries.insertIfNew (nextEntryId u) (some (create (nextEntryId u) r.timeStamp 0 none .InProgress
          originatorId originatorType r.entryProcessGroupID))
        own := if type = .USER then ⟨true⟩ else u.own }) rfl rfl
      constructor
      · intro h _
        exact ⟨hregistered, hconstruction, hslot.mp (h.returned _ _ hresult).2⟩
      · refine fun h => ⟨fun e t h' => ?_, fun n t h' => ?_⟩
        · rw [hresult] at h'
          cases h'
        · rw [hresult] at h'
          cases h'
          exact ⟨⟨pid, type, hnew, rfl⟩, hslot.mpr (h (by simp [hstarts])).2.2⟩

end Request

section Ids

def newIds (s t : BmcDaemon) : List Nat :=
  (t.procs.toList.filter fun x => x.1 ∉ s.procs).map fun x => x.2.collector.entryId

def startedIds : BmcDaemon → List (Event Request FileEvent) → List Nat
  | _, [] => []
  | s, ev :: es =>
      match step (bmcOps cfg) s ev with
      | some t => newIds s t ++ startedIds t es
      | none => []

def forks (s : BmcDaemon) : Event Request FileEvent → Bool
  | .createDump r => (starts cfg r s).isSome
  | _ => false

def forkCount : BmcDaemon → List (Event Request FileEvent) → Nat
  | _, [] => 0
  | s, ev :: es =>
      match step (bmcOps cfg) s ev with
      | some t => (if forks cfg s ev then 1 else 0) + forkCount t es
      | none => 0

variable {cfg} {s t : BmcDaemon}

theorem newIds_of_subset (h : ∀ pid ∈ t.procs, pid ∈ s.procs) : newIds s t = [] := by
  rw [newIds, List.map_eq_nil_iff, List.filter_eq_nil_iff]
  rintro ⟨pid, p⟩ hmem hnew
  have hp := ExtTreeMap.mem_toList_iff_getElem?_eq_some.mp hmem
  exact of_decide_eq_true hnew (h pid ((mem_iff _ _).mpr ⟨p, hp⟩))

theorem newIds_of_insert {pid : Nat} {p : Process DumpTypes} (hfresh : pid ∉ s.procs)
    (h : t.procs = s.procs.insert pid p) : newIds s t = [p.collector.entryId] := by
  have hnodup : (t.procs.toList.filter fun x => x.1 ∉ s.procs).Nodup := by
    refine List.Nodup.filter _ (ExtTreeMap.distinct_keys_toList.imp fun hne heq => hne ?_)
    rw [heq]
    exact ReflCmp.compare_self
  have hmem : ∀ x, x ∈ (t.procs.toList.filter fun x => x.1 ∉ s.procs) ↔ x ∈ [(pid, p)] := by
    rintro ⟨q, p'⟩
    rw [List.mem_filter, ExtTreeMap.mem_toList_iff_getElem?_eq_some, h, insert_get, List.mem_singleton,
      decide_eq_true_eq]
    constructor
    · rintro ⟨hq, hnew⟩
      split at hq
      · rename_i heq
        rw [← heq, Option.some.inj hq]
      · exact absurd ((mem_iff _ _).mpr ⟨_, hq⟩) hnew
    · rintro heq
      cases heq
      exact ⟨if_pos rfl, hfresh⟩
  have hlist := List.perm_singleton.mp ((List.perm_ext_iff_of_nodup hnodup (List.nodup_singleton _)).mpr hmem)
  rw [newIds, hlist]
  rfl

/-- A step that completes what it starts hands out the ids one by one. -/
theorem step_newIds (hrotate : cfg.BMC_DUMP_ROTATE_CONFIG = false) {ev : Event Request FileEvent}
    (hC : Completes cfg s ev) (h : step (bmcOps cfg) s ev = some t) :
    (forks cfg s ev = true ∧ newIds s t = [nextEntryId s] ∧ t.lastEntryId = nextEntryId s) ∨
    (forks cfg s ev = false ∧ newIds s t = [] ∧ t.lastEntryId = s.lastEntryId) := by
  by_cases hev : ∀ r, ev ≠ .createDump r
  · obtain ⟨hid, hold, -⟩ := step_other (sound cfg) hev h
    refine .inr ⟨?_, newIds_of_subset hold, hid⟩
    cases ev with
    | createDump r => exact absurd rfl (hev r)
    | _ => rfl
  · push Not at hev
    obtain ⟨r, rfl⟩ := hev
    obtain ⟨-, hfresh, hresult⟩ := step_createDump h
    have hfinal := (final_map some (createDump cfg r) s).symm.trans (final_of_reply (reply_eq_some.mpr hresult))
    have hcaptured := createDump_captured cfg r s
    generalize createDump cfg r s = result at hfinal hcaptured
    subst hfinal
    cases hcaptured with
    | refused e u hstarts hu =>
        rw [prepare_unrotated hrotate] at hu
        subst hu
        exact .inr ⟨by simp [forks, hstarts], newIds_of_subset fun _ h => h, rfl⟩
    | unregistered pid type u hstarts hu hregistered =>
        rw [(hC (by simp [hstarts])).1] at hregistered
        cases hregistered
    | unconstructed e pid type u hstarts hu hregistered hconstruction =>
        exact absurd (hC (by simp [hstarts])).2.1 hconstruction
    | inserted pid type u originatorId originatorType hstarts hu hregistered hconstruction =>
        rw [prepare_unrotated hrotate] at hu
        subst hu
        have hnew := not_mem_of_fresh hfresh (starts_eq_some.mp hstarts).1
        exact .inl ⟨by simp [forks, hstarts], newIds_of_insert (p := ⟨⟨type, nextEntryId u⟩, .running⟩) hnew rfl, rfl⟩

theorem startedIds_eq (hrotate : cfg.BMC_DUMP_ROTATE_CONFIG = false) {es : List (Event Request FileEvent)}
    (hC : EachStep (step (bmcOps cfg)) (Completes cfg) s es) :
    startedIds cfg s es = (List.range (forkCount cfg s es)).map fun i => uint32 (s.lastEntryId + 1 + i) := by
  induction es generalizing s with
  | nil => rfl
  | cons ev es ih =>
      rw [startedIds, forkCount]
      cases h : step (bmcOps cfg) s ev with
      | none => rfl
      | some t =>
          have hrest := ih (hC.2 t h)
          rcases step_newIds hrotate hC.1 h with ⟨hforks, hnew, hid⟩ | ⟨hforks, hnew, hid⟩
          · rw [hid] at hrest
            simp only [hnew, hrest, hforks, if_true, Nat.add_comm 1, List.range_succ_eq_map, List.map_cons,
              List.map_map, List.singleton_append]
            refine congrArg₂ _ rfl (List.map_congr_left fun i _ => ?_)
            simp only [nextEntryId, uint32, Function.comp, Nat.succ_eq_add_one]
            omega
          · simp [hnew, hrest, hforks, hid]

theorem nodup_ids_iff (n k : Nat) : ((List.range k).map fun i => uint32 (n + i)).Nodup ↔ k ≤ 2 ^ 32 := by
  constructor
  · intro h
    by_contra hk
    have hinj := List.inj_on_of_nodup_map h (x := 0) (y := 2 ^ 32) (by simp; omega) (by simp; omega)
    simp [uint32] at hinj
  · intro hk
    refine (List.nodup_map_iff_inj_on List.nodup_range).mpr fun i hi j hj heq => ?_
    rw [List.mem_range] at hi hj
    simp only [uint32] at heq
    omega

/-- Without rotation every request of a run is all or nothing, and no id is handed out
twice, exactly if each request completes what it starts and the ids do not run out. -/
theorem allOrNothing_iff_completes (hrotate : cfg.BMC_DUMP_ROTATE_CONFIG = false) {u : BmcDaemon}
    {es : List (Event Request FileEvent)} (hrun : run (step (bmcOps cfg)) s es = some u) :
    (EachStep (step (bmcOps cfg)) (fun s ev => ∀ r, ev = .createDump r → AllOrNothing cfg s r) s es ∧
      (startedIds cfg s es).Nodup) ↔
    (EachStep (step (bmcOps cfg)) (Completes cfg) s es ∧ forkCount cfg s es ≤ 2 ^ 32) := by
  rw [eachStep_congr (D := Completes cfg) (fun s ev t h => ?_) hrun]
  · refine and_congr_right fun hC => ?_
    rw [startedIds_eq hrotate hC, nodup_ids_iff]
  · cases ev with
    | createDump r =>
        obtain ⟨-, hfresh, -⟩ := step_createDump h
        refine Iff.trans ⟨fun hall => hall r rfl, ?_⟩ (allOrNothing_iff hrotate hfresh)
        rintro hall r' hr
        cases hr
        exact hall
    | _ => exact iff_of_true (fun r hr => by cases hr) trivial

end Ids

private def unregisteredRequest : Request := { plainRequest 7 with fork := ⟨some 7, false⟩ }

theorem unregistered_request_leaves_process :
    ∃ s t, Started defaultConfig s ∧ createDump defaultConfig unregisteredRequest s = .error .internalFailure t ∧
      t.procs[7]? = some ⟨⟨.USER, 1⟩, .running⟩ ∧ ¬ AllOrNothing defaultConfig s unregisteredRequest := by
  refine ⟨bare ⟨false⟩ .root, _, started_root _, rfl, rfl, fun h => ?_⟩
  exact absurd ((allOrNothing_iff rfl rfl).mp h) (by decide +kernel)

theorem completed_requests_allOrNothing :
    EachStep (step (bmcOps defaultConfig)) (fun s ev => ∀ r, ev = .createDump r → AllOrNothing defaultConfig s r)
      (bare ⟨false⟩ .root)
        [.createDump (plainRequest 7), .exits 7 0, .childNotification 7, .createDump (plainRequest 8)] ∧
    (startedIds defaultConfig (bare ⟨false⟩ .root) [.createDump (plainRequest 7), .exits 7 0, .childNotification 7,
      .createDump (plainRequest 8)]).Nodup :=
  (allOrNothing_iff_completes rfl rfl).mpr (by decide +kernel)

end DumpCollector.Bmc.Atomicity
