import DumpCollector.Elog.Histories

namespace DumpCollector.Elog.Paths

open Std Lib.Effects Lib.Maps FileNames Requests ObjectPaths Elog.Watch Elog.Histories

variable {A M R : Type} (cfg : Config A M R)

/-- A signal for the path of a log entry changes the membership of its id at most; for any
other path nothing changes, no dump is requested and no exception leaves the callback. -/
def Contained (s : Daemon A M) (objectPath : ObjectPath) (sig : Signal R) : Prop :=
  match logId objectPath with
  | some n => ∀ m, m ≠ n → (m ∈ (final (callback cfg objectPath sig s)).elogList ↔ m ∈ s.elogList)
  | none => ∃ t, callback cfg objectPath sig s = .ok () t ∧ t.elogList = s.elogList ∧ t.calls = s.calls

variable {cfg} {s : Daemon A M} {objectPath : ObjectPath} {sig : Signal R}

theorem contained_of_logId (hplat : 2 ^ 32 ≤ cfg.plat.ulongMax + 1) {n : Nat} (hlog : logId objectPath = some n)
    {x : EStateM.Result Exn (Daemon A M) Unit} (hx : Outcome cfg objectPath s sig x) {m : Nat} (hne : m ≠ n) :
    m ∈ (final x).elogList ↔ m ∈ s.elogList := by
  have hid := getEid_of_logId hplat hlog
  cases hx with
  | passed _ _ => exact .rfl
  | refused _ e _ hid' _ => exact .rfl
  | called propertyMap r eId type mgr _ _ hid' hnew _ hfinal =>
      obtain rfl : n = eId := Except.ok.inj (hid.symm.trans hid')
      rw [hfinal]
      exact (mem_set_insert _ _ _).trans (or_iff_right hne.symm)
  | forgot eId _ hid' _ =>
      obtain rfl : n = eId := Except.ok.inj (hid.symm.trans hid')
      exact (mem_set_erase _ _ _).trans (and_iff_right hne.symm)

def Settled (cfg : Config A M R) (elogList : ElogList) (eId : Nat) : Signal R → Prop
  | .interfacesAdded body _ => eId ∈ elogList ∨ ∀ propertyMap ∈ body, errorType cfg propertyMap = none
  | .interfacesRemoved _ => eId ∉ elogList

theorem settled_of_passedOver {elogList : ElogList} (h : PassedOver cfg elogList objectPath sig)
    (hentry : isEntry objectPath = true)
    (hread : sig ≠ .interfacesRemoved false ∧ ∀ r, sig ≠ .interfacesAdded none r) :
    ∃ eId, getEid cfg objectPath = .ok eId ∧ Settled cfg elogList eId sig := by
  cases sig with
  | interfacesAdded body r =>
      rcases h with rfl | hno | hsettled
      · exact absurd rfl (hread.2 r)
      · rw [hentry] at hno
        cases hno
      · exact hsettled
  | interfacesRemoved readable =>
      rcases h with rfl | hno | hsettled
      · exact absurd rfl hread.1
      · rw [hentry] at hno
        cases hno
      · exact hsettled

theorem unchanged_iff_passedOver {x : EStateM.Result Exn (Daemon A M) Unit} (hx : Outcome cfg objectPath s sig x) :
    (∃ t, x = .ok () t ∧ t.elogList = s.elogList ∧ t.calls = s.calls) ↔
      PassedOver cfg s.elogList objectPath sig := by
  cases hx with
  | passed _ h => exact iff_of_true ⟨s, rfl, rfl, rfl⟩ h
  | refused _ e hentry hid hread =>
      refine iff_of_false (fun h => ?_) fun h => ?_
      · obtain ⟨t, ht, -⟩ := h
        cases ht
      · obtain ⟨eId, hid', -⟩ := settled_of_passedOver h hentry hread
        rw [hid] at hid'
        cases hid'
  | called propertyMap r eId type mgr _ hentry hid hnew htype hfinal =>
      refine iff_of_false (fun h => ?_) fun h => ?_
      · obtain ⟨t, rfl, hlist, -⟩ := h
        have hmem : eId ∈ t.elogList := by
          rw [final_ok] at hfinal
          rw [hfinal]
          exact (mem_set_insert _ _ _).mpr (.inl rfl)
        rw [hlist] at hmem
        exact hnew hmem
      · obtain ⟨eId', hid', hmem | hnone⟩ := settled_of_passedOver h hentry ⟨by simp, by simp⟩
        · rw [Except.ok.inj (hid'.symm.trans hid)] at hmem
          exact hnew hmem
        · rw [hnone propertyMap rfl] at htype
          cases htype
  | forgot eId hentry hid hmem =>
      refine iff_of_false (fun h => ?_) fun h => ?_
      · obtain ⟨t, ht, hlist, -⟩ := h
        cases ht
        have hgone : eId ∉ s.elogList.erase eId := fun h => ((mem_set_erase _ _ _).mp h).1 rfl
        rw [show s.elogList.erase eId = s.elogList from hlist] at hgone
        exact hgone hmem
      · obtain ⟨eId', hid', hnot⟩ := settled_of_passedOver h hentry ⟨by simp, by simp⟩
        rw [Except.ok.inj (hid'.symm.trans hid)] at hnot
        exact hnot hmem

theorem contained_iff_passedOver (hplat : 2 ^ 32 ≤ cfg.plat.ulongMax + 1) (s : Daemon A M) (objectPath : ObjectPath)
    (sig : Signal R) :
    Contained cfg s objectPath sig ↔
      (logId objectPath).isSome = true ∨ PassedOver cfg s.elogList objectPath sig := by
  have houtcome : Outcome cfg objectPath s sig (callback cfg objectPath sig s) := callback_outcome sig
  rw [Contained]
  cases hlog : logId objectPath with
  | some n => exact iff_of_true (fun m hne => contained_of_logId hplat hlog houtcome hne) (.inl rfl)
  | none => exact (unchanged_iff_passedOver houtcome).trans (or_iff_right (by simp)).symm

section Children

private def calloutPath : ObjectPath := ⟨LOG_PATH ++ ["entry", "5", "callout"], by decide +kernel⟩

private def bareWatch : Daemon (List Nat) Bmc.Manager.BmcDaemon :=
  started (bmcConfig Bmc.Manager.defaultConfig) none (State.bare ⟨false⟩ .root) []

/-- The removal of a child object of an entry ends the daemon. -/
theorem callout_removal_refused : Started (bmcConfig Bmc.Manager.defaultConfig) bareWatch ∧
    logId calloutPath = none ∧
    callback (bmcConfig Bmc.Manager.defaultConfig) calloutPath (.interfacesRemoved true) bareWatch =
      .error (.stdInvalidArgument "stoul") bareWatch ∧
    ¬ Contained (bmcConfig Bmc.Manager.defaultConfig) bareWatch calloutPath (.interfacesRemoved true) := by
  have hlog : logId calloutPath = none := by decide +kernel
  have hrefused : callback (bmcConfig Bmc.Manager.defaultConfig) calloutPath (.interfacesRemoved true) bareWatch =
      .error (.stdInvalidArgument "stoul") bareWatch := rfl
  refine ⟨⟨none, _, by simp, rfl⟩, hlog, hrefused, fun h => ?_⟩
  simp only [Contained, hlog] at h
  obtain ⟨t, ht, -⟩ := h
  rw [hrefused] at ht
  cases ht

private def twoLogs : Daemon (List Nat) Bmc.Manager.BmcDaemon :=
  { bareWatch with elogList := (bareWatch.elogList.insert 3).insert 5 }

/-- Of the two logs only the one that is removed leaves the list. -/
theorem entry_removal_contained : 3 ∈ twoLogs.elogList ∧ 5 ∈ twoLogs.elogList ∧
    Contained (bmcConfig Bmc.Manager.defaultConfig) twoLogs (entryPath 5) (.interfacesRemoved true) :=
  ⟨(mem_set_insert _ _ _).mpr (.inr ((mem_set_insert _ _ _).mpr (.inl rfl))), (mem_set_insert _ _ _).mpr (.inl rfl),
    (contained_iff_passedOver (by decide) twoLogs (entryPath 5) (.interfacesRemoved true)).mpr
      (.inl (Option.isSome_of_eq_some (logId_entryPath (by decide))))⟩

end Children

end DumpCollector.Elog.Paths
