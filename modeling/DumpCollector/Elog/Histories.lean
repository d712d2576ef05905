import DumpCollector.Bmc.Manager
import DumpCollector.Elog.Watch

namespace DumpCollector.Elog.Histories

open Std Lib.Effects Lib.Maps Lib.Runs FileNames Requests ObjectPaths Elog.Watch

variable {A M R : Type} (cfg : Config A M R)

section Conditions

def stored : Option A → ElogList
  | none => ∅
  | some a => (cfg.archive.load a).2

/-- The ids in memory are those on disk, and each call of createDump found its id there. -/
structure InStep (s : Daemon A M) : Prop where
  stored : stored cfg s.file = s.elogList
  calls : ∀ c ∈ s.calls, ∀ n, logId c.objectPath = some n → n ∈ Histories.stored cfg c.file

def callsFor (n : Nat) (s : Daemon A M) : Nat := s.calls.countP fun c => logId c.objectPath = some n

def WellFormed : Event M R → Prop
  | .signal objectPath _ => (logId objectPath).isSome = true
  | .restart _ => True

def Removes (n : Nat) : Event M R → Prop
  | .signal objectPath (.interfacesRemoved _) => logId objectPath = some n
  | _ => False

/-- The daemon has been started for the first time, on a file that it has written itself,
if there is one. -/
def Started (s : Daemon A M) : Prop :=
  ∃ file mgr, (∀ a ∈ file, ∃ list, a = cfg.archive.save list) ∧ s = started cfg file mgr []

end Conditions

section Steps

variable {cfg} {s t : Daemon A M} {n : Nat}

theorem stored_save (list : ElogList) : stored cfg (some (cfg.archive.save list)) = list := by
  rw [stored, cfg.archive.load_save]

structure Written (cfg : Config A M R) (s : Daemon A M) : Prop where
  file : (s.file = none ∧ s.elogList = ∅) ∨ s.file = some (cfg.archive.save s.elogList)
  calls : ∀ c ∈ s.calls, ∀ n, logId c.objectPath = some n → n ∈ stored cfg c.file

theorem Written.inStep (hs : Written cfg s) : InStep cfg s := by
  refine ⟨?_, hs.calls⟩
  rcases hs.file with ⟨hfile, hempty⟩ | hfile
  · rw [hfile, hempty]
    rfl
  · rw [hfile, stored_save]

theorem written_started {file : Option A} {mgr : M} {calls : List (Call A)}
    (hfile : ∀ a ∈ file, ∃ list, a = cfg.archive.save list)
    (hcalls : ∀ c ∈ calls, ∀ n, logId c.objectPath = some n → n ∈ stored cfg c.file) :
    Written cfg (started cfg file mgr calls) := by
  cases file with
  | none => exact ⟨.inl ⟨rfl, rfl⟩, hcalls⟩
  | some a =>
      obtain ⟨list, rfl⟩ := hfile a rfl
      rw [started, cfg.archive.load_save]
      exact ⟨.inr rfl, hcalls⟩

theorem started_elogList {mgr : M} (hs : Written cfg s) :
    (started cfg s.file mgr s.calls).elogList = s.elogList := by
  rcases hs.file with ⟨hfile, hempty⟩ | hfile
  · rw [hfile, hempty]
    rfl
  · rw [hfile, started, cfg.archive.load_save]

theorem final_dispatched (x : EStateM.Result Exn (Daemon A M) Unit) :
    (dispatched x).elogList = (final x).elogList ∧ (dispatched x).file = (final x).file ∧
      (dispatched x).calls = (final x).calls := by
  cases x <;> exact ⟨rfl, rfl, rfl⟩

/-- What a signal for a log entry does: nothing to the ids and the calls, or one call for
an id that becomes known, or it makes an id unknown. -/
inductive Handles (cfg : Config A M R) (n : Nat) (s t : Daemon A M) : Signal R → Prop
  | nothing (sig : Signal R) (hlist : t.elogList = s.elogList) (hfile : t.file = s.file)
      (hcalls : t.calls = s.calls) : Handles cfg n s t sig
  | called (body : Option PropertyMap) (r : R) (c : Call A) (hnew : n ∉ s.elogList)
      (hlist : t.elogList = s.elogList.insert n) (hfile : t.file = some (cfg.archive.save t.elogList))
      (hcalls : t.calls = s.calls ++ [c]) (hpath : logId c.objectPath = some n) (hstored : c.file = t.file) :
      Handles cfg n s t (.interfacesAdded body r)
  | forgot (readable : Bool) (hlist : t.elogList = s.elogList.erase n)
      (hfile : t.file = some (cfg.archive.save t.elogList)) (hcalls : t.calls = s.calls) :
      Handles cfg n s t (.interfacesRemoved readable)

theorem step_handles (hplat : 2 ^ 32 ≤ cfg.plat.ulongMax + 1) {objectPath : ObjectPath} {sig : Signal R}
    (hpath : logId objectPath = some n) (h : step cfg s (.signal objectPath sig) = some t) :
    Handles cfg n s t sig := by
  have hid := getEid_of_logId hplat hpath
  rw [step] at h
  split at h
  · have houtcome : Outcome cfg objectPath s sig (callback cfg objectPath sig s) := callback_outcome sig
    obtain ⟨hlist, hfile, hcalls⟩ := final_dispatched (callback cfg objectPath sig s)
    rw [Option.some.inj h] at hlist hfile hcalls
    generalize callback cfg objectPath sig s = x at houtcome hlist hfile hcalls
    cases houtcome with
    | passed _ _ => exact .nothing _ hlist hfile hcalls
    | refused _ e _ hid' _ =>
        rw [hid] at hid'
        cases hid'
    | called propertyMap r eId type mgr _ _ hid' hnew _ hfinal =>
        obtain rfl : n = eId := Except.ok.inj (hid.symm.trans hid')
        rw [hfinal] at hlist hfile hcalls
        exact .called _ _ _ hnew hlist (hlist ▸ hfile) hcalls hpath hfile.symm
    | forgot eId _ hid' _ =>
        obtain rfl : n = eId := Except.ok.inj (hid.symm.trans hid')
        exact .forgot _ hlist (hlist ▸ hfile) hcalls
  · cases h

/-- The step lemma for what is on disk. -/
theorem step_written (hplat : 2 ^ 32 ≤ cfg.plat.ulongMax + 1) {ev : Event M R} (hs : Written cfg s)
    (hev : WellFormed ev) (h : step cfg s ev = some t) : Written cfg t := by
  cases ev with
  | restart mgr =>
      obtain rfl : started cfg s.file mgr s.calls = t := Option.some.inj h
      refine written_started (fun a ha => ?_) hs.calls
      rcases hs.file with ⟨hfile, -⟩ | hfile
      · rw [hfile] at ha
        cases ha
      · rw [hfile] at ha
        cases ha
        exact ⟨_, rfl⟩
  | signal objectPath sig =>
      obtain ⟨n, hn⟩ := Option.isSome_iff_exists.mp hev
      cases step_handles hplat hn h with
      | nothing _ hlist hfile hcalls =>
          exact ⟨by rw [hfile, hlist]; exact hs.file, by rw [hcalls]; exact hs.calls⟩
      | forgot _ _ hfile hcalls => exact ⟨.inr hfile, by rw [hcalls]; exact hs.calls⟩
      | called _ _ c _ hlist hfile hcalls hpath hstored =>
          refine ⟨.inr hfile, fun c' hc' m hm => ?_⟩
          rw [hcalls] at hc'
          rcases List.mem_append.mp hc' with hold | hnew
          · exact hs.calls c' hold m hm
          · obtain rfl := List.mem_singleton.mp hnew
            obtain rfl : n = m := Option.some.inj (hpath.symm.trans hm)
            rw [hstored, hfile, stored_save, hlist]
            exact (mem_set_insert _ _ _).mpr (.inl rfl)

def owing (n : Nat) (s : Daemon A M) : Nat := callsFor n s + if n ∈ s.elogList then 0 else 1

/-- The step lemma for the calls: a step that does not remove the entry uses up one of the
calls that are left when it makes one. -/
theorem step_owing (hplat : 2 ^ 32 ≤ cfg.plat.ulongMax + 1) {ev : Event M R} (hs : Written cfg s)
    (hev : WellFormed ev) (hkeeps : ¬ Removes n ev) (h : step cfg s ev = some t) : owing n t ≤ owing n s := by
  cases ev with
  | restart mgr =>
      obtain rfl : started cfg s.file mgr s.calls = t := Option.some.inj h
      rw [owing, owing, callsFor, callsFor, started_calls, started_elogList hs]
  | signal objectPath sig =>
      obtain ⟨m, hm⟩ := Option.isSome_iff_exists.mp hev
      cases step_handles hplat hm h with
      | nothing _ hlist _ hcalls => rw [owing, owing, callsFor, callsFor, hcalls, hlist]
      | forgot _ hlist _ hcalls =>
          have hne : m ≠ n := by
            rintro rfl
            exact hkeeps hm
          have hsame : n ∈ t.elogList ↔ n ∈ s.elogList := by
            rw [hlist, mem_set_erase]
            exact and_iff_right hne
          simp only [owing, callsFor, hcalls, hsame, Nat.le_refl]
      | called _ _ c hnew hlist _ hcalls hpath _ =>
          by_cases hmn : m = n
          · subst hmn
            have hmem : m ∈ t.elogList := hlist ▸ (mem_set_insert _ _ _).mpr (.inl rfl)
            rw [owing, owing, callsFor, callsFor, hcalls, if_pos hmem, if_neg hnew, List.countP_append]
            simp [hpath]
          · have hsame : n ∈ t.elogList ↔ n ∈ s.elogList := by
              rw [hlist, mem_set_insert]
              exact or_iff_right hmn
            simp only [owing, callsFor, hcalls, hsame, List.countP_append]
            simp [hpath, hmn]

end Steps

section Runs

variable {cfg} {s t u : Daemon A M}

/-- The run lemma for what is on disk. -/
theorem written_run (hplat : 2 ^ 32 ≤ cfg.plat.ulongMax + 1) {es : List (Event M R)} (hs : Written cfg s)
    (hes : ∀ ev ∈ es, WellFormed ev) : Always (step cfg) (Written cfg) s es :=
  always_along (fun _ hs => hs) (fun _ _ _ hs hev h => step_written hplat hs hev h) hs (eachStep_of_mem hes)

theorem written_of_started (hs : Started cfg s) : Written cfg s := by
  obtain ⟨file, mgr, hfile, rfl⟩ := hs
  exact written_started hfile (by simp)

/-- The run lemma for the calls. -/
theorem owing_run (hplat : 2 ^ 32 ≤ cfg.plat.ulongMax + 1) {n : Nat} {es : List (Event M R)} (hs : Written cfg s)
    (hes : ∀ ev ∈ es, WellFormed ev) (hkeeps : ∀ ev ∈ es, ¬ Removes n ev) (hrun : run (step cfg) s es = some t) :
    owing n t ≤ owing n s := by
  have hall : Always (step cfg) (fun u => Written cfg u ∧ owing n u ≤ owing n s) s es := by
    refine always_along (C := fun _ ev => WellFormed ev ∧ ¬ Removes n ev) (fun _ hu => hu) (fun u ev v hu hev h => ?_)
      ⟨hs, Nat.le_refl _⟩ (eachStep_of_mem fun ev hev => ⟨hes ev hev, hkeeps ev hev⟩)
    exact ⟨step_written hplat hu.1 hev.1 h, (step_owing hplat hu.1 hev.1 hev.2 h).trans hu.2⟩
  exact (always_last hall hrun).2

/-- In every history, ids in memory are ids on disk, an id is on disk before a dump is
requested for it, and between two removals of an entry one dump is requested for it at most. -/
theorem histories_inStep (hplat : 2 ^ 32 ≤ cfg.plat.ulongMax + 1) {es : List (Event M R)} (hs : Started cfg s)
    (hes : ∀ ev ∈ es, WellFormed ev) :
    Always (step cfg) (InStep cfg) s es ∧ ∀ n es₁ es₂ es₃ t u, es = es₁ ++ es₂ ++ es₃ →
      (∀ ev ∈ es₂, ¬ Removes n ev) → run (step cfg) s es₁ = some t → run (step cfg) t es₂ = some u →
        callsFor n u ≤ callsFor n t + 1 := by
  have hstart := written_of_started hs
  refine ⟨?_, ?_⟩
  · exact always_mono (fun _ hs => hs.inStep) (written_run hplat hstart hes)
  · rintro n es₁ es₂ es₃ t u rfl hkeeps hfirst hsecond
    have ht := always_last (written_run hplat hstart fun ev hev => hes ev (by simp [hev])) hfirst
    have howing := owing_run hplat ht (fun ev hev => hes ev (by simp [hev])) hkeeps hsecond
    rw [owing, owing] at howing
    split at howing <;> split at howing <;> omega

end Runs

section Announcements

def listArchive : Archive (List Nat) where
  save list := list.size :: list.toList
  load
    | [] => (false, ∅)
    | size :: ids => (decide (ids.length = size), .ofList ids)
  load_save list := by
    have hlist : ExtTreeSet.ofList list.toList = list := by
      refine ExtTreeSet.ext_mem fun n => ?_
      rw [ExtTreeSet.mem_ofList, List.contains_iff_mem, ExtTreeSet.mem_toList]
    change (decide (list.toList.length = list.size), ExtTreeSet.ofList list.toList) = _
    rw [hlist, ExtTreeSet.length_toList, decide_eq_true rfl]

def bmcConfig (cfg : Bmc.Manager.Config) : Config (List Nat) Bmc.Manager.BmcDaemon Bmc.Manager.Request where
  plat := cfg.plat
  tables := cfg.tables
  archive := listArchive
  createDump r params := do
    let _ ← Bmc.Manager.createDump cfg { r with params := params }

private def announced : Event Bmc.Manager.BmcDaemon Bmc.Manager.Request :=
  .signal (entryPath 5) (.interfacesAdded (some ((∅ : PropertyMap).insert "xyz.openbmc_project.Logging.Entry"
    ((∅ : ExtTreeMap String String).insert "Message" "xyz.openbmc_project.Common.Error.InternalFailure")))
    (Bmc.Manager.plainRequest 7))

private def bareManager : Bmc.Manager.BmcDaemon := State.bare ⟨false⟩ .root

theorem announced_again_not_requested :
    Always (step (bmcConfig Bmc.Manager.defaultConfig)) (InStep (bmcConfig Bmc.Manager.defaultConfig))
      (started (bmcConfig Bmc.Manager.defaultConfig) none bareManager []) [announced, .restart bareManager, announced] ∧
    (run (step (bmcConfig Bmc.Manager.defaultConfig)) (started (bmcConfig Bmc.Manager.defaultConfig) none bareManager [])
      [announced, .restart bareManager, announced]).map (callsFor 5) = some 1 := by
  refine ⟨(histories_inStep (by decide) ⟨none, bareManager, by simp, rfl⟩ ?_).1, by decide +kernel⟩
  have hwellFormed : WellFormed announced := Option.isSome_of_eq_some (logId_entryPath (by decide))
  simp only [List.forall_mem_cons]
  exact ⟨hwellFormed, trivial, hwellFormed, by simp⟩

end Announcements

end DumpCollector.Elog.Histories
