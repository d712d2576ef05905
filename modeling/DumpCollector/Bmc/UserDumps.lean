import DumpCollector.Bmc.Steps
import DumpCollector.Children

namespace DumpCollector.Bmc.UserDumps

open Std Lib.Directory Lib.Effects Lib.Maps Lib.Runs Entries FileNames Requests State Dispatch Frames
open DumpCollector.Steps Slots Children Bmc.Manager Capture Bmc.Steps

variable (cfg : Config)

/-- At most one collector of a user dump is alive, and the flag is set exactly as long as
one is or the end of one is still to be reported. -/
structure Exact (s : BmcDaemon) : Prop where
  one : ∀ (pid pid' : Nat) (p p' : Process DumpTypes), s.procs[pid]? = some p → s.procs[pid']? = some p' →
    p.collector.kind = .USER → p'.collector.kind = .USER → Alive p → Alive p' → pid = pid'
  known : ∀ (pid : Nat) (p : Process DumpTypes), s.procs[pid]? = some p → p.collector.kind = .USER → Alive p →
    s.own.fUserDumpInProgress = true
  running : s.own.fUserDumpInProgress = true → ∃ (pid : Nat) (p : Process DumpTypes), s.procs[pid]? = some p ∧
    p.collector.kind = .USER ∧ (Alive p ∨ pid ∈ s.childPtrMap)

def hasExited : ProcessState → Bool
  | .exited _ => true
  | .running | .stopped _ => false

/-- A collector of a user dump that is forked is also registered and given its entry, and
what is reported of it is its exit and not that it has been stopped. -/
def UserHandled (s : BmcDaemon) : Event Request FileEvent → Prop
  | .createDump r => ∀ x ∈ starts cfg r s, x.2 = .USER → r.fork.registered = true ∧ r.construction = .done
  | .childNotification pid => ∀ c ∈ s.childPtrMap[pid]?, c.kind = .USER → ∀ p ∈ s.procs[pid]?,
      hasExited p.state = true
  | _ => True

instance decidableUserHandled (s : BmcDaemon) (ev : Event Request FileEvent) : Decidable (UserHandled cfg s ev) :=
  match ev with
  | .createDump r =>
      inferInstanceAs (Decidable (∀ x ∈ starts cfg r s, x.2 = .USER → r.fork.registered = true ∧ r.construction = .done))
  | .childNotification pid => inferInstanceAs (Decidable (∀ c ∈ s.childPtrMap[pid]?, c.kind = .USER →
      ∀ p ∈ s.procs[pid]?, hasExited p.state = true))
  | .delete _ | .deleteAll | .files _ | .exits _ _ | .stops _ _ | .continues _ | .watchReady _ | .handle _ =>
      isTrue trivial

/-- The invariant: the flag stands for the one registered collector of a user dump, and
no other is alive. -/
structure Tracked (s : BmcDaemon) : Prop where
  registered : ∀ (pid : Nat) (p : Process DumpTypes), s.procs[pid]? = some p → p.collector.kind = .USER → Alive p →
    pid ∈ s.childPtrMap
  flag : s.own.fUserDumpInProgress = true ↔
    ∃ (pid : Nat) (c : Collector DumpTypes), s.childPtrMap[pid]? = some c ∧ c.kind = .USER
  one : ∀ (pid pid' : Nat) (c c' : Collector DumpTypes), s.childPtrMap[pid]? = some c →
    s.childPtrMap[pid']? = some c' → c.kind = .USER → c'.kind = .USER → pid = pid'

/-- What a step does to the flag, the processes and the children. -/
inductive Moves (s t : BmcDaemon) : Event Request FileEvent → Prop
  | quiet (ev : Event Request FileEvent) (hC : UserHandled cfg s ev) (hown : t.own = s.own) (hprocs : t.procs = s.procs)
      (hchildren : t.childPtrMap = s.childPtrMap) : Moves s t ev
  | unregistered (r : Request) (pid id : Nat) (type : DumpTypes) (hstarts : starts cfg r s = some (pid, type))
      (hfresh : pid ∉ s.procs) (hregistered : r.fork.registered = false) (hown : t.own = s.own)
      (hprocs : t.procs = s.procs.insert pid ⟨⟨type, id⟩, .running⟩) (hchildren : t.childPtrMap = s.childPtrMap) :
      Moves s t (.createDump r)
  | registered (r : Request) (pid id : Nat) (type : DumpTypes) (hstarts : starts cfg r s = some (pid, type))
      (hfresh : pid ∉ s.procs) (hregistered : r.fork.registered = true)
      (hown : t.own = if r.construction = .done ∧ type = .USER then ⟨true⟩ else s.own)
      (hprocs : t.procs = s.procs.insert pid ⟨⟨type, id⟩, .running⟩)
      (hchildren : t.childPtrMap = s.childPtrMap.insertIfNew pid ⟨type, id⟩) : Moves s t (.createDump r)
  | changed (ev : Event Request FileEvent) (hC : UserHandled cfg s ev) (pid : Nat) (p : Process DumpTypes)
      (state : ProcessState) (hp : s.procs[pid]? = some p) (halive : Alive p)
      (hprocs : t.procs = s.procs.insert pid { p with state := state }) (hown : t.own = s.own)
      (hchildren : t.childPtrMap = s.childPtrMap) : Moves s t ev
  | ended (pid : Nat) (c : Collector DumpTypes) (p : Process DumpTypes) (hchild : s.childPtrMap[pid]? = some c)
      (hp : s.procs[pid]? = some p) (hown : t.own = childEnded c.kind s.own)
      (hprocs : t.procs = if hasExited p.state = true then s.procs.erase pid else s.procs)
      (hchildren : t.childPtrMap = s.childPtrMap.erase pid) : Moves s t (.childNotification pid)

section Moves

variable {cfg} {s t : BmcDaemon}

theorem createEntry_own {io : FileEvent} {file : Path} {u : Unit} (h : createEntry cfg io file s = .ok u t) :
    t.own = s.own := by
  cases createEntry_cases h with
  | ignored _ _ ht => rw [ht]
  | created _ _ _ _ _ _ _ ht => rw [ht]
  | updated _ _ _ _ _ _ _ ht =>
      rw [ht]
      exact (filesOnly_serialize _ _ _).own

theorem createDump_moves {r : Request} (hfresh : r.fork.fresh s = true)
    (h : final (createDump cfg r s) = t) : Moves cfg s t (.createDump r) := by
  have htrim := trimmed_prepare cfg r s
  have hown := sameOwn_prepare cfg r s
  have hprocs (pid : Nat) (p : Process DumpTypes) :
      (final (prepare cfg r s)).procs.insert pid p = s.procs.insert pid p := by rw [htrim.procs]
  have hchildren (pid : Nat) (c : Collector DumpTypes) :
      (final (prepare cfg r s)).childPtrMap.insertIfNew pid c = s.childPtrMap.insertIfNew pid c := by
    rw [htrim.childPtrMap]
  have hcaptured := createDump_captured cfg r s
  generalize createDump cfg r s = result at h hcaptured
  subst h
  cases hcaptured with
  | refused e t hstarts ht =>
      subst ht
      exact .quiet _ (fun x hx => by rw [hstarts] at hx; cases hx) hown htrim.procs htrim.childPtrMap
  | unregistered pid type u hstarts hu hregistered =>
      subst hu
      have hnew := not_mem_of_fresh hfresh (starts_eq_some.mp hstarts).1
      exact .unregistered r pid _ type hstarts hnew hregistered hown (hprocs pid _) htrim.childPtrMap
  | unconstructed e pid type u hstarts hu hregistered hconstruction =>
      subst hu
      have hnew := not_mem_of_fresh hfresh (starts_eq_some.mp hstarts).1
      refine .registered r pid _ type hstarts hnew hregistered ?_ (hprocs pid _) (hchildren pid _)
      rw [if_neg fun h => hconstruction h.1]
      exact hown
  | inserted pid type u originatorId originatorType hstarts hu hregistered hconstruction =>
      subst hu
      have hnew := not_mem_of_fresh hfresh (starts_eq_some.mp hstarts).1
      refine .registered r pid _ type hstarts hnew hregistered ?_ (hprocs pid _) (hchildren pid _)
      simp only [final_ok, hown, hconstruction, true_and]

theorem ended_moves {pid : Nat} (h : step (bmcOps cfg) s (.childNotification pid) = some t) :
    Moves cfg s t (.childNotification pid) := by
  obtain ⟨-, c, p, status, hchild, hp, -, rfl⟩ := step_childNotification h
  cases hstate : p.state with
  | exited status => exact .ended pid c p hchild hp rfl (by rw [hstate]; rfl) rfl
  | running | stopped signal => exact .ended pid c p hchild hp rfl (by rw [hstate]; rfl) rfl

theorem step_moves {ev : Event Request FileEvent} (h : step (bmcOps cfg) s ev = some t) : Moves cfg s t ev := by
  by_cases hended : ∃ pid, ev = .childNotification pid
  · obtain ⟨pid, rfl⟩ := hended
    exact ended_moves h
  · have hquiet : (∀ r, ev ≠ .createDump r) → UserHandled cfg s ev := by
      intro hev
      cases ev with
      | createDump r => exact absurd rfl (hev r)
      | childNotification pid => exact absurd ⟨pid, rfl⟩ hended
      | _ => trivial
    cases step_cases h with
    | request r hfresh hfinal => exact createDump_moves hfresh ((final_map some (createDump cfg r) s).symm.trans hfinal)
    | trimmed _ hev htrim hown => exact .quiet _ (hquiet hev) hown htrim.procs htrim.childPtrMap
    | changed _ hev pid p state hp halive ht =>
        subst ht
        exact .changed _ (hquiet hev) pid p state hp halive rfl rfl rfl
    | read p =>
        obtain ⟨-, w, -, rfl⟩ := step_watchReady h
        rw [setWatch]
        split <;> exact .quiet _ trivial rfl rfl rfl
    | handled io =>
        obtain ⟨path, mask, rest, htodo, ⟨-, -, u, hc⟩ | ⟨-, -, rfl⟩ | ⟨-, -, -, rfl⟩ | ⟨-, -, rfl⟩⟩ := step_handle h
        · have hcreate : createEntry cfg io path (unwatched s rest path.dropLast) = .ok u t := hc
          have hfiled := createEntry_filed hcreate
          exact .quiet _ trivial ((createEntry_own hcreate).trans rfl) hfiled.procs hfiled.childPtrMap
        all_goals exact .quiet _ trivial rfl rfl rfl
    | notified pid => exact absurd ⟨pid, rfl⟩ hended

end Moves

section Steps

variable {cfg} {s t : BmcDaemon}

theorem Tracked.exact (h : Tracked s) (hs : Registered s) : Exact s := by
  have hcollector : ∀ (pid : Nat) (p : Process DumpTypes), s.procs[pid]? = some p → p.collector.kind = .USER →
      Alive p → s.childPtrMap[pid]? = some p.collector := by
    intro pid p hp huser halive
    obtain ⟨c, hc⟩ := (mem_iff _ _).mp (h.registered pid p hp huser halive)
    obtain ⟨p', hp', rfl⟩ := hs pid c hc
    rw [hp] at hp'
    cases hp'
    exact hc
  refine ⟨?_, ?_, ?_⟩
  · intro pid pid' p p' hp hp' huser huser' halive halive'
    exact h.one pid pid' _ _ (hcollector pid p hp huser halive) (hcollector pid' p' hp' huser' halive') huser huser'
  · intro pid p hp huser halive
    exact h.flag.mpr ⟨pid, _, hcollector pid p hp huser halive, huser⟩
  · intro hflag
    obtain ⟨pid, c, hc, huser⟩ := h.flag.mp hflag
    obtain ⟨p, hp, rfl⟩ := hs pid c hc
    exact ⟨pid, p, hp, huser, .inr ((mem_iff _ _).mpr ⟨_, hc⟩)⟩

theorem Tracked.of_stillAlive (hs : Tracked s) (hown : t.own = s.own) (hchildren : t.childPtrMap = s.childPtrMap)
    (halive : ∀ (pid : Nat) (p : Process DumpTypes), t.procs[pid]? = some p → p.collector.kind = .USER → Alive p →
      ∃ p', s.procs[pid]? = some p' ∧ p'.collector.kind = .USER ∧ Alive p') : Tracked t := by
  refine ⟨fun pid p hp huser ha => ?_, ?_, ?_⟩
  · obtain ⟨p', hp', huser', ha'⟩ := halive pid p hp huser ha
    rw [hchildren]
    exact hs.registered pid p' hp' huser' ha'
  · rw [hown, hchildren]
    exact hs.flag
  · rw [hchildren]
    exact hs.one

theorem alive_of_not_hasExited {p : Process DumpTypes} : hasExited p.state = false ↔ Alive p := by
  obtain ⟨c, state⟩ := p
  cases state with
  | exited status => exact ⟨nofun, fun h => absurd rfl (h status)⟩
  | running | stopped signal => exact ⟨fun _ _ => nofun, fun _ => rfl⟩

theorem Tracked.started (hs : Tracked s) {pid id : Nat} {type : DumpTypes} (hfresh : pid ∉ s.procs)
    (hchildren₀ : Registered s) (hnone : type = .USER → s.own.fUserDumpInProgress = false)
    (hown : t.own = if type = .USER then ⟨true⟩ else s.own)
    (hprocs : t.procs = s.procs.insert pid ⟨⟨type, id⟩, .running⟩)
    (hchildren : t.childPtrMap = s.childPtrMap.insertIfNew pid ⟨type, id⟩) : Tracked t := by
  have hget : ∀ q : Nat, t.childPtrMap[q]? = if pid = q then some ⟨type, id⟩ else s.childPtrMap[q]? := by
    intro q
    rw [hchildren, insertIfNew_of_absent (not_registered_of_fresh hchildren₀ hfresh), insert_get]
  have hold : type = .USER → ∀ (q : Nat) (c : Collector DumpTypes), s.childPtrMap[q]? = some c → c.kind ≠ .USER := by
    intro htype q c hc huser
    have hflag := hs.flag.mpr ⟨q, c, hc, huser⟩
    rw [hnone htype] at hflag
    cases hflag
  refine ⟨fun q p hp huser ha => ?_, ?_, fun q q' c c' hc hc' huser huser' => ?_⟩
  · rw [hprocs, insert_get] at hp
    rw [mem_iff, hget]
    split at hp
    · rename_i hq
      exact ⟨_, if_pos hq⟩
    · rename_i hq
      rw [if_neg hq, ← mem_iff]
      exact hs.registered q p hp huser ha
  · by_cases htype : type = .USER
    · rw [hown, if_pos htype]
      exact iff_of_true rfl ⟨pid, _, by rw [hget, if_pos rfl], htype⟩
    · rw [hown, if_neg htype, hs.flag]
      constructor
      · rintro ⟨q, c, hc, huser⟩
        refine ⟨q, c, ?_, huser⟩
        rw [hget, if_neg fun hq => ?_, hc]
        rw [← hq, not_registered_of_fresh hchildren₀ hfresh] at hc
        cases hc
      · rintro ⟨q, c, hc, huser⟩
        rw [hget] at hc
        split at hc
        · cases hc
          exact absurd huser htype
        · exact ⟨q, c, hc, huser⟩
  · rw [hget] at hc hc'
    split at hc <;> split at hc'
    · rename_i hq hq'
      exact hq.symm.trans hq'
    · cases hc
      exact absurd huser' (hold huser q' c' hc')
    · cases hc'
      exact absurd huser (hold huser' q c hc)
    · exact hs.one q q' c c' hc hc' huser huser'

theorem Tracked.ended (hs : Tracked s) {pid : Nat} {c : Collector DumpTypes} {p : Process DumpTypes}
    (hchild : s.childPtrMap[pid]? = some c) (hp : s.procs[pid]? = some p)
    (hexited : c.kind = .USER → hasExited p.state = true) (hchildren₀ : Registered s)
    (hown : t.own = childEnded c.kind s.own)
    (hprocs : t.procs = if hasExited p.state = true then s.procs.erase pid else s.procs)
    (hchildren : t.childPtrMap = s.childPtrMap.erase pid) : Tracked t := by
  have hget : ∀ q : Nat, t.childPtrMap[q]? = if pid = q then none else s.childPtrMap[q]? := by
    intro q
    rw [hchildren, erase_get]
  have hone : ∀ (q : Nat) (d : Collector DumpTypes), t.childPtrMap[q]? = some d → s.childPtrMap[q]? = some d := by
    intro q d hd
    rw [hget] at hd
    split at hd
    · cases hd
    · exact hd
  refine ⟨fun q p' hp' huser ha => ?_, ?_, fun q q' d d' hd hd' => hs.one q q' d d' (hone q d hd) (hone q' d' hd')⟩
  · have hold : s.procs[q]? = some p' := by
      rw [hprocs] at hp'
      split at hp'
      · rw [erase_get] at hp'
        split at hp'
        · cases hp'
        · exact hp'
      · exact hp'
    have hne : pid ≠ q := by
      rintro rfl
      obtain ⟨p'', hp'', rfl⟩ := hchildren₀ pid c hchild
      obtain rfl : p = p'' := Option.some.inj (hp.symm.trans hp'')
      obtain rfl : p = p' := Option.some.inj (hp.symm.trans hold)
      have hexited := hexited huser
      rw [alive_of_not_hasExited.mpr ha] at hexited
      cases hexited
    rw [mem_iff, hget, if_neg hne, ← mem_iff]
    exact hs.registered q p' hold huser ha
  · by_cases huser : c.kind = .USER
    · rw [hown, childEnded, if_pos huser]
      apply iff_of_false Bool.false_ne_true
      rintro ⟨q, d, hd, huser'⟩
      obtain rfl := hs.one pid q c d hchild (hone q d hd) huser huser'
      rw [hget, if_pos rfl] at hd
      cases hd
    · rw [hown, childEnded, if_neg huser, hs.flag]
      constructor
      · rintro ⟨q, d, hd, huser'⟩
        refine ⟨q, d, ?_, huser'⟩
        rw [hget, if_neg fun hq => ?_, hd]
        rw [← hq, hchild] at hd
        cases hd
        exact huser huser'
      · rintro ⟨q, d, hd, huser'⟩
        exact ⟨q, d, hone q d hd, huser'⟩

theorem step_tracked {ev : Event Request FileEvent} (hs : Tracked s) (hchildren₀ : Registered s)
    (hC : UserHandled cfg s ev) (h : step (bmcOps cfg) s ev = some t) : Tracked t := by
  cases step_moves h with
  | quiet _ _ hown hprocs hchildren =>
      exact hs.of_stillAlive hown hchildren fun pid p hp huser ha => ⟨p, hprocs ▸ hp, huser, ha⟩
  | unregistered r pid id type hstarts hfresh hregistered hown hprocs hchildren =>
      refine hs.of_stillAlive hown hchildren fun pid' p hp huser ha => ?_
      rw [hprocs, insert_get] at hp
      split at hp
      · cases hp
        have hdone := hC (pid, type) hstarts huser
        rw [hregistered] at hdone
        cases hdone.1
      · exact ⟨p, hp, huser, ha⟩
  | registered r pid id type hstarts hfresh hregistered hown hprocs hchildren =>
      have hif : (r.construction = .done ∧ type = .USER) ↔ type = .USER :=
        ⟨fun h => h.2, fun htype => ⟨(hC (pid, type) hstarts htype).2, htype⟩⟩
      simp only [hif] at hown
      refine hs.started hfresh hchildren₀ (fun htype => ?_) hown hprocs hchildren
      exact not_inProgress_of_starts (htype ▸ hstarts)
  | changed _ _ pid p state hp halive hprocs hown hchildren =>
      refine hs.of_stillAlive hown hchildren fun pid' p' hp' huser ha => ?_
      rw [hprocs, insert_get] at hp'
      split at hp'
      · rename_i heq
        cases hp'
        exact ⟨p, heq ▸ hp, huser, halive⟩
      · exact ⟨p', hp', huser, ha⟩
  | ended pid c p hchild hp hown hprocs hchildren =>
      exact hs.ended hchild hp (fun huser => hC c hchild huser p hp) hchildren₀ hown hprocs hchildren

theorem userHandled_of_exact {ev : Event Request FileEvent} (hchildren₀ : Registered s) (ht : Exact t)
    (h : step (bmcOps cfg) s ev = some t) : UserHandled cfg s ev := by
  cases step_moves h with
  | quiet _ hC => exact hC
  | changed _ hC => exact hC
  | unregistered r pid id type hstarts hfresh hregistered hown hprocs hchildren =>
      rintro x hx huser
      rw [hstarts] at hx
      cases hx
      obtain rfl : type = .USER := huser
      have hflag := ht.known pid _ (by rw [hprocs, insert_get, if_pos rfl]) rfl (alive_running _)
      rw [hown, not_inProgress_of_starts hstarts] at hflag
      cases hflag
  | registered r pid id type hstarts hfresh hregistered hown hprocs hchildren =>
      rintro x hx huser
      rw [hstarts] at hx
      cases hx
      obtain rfl : type = .USER := huser
      refine ⟨hregistered, ?_⟩
      by_contra hconstruction
      have hflag := ht.known pid _ (by rw [hprocs, insert_get, if_pos rfl]) rfl (alive_running _)
      rw [hown, if_neg fun h => hconstruction h.1, not_inProgress_of_starts hstarts] at hflag
      cases hflag
  | ended pid c p hchild hp hown hprocs hchildren =>
      intro c' hc' huser p' hp'
      obtain rfl : c = c' := Option.some.inj (hchild.symm.trans hc')
      obtain rfl : p = p' := Option.some.inj (hp.symm.trans hp')
      by_contra hexited
      rw [Bool.not_eq_true] at hexited
      obtain ⟨p', hp'', rfl⟩ := hchildren₀ pid c hchild
      obtain rfl : p = p' := Option.some.inj (hp.symm.trans hp'')
      rw [hexited] at hprocs
      have hflag := ht.known pid p (hprocs ▸ hp) huser (alive_of_not_hasExited.mp hexited)
      rw [hown, childEnded, if_pos huser] at hflag
      cases hflag

theorem tracked_of_idle (hs : Idle s) (hown : s.own = ⟨false⟩) : Tracked s := by
  refine ⟨fun pid p hp => ?_, ?_, fun pid pid' c c' hc => ?_⟩
  · rw [hs.procs] at hp
    cases hp
  · rw [hown]
    refine ⟨nofun, fun ⟨pid, c, hc, _⟩ => ?_⟩
    rw [hs.childPtrMap] at hc
    cases hc
  · rw [hs.childPtrMap] at hc
    cases hc

end Steps

section Runs

variable {s u : BmcDaemon}

/-- In every run the flag is exact, and no two user dumps are collected at a time, exactly
if every collector of a user dump that is forked is handled to its exit. -/
theorem exact_iff_userHandled {es : List (Event Request FileEvent)} (hs : Started cfg s)
    (hrun : run (step (bmcOps cfg)) s es = some u) :
    Always (step (bmcOps cfg)) Exact s es ↔ EachStep (step (bmcOps cfg)) (UserHandled cfg) s es := by
  have hidle := (restoring_of_started cfg hs).idle
  exact always_iff_eachStep_of_invariant (step_registered (sound cfg)) (fun _ hJ hI => Tracked.exact hI hJ)
    (fun _ _ _ hJ hI h hC => step_tracked hI hJ hC h) (fun _ _ _ hJ _ h hP => userHandled_of_exact hJ hP h) hrun
    (registered_of_idle hidle) (tracked_of_idle hidle (own_of_started cfg hs))

end Runs

private def stoppedUserDump : List (Event Request FileEvent) :=
  [.createDump (plainRequest 7), .stops 7 19, .childNotification 7, .continues 7, .createDump (plainRequest 8)]

theorem stopped_collector_frees_flag : ∃ s t, Started defaultConfig s ∧
    run (step (bmcOps defaultConfig)) s stoppedUserDump = some t ∧ ¬ Exact t :=
  ⟨_, _, started_root _, rfl, fun h => absurd (h.one 7 8 ⟨⟨.USER, 1⟩, .running⟩ ⟨⟨.USER, 2⟩, .running⟩ rfl rfl rfl rfl
    (alive_running _) (alive_running _)) (by decide)⟩

theorem exited_collector_exact : Always (step (bmcOps defaultConfig)) Exact (bare ⟨false⟩ .root)
    [.createDump (plainRequest 7), .exits 7 0, .childNotification 7, .createDump (plainRequest 8)] :=
  (exact_iff_userHandled defaultConfig (started_root _) rfl).mpr (by decide +kernel)

end DumpCollector.Bmc.UserDumps
