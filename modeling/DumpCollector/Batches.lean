import DumpCollector.Bmc.Manager
import Mathlib.Data.List.Nodup

namespace DumpCollector.Batches

open Std Lib.Directory Lib.Runs Lib.Effects Lib.Maps Inotify Entries Requests State Dispatch Bmc.Manager

section Reads

/-- A way in which the kernel hands events out: each read returns some whole events, as
many as there are and as fit. -/
structure Batching (events : List InotifyEvent) where
  batches : List (List InotifyEvent)
  flatten : batches.flatten = events
  fits : ∀ b ∈ batches, b ≠ [] ∧ (fitting (maxBytes - 1) b).2 = []

variable (w : Watch)

def userMaps (batches : List (List InotifyEvent)) : List UserMap :=
  (batches.map fun b => ({ w with queue := b }).callback.2).filter fun map => !map.isEmpty

def delivered (maps : List UserMap) : List (Path × Nat) := maps.flatMap ExtTreeMap.toList

def isReported (e : InotifyEvent) : Bool := e.mask &&& w.mask ≠ 0

def report (e : InotifyEvent) : Path × Nat := (w.path ++ [e.name], e.mask &&& w.mask)

def reports (events : List InotifyEvent) : List (Path × Nat) := (events.filter (isReported w)).map (report w)

end Reads

section Manager

variable {E X C R I : Type} [DumpEntry E] (ops : Ops E X C R I)

def watchItems (outcomes : Nat → I) : Nat → List (Path × Nat) → Op E X C Unit
  | _, [] => pure ()
  | k, (path, mask) :: rest => do
      watchItem ops (outcomes k) path mask
      watchItems outcomes (k + 1) rest

def watchCallbacks (outcomes : Nat → I) : Nat → List UserMap → Op E X C Unit
  | _, [] => pure ()
  | k, fileInfo :: rest => do
      watchItems ops outcomes k fileInfo.toList
      watchCallbacks outcomes (k + fileInfo.toList.length) rest

omit [DumpEntry E] in
theorem watchItems_append (outcomes : Nat → I) (k : Nat) (xs ys : List (Path × Nat)) (s : Daemon E X C) :
    watchItems ops outcomes k (xs ++ ys) s =
      (watchItems ops outcomes k xs >>= fun _ => watchItems ops outcomes (k + xs.length) ys) s := by
  induction xs generalizing k s with
  | nil => rfl
  | cons x xs ih =>
      obtain ⟨path, mask⟩ := x
      have hlength : k + ((path, mask) :: xs).length = k + 1 + xs.length := by
        rw [List.length_cons]
        omega
      rw [List.cons_append, watchItems, watchItems, bind_assoc, hlength]
      exact bind_congr_of_ok fun _ t _ => ih (k + 1) t

omit [DumpEntry E] in
/-- What the manager does depends on the items only, and not on how they are grouped. -/
theorem watchCallbacks_eq (outcomes : Nat → I) (k : Nat) (maps : List UserMap) (s : Daemon E X C) :
    watchCallbacks ops outcomes k maps s = watchItems ops outcomes k (delivered maps) s := by
  induction maps generalizing k s with
  | nil => rfl
  | cons fileInfo rest ih =>
      rw [watchCallbacks, delivered, List.flatMap_cons, watchItems_append]
      exact bind_congr_of_ok fun _ t _ => ih _ t

end Manager

section Order

variable {w : Watch} {events b : List InotifyEvent}

theorem compare_child (dir : Path) (x y : String) : compare (dir ++ [x]) (dir ++ [y]) = compare x y := by
  induction dir with
  | nil => simp
  | cons d dir ih => simpa [List.compare_eq_compareLex, List.compareLex_cons_cons] using ih

/-- The events that the watch reports come in the order of their names, no two for one name. -/
def Ordered (w : Watch) (events : List InotifyEvent) : Prop :=
  (events.filter (isReported w)).Pairwise fun e e' => compare e.name e'.name = .lt

instance decidableOrdered (w : Watch) (events : List InotifyEvent) : Decidable (Ordered w events) :=
  inferInstanceAs (Decidable (List.Pairwise _ _))

theorem pairwise_reports :
    (reports w b).Pairwise (fun x y => compare x.1 y.1 = .lt) ↔ Ordered w b := by
  rw [reports, List.pairwise_map, Ordered]
  refine List.Pairwise.iff fun e e' => ?_
  rw [report, report, compare_child]

theorem reports_append (xs ys : List InotifyEvent) : reports w (xs ++ ys) = reports w xs ++ reports w ys := by
  rw [reports, List.filter_append, List.map_append]
  rfl

theorem nodup_names (h : Ordered w b) : ((b.filter (isReported w)).map InotifyEvent.name).Nodup := by
  refine List.pairwise_map.mpr (h.imp fun hlt hsame => ?_)
  rw [hsame, compare_self] at hlt
  cases hlt

theorem mem_keys_userMap (p : Path) :
    p ∈ (userMap w b).keys ↔ ∃ e ∈ b, isReported w e = true ∧ w.path ++ [e.name] = p := by
  rw [ExtTreeMap.mem_keys, ExtTreeMap.mem_iff_isSome_getElem?, userMap_get, Option.isSome_map, List.find?_isSome]
  simp [selects, isReported]

theorem mem_userMap_iff (h : Ordered w b) (x : Path × Nat) : x ∈ (userMap w b).toList ↔ x ∈ reports w b := by
  obtain ⟨p, m⟩ := x
  rw [ExtTreeMap.mem_toList_iff_getElem?_eq_some]
  constructor
  · intro hget
    obtain ⟨e, he, hp, hm, hne⟩ := of_mem_userMap w hget
    refine List.mem_map.mpr ⟨e, List.mem_filter.mpr ⟨he, ?_⟩, by rw [hp, hm]; rfl⟩
    rw [isReported, decide_eq_true_eq, ← hm]
    exact hne
  · intro hmem
    obtain ⟨e, he, heq⟩ := List.mem_map.mp hmem
    cases heq
    obtain ⟨hmemb, hrep⟩ := List.mem_filter.mp he
    have hsel : selects w e (w.path ++ [e.name]) = true := by simpa [selects, isReported] using hrep
    rw [userMap_get]
    cases hfind : b.find? fun e' => selects w e' (w.path ++ [e.name]) with
    | none => exact absurd hsel (List.find?_eq_none.mp hfind e hmemb)
    | some e' =>
        have hsel' := List.find?_some hfind
        simp only [selects, decide_eq_true_eq] at hsel'
        have he' : e' ∈ b.filter (isReported w) :=
          List.mem_filter.mpr ⟨List.mem_of_find?_eq_some hfind, by simpa [isReported] using hsel'.1⟩
        have hname : e'.name = e.name := List.singleton_inj.mp (List.append_cancel_left hsel'.2)
        obtain rfl : e' = e := List.inj_on_of_nodup_map (nodup_names h) he' he hname
        rfl

theorem userMap_toList_iff : (userMap w b).toList = reports w b ↔ Ordered w b := by
  constructor
  · intro heq
    exact pairwise_reports.mp (heq ▸ ExtTreeMap.ordered_keys_toList)
  · intro h
    have hreports := pairwise_reports.mpr h
    have hnodup : ∀ {xs : List (Path × Nat)}, xs.Pairwise (fun x y => compare x.1 y.1 = .lt) → xs.Nodup :=
      fun hxs => hxs.imp fun hlt heq => by
        rw [heq, compare_self] at hlt
        cases hlt
    have hperm : (userMap w b).toList.Perm (reports w b) :=
      (List.perm_ext_iff_of_nodup (hnodup ExtTreeMap.ordered_keys_toList) (hnodup hreports)).mpr (mem_userMap_iff h)
    refine hperm.eq_of_pairwise (fun x y _ _ hxy hyx => ?_) ExtTreeMap.ordered_keys_toList hreports
    rw [OrientedCmp.gt_of_lt hyx] at hxy
    cases hxy

end Order

section Batching

variable {w : Watch} {events b : List InotifyEvent}

theorem callback_eq (hfit : (fitting (maxBytes - 1) b).2 = []) :
    ({ w with queue := b }).callback.2 = userMap w b := by
  have hall := fitting_append (maxBytes - 1) b
  rw [hfit, List.append_nil] at hall
  change userMap w (fitting (maxBytes - 1) b).1 = userMap w b
  rw [hall]

/-- What is made of the maps that reach the user function is made of those of all reads, if
nothing is made of an empty one. -/
theorem flatMap_userMaps {α : Type} {f : UserMap → List α} (hf : f ∅ = []) {batches : List (List InotifyEvent)}
    (h : ∀ b ∈ batches, (fitting (maxBytes - 1) b).2 = []) :
    (userMaps w batches).flatMap f = batches.flatMap fun b => f (userMap w b) := by
  induction batches with
  | nil => rfl
  | cons b rest ih =>
      have hrest := ih fun b' hb' => h b' (List.mem_cons_of_mem _ hb')
      rw [userMaps, List.map_cons, callback_eq (h b List.mem_cons_self), List.flatMap_cons, ← hrest]
      cases hempty : (userMap w b).isEmpty with
      | true => rw [List.filter_cons_of_neg (by simp [hempty]), ExtTreeMap.isEmpty_iff.mp hempty, hf]; rfl
      | false => rw [List.filter_cons_of_pos (by simp [hempty])]; rfl

theorem delivered_userMaps {batches : List (List InotifyEvent)}
    (h : ∀ b ∈ batches, (fitting (maxBytes - 1) b).2 = []) :
    delivered (userMaps w batches) = batches.flatMap fun b => (userMap w b).toList := flatMap_userMaps rfl h

theorem flatMap_reports (batches : List (List InotifyEvent)) :
    batches.flatMap (reports w) = reports w batches.flatten := by
  induction batches with
  | nil => rfl
  | cons b rest ih => rw [List.flatMap_cons, List.flatten_cons, reports_append, ih]

theorem delivered_of_ordered {batches : List (List InotifyEvent)}
    (h : ∀ b ∈ batches, (fitting (maxBytes - 1) b).2 = [] ∧ Ordered w b) :
    delivered (userMaps w batches) = reports w batches.flatten := by
  rw [delivered_userMaps fun b hb => (h b hb).1, ← flatMap_reports]
  exact List.flatMap_congr fun b hb => userMap_toList_iff.mpr (h b hb).2

theorem fits_one {e : InotifyEvent} (h : e.bytes ≤ maxBytes - 1) : (fitting (maxBytes - 1) [e]).2 = [] := by
  rw [fitting, if_pos h]
  rfl

theorem ordered_one (e : InotifyEvent) : Ordered w [e] := by
  cases hrep : isReported w e with
  | true => simp [Ordered, hrep]
  | false => simp [Ordered, hrep]

def oneByOne (events : List InotifyEvent) : List (List InotifyEvent) := events.map fun e => [e]

theorem flatten_oneByOne (events : List InotifyEvent) : (oneByOne events).flatten = events :=
  List.flatMap_singleton' events

theorem bytes_le_of_fits {room : Nat} (h : (fitting room b).2 = []) {e : InotifyEvent} (he : e ∈ b) :
    e.bytes ≤ room := by
  induction b generalizing room with
  | nil => cases he
  | cons e' rest ih =>
      rw [fitting] at h
      split at h
      · rename_i hroom
        rcases List.mem_cons.mp he with rfl | he
        · exact hroom
        · exact (ih h he).trans (Nat.sub_le _ _)
      · cases h

theorem oneByOne_fits (h : ∀ e ∈ events, e.bytes ≤ maxBytes - 1) {b : List InotifyEvent} (hb : b ∈ oneByOne events) :
    b ≠ [] ∧ (fitting (maxBytes - 1) b).2 = [] := by
  obtain ⟨e, he, rfl⟩ := List.mem_map.mp hb
  exact ⟨List.cons_ne_nil _ _, fits_one (h e he)⟩

def separately (hfit : ∀ e ∈ events, e.bytes ≤ maxBytes - 1) : Batching events where
  batches := oneByOne events
  flatten := flatten_oneByOne events
  fits _ := oneByOne_fits hfit

def around {pre post : List InotifyEvent} (heq : pre ++ b ++ post = events) (hne : b ≠ [])
    (hb : (fitting (maxBytes - 1) b).2 = []) (hfit : ∀ e ∈ events, e.bytes ≤ maxBytes - 1) : Batching events where
  batches := oneByOne pre ++ b :: oneByOne post
  flatten := by
    rw [List.flatten_append, List.flatten_cons, flatten_oneByOne, flatten_oneByOne, ← List.append_assoc, heq]
  fits b' hb' := by
    subst heq
    rcases List.mem_append.mp hb' with hb' | hb'
    · exact oneByOne_fits (fun e he => hfit e (by simp [he])) hb'
    · rcases List.mem_cons.mp hb' with rfl | hb'
      · exact ⟨hne, hb⟩
      · exact oneByOne_fits (fun e he => hfit e (by simp [he])) hb'

end Batching

section Independence

variable {E X C R I : Type} [DumpEntry E] (ops : Ops E X C R I) (w : Watch) (events : List InotifyEvent)

/-- In whatever batches the events are read, the same pairs reach the user function, each
event the watch reports is among them, and the manager ends in the same state. -/
def Independent : Prop :=
  ∀ b₁ b₂ : Batching events,
    delivered (userMaps w b₁.batches) = delivered (userMaps w b₂.batches) ∧
    (reports w events).Perm (delivered (userMaps w b₁.batches)) ∧
    ∀ (outcomes : Nat → I) (s : Daemon E X C),
      watchCallbacks ops outcomes 0 (userMaps w b₁.batches) s = watchCallbacks ops outcomes 0 (userMaps w b₂.batches) s

/-- What one read can return holds no two events for one name, nor two that are not in the
order of their names. -/
def Separate : Prop :=
  (∀ e ∈ events, e.bytes ≤ maxBytes - 1) →
    ∀ b, b <:+: events → (fitting (maxBytes - 1) b).2 = [] → Ordered w b

variable {w events}

theorem delivered_of_separate (h : Separate w events) (bt : Batching events) :
    delivered (userMaps w bt.batches) = reports w events := by
  have hfit : ∀ e ∈ events, e.bytes ≤ maxBytes - 1 := fun e he => by
    rw [← bt.flatten] at he
    obtain ⟨b, hb, he⟩ := List.mem_flatten.mp he
    exact bytes_le_of_fits (bt.fits b hb).2 he
  have hordered : ∀ b ∈ bt.batches, (fitting (maxBytes - 1) b).2 = [] ∧ Ordered w b := fun b hb =>
    ⟨(bt.fits b hb).2, h hfit b (bt.flatten ▸ List.infix_of_mem_flatten hb) (bt.fits b hb).2⟩
  rw [delivered_of_ordered hordered, bt.flatten]

theorem flatMap_oneByOne (events : List InotifyEvent) :
    ((oneByOne events).flatMap fun b => (userMap w b).toList) = reports w events := by
  calc ((oneByOne events).flatMap fun b => (userMap w b).toList) = (oneByOne events).flatMap (reports w) := by
        refine List.flatMap_congr fun b hb => ?_
        obtain ⟨e, -, rfl⟩ := List.mem_map.mp hb
        exact userMap_toList_iff.mpr (ordered_one e)
    _ = reports w events := by rw [flatMap_reports, flatten_oneByOne]

theorem ordered_of_delivered {b pre post : List InotifyEvent} (heq : pre ++ b ++ post = events)
    (hne : b ≠ []) (hb : (fitting (maxBytes - 1) b).2 = []) (hfit : ∀ e ∈ events, e.bytes ≤ maxBytes - 1)
    (h : delivered (userMaps w (around heq hne hb hfit).batches) = reports w events) : Ordered w b := by
  rw [delivered_userMaps fun b' hb' => ((around heq hne hb hfit).fits b' hb').2] at h
  have hsplit : reports w pre ++ ((userMap w b).toList ++ reports w post) =
      reports w pre ++ (reports w b ++ reports w post) := by
    rw [← List.append_assoc (reports w pre) (reports w b), ← reports_append, ← reports_append, heq, ← h,
      around, List.flatMap_append, List.flatMap_cons, flatMap_oneByOne, flatMap_oneByOne]
  exact userMap_toList_iff.mp (List.append_cancel_right (List.append_cancel_left hsplit))

omit [DumpEntry E] in
theorem independent_iff_separate (w : Watch) (events : List InotifyEvent) :
    Independent ops w events ↔ Separate w events := by
  constructor
  · rintro h hfit b ⟨pre, post, heq⟩ hb
    rcases eq_or_ne b [] with rfl | hne
    · exact List.Pairwise.nil
    · obtain ⟨hsame, -⟩ := h (around heq hne hb hfit) (separately hfit)
      refine ordered_of_delivered heq hne hb hfit (hsame.trans ?_)
      rw [delivered_userMaps fun b hb => ((separately hfit).fits b hb).2]
      exact flatMap_oneByOne events
  · intro h b₁ b₂
    have h₁ := delivered_of_separate h b₁
    have h₂ := delivered_of_separate h b₂
    refine ⟨h₁.trans h₂.symm, ?_, fun outcomes s => ?_⟩
    · rw [h₁]
    · rw [watchCallbacks_eq, watchCallbacks_eq, h₁, h₂]

end Independence

section OnePath

private def rootWatch : Watch := .new [] (IN_CLOSE_WRITE ||| IN_CREATE)

private def writtenAtOnce : List InotifyEvent :=
  [⟨IN_CREATE, "obmcdump_1_1.tar"⟩, ⟨IN_CLOSE_WRITE, "obmcdump_1_1.tar"⟩]

private def inOneRead : Batching writtenAtOnce := ⟨[writtenAtOnce], rfl, by decide +kernel⟩

private def inTwoReads : Batching writtenAtOnce :=
  ⟨[[⟨IN_CREATE, "obmcdump_1_1.tar"⟩], [⟨IN_CLOSE_WRITE, "obmcdump_1_1.tar"⟩]], rfl, by decide +kernel⟩

private def written : BmcDaemon :=
  (run (step (bmcOps defaultConfig)) (bare ⟨false⟩ .root) [.createDump (plainRequest 7),
    .files (.openFile [] "obmcdump_1_1.tar"), .files (.closeFile [] "obmcdump_1_1.tar")]).getD (bare ⟨false⟩ .root)

private def statusAfter (bt : Batching writtenAtOnce) : Option OperationStatus :=
  let t := final (watchCallbacks (bmcOps defaultConfig) (fun _ => plainEvent) 0 (userMaps rootWatch bt.batches) written)
  (t.entries[1]?.join).map fun e => e.base.status

/-- A file that is created and closed in one read is reported as created only, and its
dump is never completed. -/
theorem close_dropped_beside_create :
    ¬ Independent (bmcOps defaultConfig) rootWatch writtenAtOnce ∧
    delivered (userMaps rootWatch inOneRead.batches) = [(["obmcdump_1_1.tar"], IN_CREATE)] ∧
    delivered (userMaps rootWatch inTwoReads.batches) =
      [(["obmcdump_1_1.tar"], IN_CREATE), (["obmcdump_1_1.tar"], IN_CLOSE_WRITE)] ∧
    statusAfter inOneRead = some .InProgress ∧ statusAfter inTwoReads = some .Completed := by
  have hone : delivered (userMaps rootWatch inOneRead.batches) = [(["obmcdump_1_1.tar"], IN_CREATE)] := by
    decide +kernel
  have htwo : delivered (userMaps rootWatch inTwoReads.batches) =
      [(["obmcdump_1_1.tar"], IN_CREATE), (["obmcdump_1_1.tar"], IN_CLOSE_WRITE)] := by decide +kernel
  refine ⟨fun h => ?_, hone, htwo, by decide +kernel, by decide +kernel⟩
  have hsame := (h inOneRead inTwoReads).1
  rw [hone, htwo] at hsame
  cases hsame

end OnePath

end DumpCollector.Batches
