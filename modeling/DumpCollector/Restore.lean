import DumpCollector.Keys

namespace DumpCollector.Restore

open Std Lib.Directory Lib.Effects Lib.Maps Entries FileNames Inotify Requests State Dispatch Frames Steps Slots Keys

variable {E X C R I : Type}

def Numbered (disk : FileTree Content) (name : String) : Prop :=
  disk.isDirectory [name] = true ∧ name.toList.all Char.isDigit = true

instance decidableNumbered (disk : FileTree Content) (name : String) : Decidable (Numbered disk name) :=
  inferInstanceAs (Decidable (_ ∧ _))

def number (d : String) : Nat := Nat.ofDigitChars 10 d.toList 0

section Numbers

variable {disk : FileTree Content} {d name : String}

theorem number_toString (n : Nat) : number (toString n) = n := by
  obtain ⟨c, cs, hlist, -, hvalue⟩ := digits_of_nat n
  rw [number, hlist, hvalue]

theorem stoul_eq_ok {plat : Platform} {id : Nat} :
    stoul plat d.toList = .ok id ↔ number d = id ∧ number d ≤ plat.ulongMax := by
  rw [stoul, number]
  split
  · rename_i hle
    exact ⟨fun h => ⟨Except.ok.inj h, hle⟩, fun h => congrArg Except.ok h.1⟩
  · rename_i hgt
    exact ⟨(by simp), fun h => absurd h.2 hgt⟩

theorem numbered_root (h : Numbered disk d) : disk.isDirectory [] = true := isDirectory_parent (p := []) h.1

theorem numbered_of_content {n : Nat} (h : (disk.content [toString n, name]).isSome = true) :
    Numbered disk (toString n) := by
  obtain ⟨c, hc⟩ := Option.isSome_iff_exists.mp h
  have hmem : [toString n] ++ [name] ∈ disk.nodes := (mem_iff _ _).mpr ⟨_, (content_eq_some _ _ _).mp hc⟩
  obtain ⟨x, xs, hlist, hdigits, -⟩ := digits_of_nat n
  refine ⟨(isDirectory_iff disk _).mpr (disk.closed [toString n] name hmem), ?_⟩
  rw [hlist, List.all_eq_true]
  exact hdigits

theorem mem_children_of_content (h : (disk.content [d, name]).isSome = true) : name ∈ disk.children [d] := by
  obtain ⟨content, hcontent⟩ := Option.isSome_iff_exists.mp h
  rw [mem_children]
  exact (mem_iff _ _).mpr ⟨.file content, (content_eq_some disk _ _).mp hcontent⟩

variable {names : Path → List String} (hlist : ∀ p, (names p).Perm (disk.children p))
include hlist

theorem mem_names_of_numbered (h : Numbered disk d) : d ∈ names [] := by
  rw [(hlist []).mem_iff, mem_children]
  exact (mem_iff _ _).mpr ⟨.dir, (isDirectory_iff disk _).mp h.1⟩

theorem mem_names_of_content (h : (disk.content [d, name]).isSome = true) : name ∈ names [d] :=
  (hlist [d]).mem_iff.mpr (mem_children_of_content h)

end Numbers

section SameDisk

def SameDisk (s t : Daemon E X C) : Prop := t.disk = s.disk

instance reflSameDisk : Std.Refl (SameDisk (E := E) (X := X) (C := C)) := ⟨fun _ => rfl⟩

instance transSameDisk : IsTrans (Daemon E X C) SameDisk := ⟨fun _ _ _ h k => k.trans h⟩

theorem sameDisk_fileSize (file : Path) : Keeps SameDisk (fileSize file : Op E X C Nat) := by
  refine keeps_get_bind fun s => ?_
  cases s.disk.content file <;> exact refl s

theorem sameDisk_constructed (id : Nat) (construction : Construction) (e : E) : Keeps SameDisk (match construction with
    | .done => insertEntry id e
    | .invalidArgument => pure ()
    | .failed => throw .sdBusError : Op E X C Unit) := by
  cases construction with
  | done => exact keeps_modify fun _ => rfl
  | invalidArgument => exact keeps_pure _
  | failed => exact keeps_throw _

end SameDisk

section Adds

variable {J : Daemon E X C → Prop} {f : Nat → Prop}

def Adds (J : Daemon E X C → Prop) (f : Nat → Prop) (m : Op E X C Unit) : Prop :=
  ∀ s u t, J s → m s = .ok u t → J t ∧ ∀ k, k ∈ t.entries ↔ k ∈ s.entries ∨ f k

theorem adds_forM {β : Type} {xs : List β} {f : β → Nat → Prop} {m : β → Op E X C Unit}
    (hm : ∀ x ∈ xs, Adds J (f x) (m x)) : Adds J (fun k => ∃ x ∈ xs, f x k) (forM xs m) := by
  induction xs with
  | nil =>
      intro s u t hs h
      cases h
      exact ⟨hs, fun k => by simp⟩
  | cons x xs ih =>
      intro s u t hs h
      rw [List.forM_cons] at h
      obtain ⟨v, s', hfirst, hrest⟩ := bind_eq_ok.mp h
      obtain ⟨hs', hkeys⟩ := hm x List.mem_cons_self s v s' hs hfirst
      obtain ⟨ht, hkeys'⟩ := ih (fun y hy => hm y (List.mem_cons_of_mem _ hy)) s' u t hs' hrest
      refine ⟨ht, fun k => ?_⟩
      rw [hkeys' k, hkeys k, or_assoc]
      exact or_congr_right (by simp)

end Adds

section Visit

variable (plat : Platform) (body : Nat → String → Op E X C Unit)

def visitDirectory (idStr : String) : Op E X C Unit := do
  let s ← get
  if s.disk.isDirectory [idStr] = true ∧ idStr.toList.all Char.isDigit = true then do
    let id ← fromExcept (stoul plat idStr.toList)
    modify fun s => { s with lastEntryId := max s.lastEntryId (uint32 id) }
    body id idStr
  else pure ()

/-- The restore of any manager, which differ in what they do in a numbered directory. -/
def visit (names : List String) : Op E X C Unit := do
  let s ← get
  if s.disk.isDirectory [] = true then forM names (visitDirectory plat body) else pure ()

variable {plat body} {s t : Daemon E X C}

theorem visitDirectory_numbered {d : String} {id : Nat} (hnum : Numbered s.disk d)
    (hid : stoul plat d.toList = .ok id) :
    visitDirectory plat body d s = body id d { s with lastEntryId := max s.lastEntryId (uint32 id) } := by
  obtain ⟨hdir, hdigits⟩ := hnum
  simp only [visitDirectory, get_bind, hdir, hdigits, and_self, if_true, hid]
  rfl

theorem visitDirectory_other {d : String} (hno : ¬ Numbered s.disk d) : visitDirectory plat body d s = .ok () s := by
  have h : ¬ (s.disk.isDirectory [d] = true ∧ d.toList.all Char.isDigit = true) := hno
  simp only [visitDirectory, get_bind, h, if_false, pure_apply]

theorem visitDirectory_cases {d : String} {u : Unit} (h : visitDirectory plat body d s = .ok u t) :
    (¬ Numbered s.disk d ∧ t = s) ∨ ∃ id, Numbered s.disk d ∧ stoul plat d.toList = .ok id ∧
      body id d { s with lastEntryId := max s.lastEntryId (uint32 id) } = .ok u t := by
  rw [visitDirectory, get_bind] at h
  split at h
  · rename_i hnumbered
    obtain ⟨id, s', hid, hbody⟩ := bind_eq_ok.mp h
    obtain ⟨hstoul, rfl⟩ := fromExcept_eq_ok.mp hid
    exact .inr ⟨id, hnumbered, hstoul, hbody⟩
  · rename_i hnumbered
    cases h
    exact .inl ⟨hnumbered, rfl⟩

theorem visit_concat {names : List String} {d : String} {u : Unit} (hroot : s.disk.isDirectory [] = true)
    (h : visit plat body (names ++ [d]) s = .ok u t) :
    ∃ v r, visit plat body names s = .ok v r ∧ visitDirectory plat body d r = .ok u t := by
  rw [visit, get_bind, if_pos hroot, List.forM_append, forM_singleton] at h
  rw [visit, get_bind, if_pos hroot]
  exact bind_eq_ok.mp h

theorem preserves_visit {J : Daemon E X C → Prop} {names : List String}
    (hbody : ∀ d ∈ names, ∀ id s, J s → Numbered s.disk d → stoul plat d.toList = .ok id →
      ∀ u t, body id d { s with lastEntryId := max s.lastEntryId (uint32 id) } = .ok u t → J t) :
    Preserves J (visit plat body names) := by
  refine preserves_get_bind fun _ => preserves_ite (preserves_forM_mem fun d hd => ?_) (preserves_pure _)
  intro s u t hs h
  rcases visitDirectory_cases h with ⟨-, rfl⟩ | ⟨id, hnumbered, hstoul, hrun⟩
  · exact hs
  · exact hbody d hd id s hs hnumbered hstoul u t hrun

section Leads

variable {J P : Daemon E X C → Prop} {names : List String}
  (hJ : ∀ s n, J s → J { s with lastEntryId := max s.lastEntryId n })
  (hP : ∀ s n, P s → P { s with lastEntryId := max s.lastEntryId n })
  (hbodyJ : ∀ d ∈ names, ∀ id, stoul plat d.toList = .ok id → Preserves J (body id d))
  (hbodyP : ∀ d ∈ names, ∀ id, stoul plat d.toList = .ok id → Preserves P (body id d))
include hJ hP hbodyJ hbodyP

theorem leads_visit {d : String} (hd : d ∈ names) (hnumbered : ∀ s, J s → Numbered s.disk d)
    (hroot : ∀ s, J s → s.disk.isDirectory [] = true)
    (hlead : ∀ id, stoul plat d.toList = .ok id → Leads (fun s => J s ∧ uint32 id ≤ s.lastEntryId) P (body id d)) :
    Leads J P (visit plat body names) := by
  have hkeep {K : Daemon E X C → Prop} (hK : ∀ s n, K s → K { s with lastEntryId := max s.lastEntryId n })
      (hbody : ∀ d ∈ names, ∀ id, stoul plat d.toList = .ok id → Preserves K (body id d)) :
      ∀ d ∈ names, Preserves K (visitDirectory plat body d) := by
    intro d hd s u t hs h
    rcases visitDirectory_cases h with ⟨-, rfl⟩ | ⟨id, -, hstoul, hrun⟩
    · exact hs
    · exact hbody d hd id hstoul _ u t (hK s _ hs) hrun
  intro s u t hs h
  rw [visit, get_bind, if_pos (hroot s hs)] at h
  refine leads_forM hd (hkeep hJ hbodyJ) (hkeep hP hbodyP) (fun s u t hs h => ?_) s u t hs h
  rcases visitDirectory_cases h with ⟨hno, -⟩ | ⟨id, -, hstoul, hrun⟩
  · exact absurd (hnumbered s hs) hno
  · exact hlead id hstoul _ u t ⟨hJ s _ hs, Nat.le_max_right _ _⟩ hrun

end Leads

section Walk

variable {J : Daemon E X C → Prop} {disk : FileTree Content} {names : List String} {f : Nat → String → Nat → Prop}
  (hnumbered : ∀ s, J s → ∀ d, (Numbered s.disk d ↔ Numbered disk d))
  (hJ : ∀ s n, J s → J { s with lastEntryId := max s.lastEntryId n })
include hnumbered hJ

theorem adds_visitDirectory (d : String) (hbody : ∀ id, Adds J (f id d) (body id d)) :
    Adds J (fun k => Numbered disk d ∧ ∃ id, stoul plat d.toList = .ok id ∧ f id d k) (visitDirectory plat body d) := by
  intro s u t hs h
  rcases visitDirectory_cases h with ⟨hno, rfl⟩ | ⟨id, hnum, hstoul, hrun⟩
  · exact ⟨hs, fun k => (or_iff_left fun hk => hno ((hnumbered _ hs d).mpr hk.1)).symm⟩
  · obtain ⟨ht, hkeys⟩ := hbody id _ u t (hJ s _ hs) hrun
    refine ⟨ht, fun k => (hkeys k).trans (or_congr_right ?_)⟩
    constructor
    · exact fun hf => ⟨(hnumbered s hs d).mp hnum, id, hstoul, hf⟩
    · rintro ⟨-, id', hstoul', hf⟩
      rw [hstoul] at hstoul'
      cases hstoul'
      exact hf

variable (hroot : ∀ s, J s → s.disk.isDirectory [] = true)
include hroot

theorem adds_visit (hbody : ∀ d ∈ names, ∀ id, Adds J (f id d) (body id d)) :
    Adds J (fun k => ∃ d ∈ names, Numbered disk d ∧ ∃ id, stoul plat d.toList = .ok id ∧ f id d k)
      (visit plat body names) := by
  intro s u t hs h
  rw [visit, get_bind, if_pos (hroot s hs)] at h
  exact adds_forM (fun d hd => adds_visitDirectory hnumbered hJ d (hbody d hd)) s u t hs h

/-- A walk that returns has read the number of every directory. -/
theorem stoul_of_visit (hbody : ∀ d ∈ names, ∀ id, Preserves J (body id d)) {u : Unit} (hs : J s)
    (h : visit plat body names s = .ok u t) {d : String} (hd : d ∈ names) (hnum : Numbered disk d) :
    ∃ id, stoul plat d.toList = .ok id := by
  refine leads_visit (J := J) (P := fun _ => ∃ id, stoul plat d.toList = .ok id) hJ (fun _ _ h => h)
    (fun d hd id _ => hbody d hd id) (fun _ _ _ _ _ _ _ hs _ => hs) hd (fun s hs => (hnumbered s hs d).mpr hnum) hroot
    (fun id hstoul _ _ _ _ _ => ⟨id, hstoul⟩) s u t hs h

theorem returns_visit (hstoul : ∀ d ∈ names, Numbered disk d → ∃ id, stoul plat d.toList = .ok id)
    (hbody : ∀ d ∈ names, Numbered disk d → ∀ id, Returns J J (body id d)) : Returns J J (visit plat body names) := by
  intro s hs
  rw [visit, get_bind, if_pos (hroot s hs)]
  refine returns_forM (fun d hd s hs => ?_) s hs
  by_cases hnum : Numbered s.disk d
  · have hnum' := (hnumbered s hs d).mp hnum
    obtain ⟨id, hid⟩ := hstoul d hd hnum'
    obtain ⟨u, t, ht, hJt⟩ := hbody d hd hnum' id _ (hJ s (uint32 id) hs)
    exact ⟨u, t, (visitDirectory_numbered hnum hid).trans ht, hJt⟩
  · exact ⟨(), s, visitDirectory_other hnum, hs⟩

end Walk

end Visit

section Counter

variable (plat : Platform)

def directoryNumber (name : String) : Option Nat :=
  match stoul plat name.toList with
  | .ok id => some (uint32 id)
  | .error _ => none

def numbers (disk : FileTree Content) (names : List String) : List Nat :=
  (names.filter (Numbered disk)).filterMap (directoryNumber plat)

variable {plat}

theorem directoryNumber_of_stoul {name : String} {id : Nat} (h : stoul plat name.toList = .ok id) :
    directoryNumber plat name = some (uint32 id) := by
  rw [directoryNumber, h]

theorem mem_numbers {disk : FileTree Content} {names : List String} {n : Nat} : n ∈ numbers plat disk names ↔
    ∃ d ∈ names, Numbered disk d ∧ directoryNumber plat d = some n := by
  simp [numbers, and_assoc]

structure Largest (ns : List Nat) (n : Nat) : Prop where
  above : ∀ m ∈ ns, m ≤ n
  reached : n = 0 ∨ n ∈ ns

variable {body : Nat → String → Op E X C Unit} {disk : FileTree Content} {J : Daemon E X C → Prop}
  {names : List String} {s t : Daemon E X C} {u : Unit}

theorem visit_lastEntryId (hroot : ∀ s, J s → s.disk.isDirectory [] = true)
    (hnumbered : ∀ s, J s → ∀ d ∈ names, (Numbered s.disk d ↔ Numbered disk d))
    (hJ : ∀ s n, J s → J { s with lastEntryId := max s.lastEntryId n })
    (hbody : ∀ d ∈ names, ∀ id s u t, J s → body id d s = .ok u t → J t ∧ t.lastEntryId = s.lastEntryId)
    (hs : J s) (hzero : s.lastEntryId = 0) (h : visit plat body names s = .ok u t) :
    Largest (numbers plat disk names) t.lastEntryId := by
  refine ⟨fun m hm => ?_, ?_⟩
  · obtain ⟨d, hd, hnum, hnumber⟩ := mem_numbers.mp hm
    refine (leads_visit (P := fun s => J s ∧ m ≤ s.lastEntryId) hJ (fun s n hs => ?_) (fun d hd id _ s u t hs h => ?_)
      (fun d hd id _ s u t hs h => ?_) hd (fun s hs => (hnumbered s hs d hd).mpr hnum) hroot
      (fun id hstoul s u t hs h => ?_) s u t hs h).2
    · exact ⟨hJ s n hs.1, hs.2.trans (Nat.le_max_left _ _)⟩
    · exact (hbody d hd id s u t hs h).1
    · obtain ⟨hJt, hid⟩ := hbody d hd id s u t hs.1 h
      exact ⟨hJt, hid ▸ hs.2⟩
    · obtain ⟨hJt, hid⟩ := hbody d hd id s u t hs.1 h
      rw [directoryNumber_of_stoul hstoul] at hnumber
      cases hnumber
      exact ⟨hJt, hid ▸ hs.2⟩
  · refine (preserves_visit (J := fun s => J s ∧ (s.lastEntryId = 0 ∨ s.lastEntryId ∈ numbers plat disk names))
      (fun d hd id s hs hnum hstoul u t h => ?_) s u t ⟨hs, .inl hzero⟩ h).2
    obtain ⟨hJt, hid⟩ := hbody d hd id _ u t (hJ s _ hs.1) h
    refine ⟨hJt, ?_⟩
    rw [hid]
    rcases Nat.le_total s.lastEntryId (uint32 id) with hle | hle
    · refine .inr (mem_numbers.mpr ⟨d, hd, (hnumbered s hs.1 d hd).mp hnum, ?_⟩)
      rw [directoryNumber_of_stoul hstoul]
      exact congrArg some (Nat.max_eq_right hle).symm
    · simpa only [Nat.max_eq_left hle] using hs.2

end Counter

section Files

variable [DumpEntry E] {ops : Ops E X C R I} {named : Path → Option Nat} {made : I → Bool} {plat : Platform}
  {body : Nat → String → Op E X C Unit} {disk : FileTree Content} {names : List String} {own : X}
  {events : Path → I} {reads : String → List Path} {s : Daemon E X C} {u : Unit}

/-- A restore that reads files with the function that also handles their close: what it
makes keys of are the ids that the names of these files carry. -/
theorem visit_keys (hops : Sound ops named) (hmakes : Makes ops named made)
    (hdisk : ∀ io file, Keeps SameDisk (ops.createEntry io file))
    (hbody : ∀ id d s, s.disk = disk →
      body id d s = (forM (reads d) fun file => ops.createEntry (events file) file) s)
    (hroot : disk.isDirectory [] = true) (h : visit plat body names (bare own disk) = .ok u s) (k : Nat) :
    k ∈ s.entries ↔
      ∃ d ∈ names, Numbered disk d ∧ ∃ file ∈ reads d, named file = some k ∧ made (events file) = true := by
  have hadds : Adds (fun s => s.disk = disk) (fun k => ∃ d ∈ names, Numbered disk d ∧
      ∃ id, stoul plat d.toList = .ok id ∧ ∃ file ∈ reads d, named file = some k ∧ made (events file) = true)
      (visit plat body names) := by
    refine adds_visit (f := fun _ d k => ∃ file ∈ reads d, named file = some k ∧ made (events file) = true)
      (fun s hs d => by rw [hs]) (fun _ _ hs => hs) (fun s hs => hs ▸ hroot) fun d _ id s u t hs h => ?_
    rw [hbody id d s hs] at h
    refine adds_forM (J := fun s => s.disk = disk) (m := fun file => ops.createEntry (events file) file)
      (fun file _ s u t hs h => ?_) s u t hs h
    exact ⟨((hdisk _ _).ok h).trans hs, createEntry_keys hops hmakes h⟩
  have hstoul {d : String} (hd : d ∈ names) (hnum : Numbered disk d) : ∃ id, stoul plat d.toList = .ok id := by
    refine stoul_of_visit (J := fun s => s.disk = disk) (fun s hs d => by rw [hs]) (fun _ _ hs => hs)
      (fun s hs => hs ▸ hroot) (fun d _ id s u t hs h => ?_) rfl h hd hnum
    rw [hbody id d s hs] at h
    exact preserves_forM (fun file s u t hs h => ((hdisk _ _).ok h).trans hs) s u t hs h
  rw [(hadds _ u s rfl h).2 k]
  constructor
  · rintro (hk | ⟨d, hd, hnum, -, -, hfile⟩)
    · exact absurd hk ExtTreeMap.not_mem_empty
    · exact ⟨d, hd, hnum, hfile⟩
  · rintro ⟨d, hd, hnum, hfile⟩
    obtain ⟨id, hid⟩ := hstoul hd hnum
    exact .inr ⟨d, hd, hnum, id, hid, hfile⟩

theorem visit_counter (hops : Sound ops named)
    (hdisk : ∀ io file, Keeps SameDisk (ops.createEntry io file))
    (hbody : ∀ id d s, s.disk = disk →
      body id d s = (forM (reads d) fun file => ops.createEntry (events file) file) s)
    (hroot : disk.isDirectory [] = true) (h : visit plat body names (bare own disk) = .ok u s) :
    Largest (numbers plat disk names) s.lastEntryId := by
  refine visit_lastEntryId (J := fun s => s.disk = disk) (fun s hs => hs ▸ hroot) (fun s hs d _ => by rw [hs])
    (fun _ _ hs => hs) (fun d _ id s u t hs h => ?_) rfl rfl h
  rw [hbody id d s hs] at h
  have hfiles : Preserves (fun t => t.disk = disk ∧ t.lastEntryId = s.lastEntryId)
      (forM (reads d) fun file => ops.createEntry (events file) file) :=
    preserves_forM fun file s u t hs h =>
      ⟨((hdisk _ _).ok h).trans hs.1, (hops.createEntry _ _ _ _ _ h).lastEntryId.trans hs.2⟩
  exact hfiles s u t ⟨hs, rfl⟩ h

end Files

end DumpCollector.Restore
