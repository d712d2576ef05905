import DumpCollector.Lib.Effects
import DumpCollector.Lib.Maps
import DumpCollector.Lib.Runs
import DumpCollector.ObjectPaths
import Mathlib.Data.List.TakeWhile

namespace DumpCollector.Elog.Watch

open Std Lib.Effects Lib.Maps FileNames Requests ObjectPaths

abbrev ElogList := ExtTreeSet Nat

/-- The archive that a list of ids is written to and read from. A read that fails may have
filled the list in part. -/
structure Archive (A : Type) where
  save : ElogList → A
  load : A → Bool × ElogList
  load_save : ∀ list, load (save list) = (true, list)

abbrev PropertyMap := ExtTreeMap String (ExtTreeMap String String)

/-- A call of createDump, with what the file of the ids holds at that moment. -/
structure Call (A : Type) where
  objectPath : ObjectPath
  params : DumpCreateParams
  file : Option A

structure Daemon (A M : Type) where
  elogList : ElogList
  file : Option A
  mgr : M
  running : Bool
  calls : List (Call A)

/-- The manager is any object with a method createDump; what else decides the outcome of a
call comes with the signal. -/
structure Config (A M R : Type) where
  plat : Platform
  tables : DumpTypeTables
  archive : Archive A
  createDump : R → DumpCreateParams → EStateM Exn M Unit

inductive Signal (R : Type)
  | interfacesAdded (body : Option PropertyMap) (r : R)
  | interfacesRemoved (readable : Bool)

inductive Event (M R : Type)
  | signal (objectPath : ObjectPath) (sig : Signal R)
  | restart (mgr : M)

variable {A M R : Type} (cfg : Config A M R)

abbrev WatchOp (A M α : Type) := EStateM Exn (Daemon A M) α

section Callbacks

def isEntry (objectPath : ObjectPath) : Bool := "entry".toList <:+: objectPath.str

/-- The function std::stoul takes the longest run of digits in front. -/
def getEid (objectPath : ObjectPath) : Except Exn Nat :=
  match objectPath.filename.takeWhile Char.isDigit with
  | [] => .error (.stdInvalidArgument "stoul")
  | d :: ds => (stoul cfg.plat (d :: ds)).map uint32

def errorType (propertyMap : PropertyMap) : Option String :=
  match propertyMap["xyz.openbmc_project.Logging.Entry"]? with
  | none => none
  | some attributes =>
      match attributes["Message"]? with
      | none => none
      | some data => if data = "" then none else findErrorType cfg.tables data

/-- The checks of addCallback, up to the first effect: the id and the type of error for
which a dump is requested. A message that cannot be read has no body. -/
def admitted (elogList : ElogList) (objectPath : ObjectPath) (body : Option PropertyMap) :
    Except Exn (Option (Nat × String)) :=
  match body with
  | none => .ok none
  | some propertyMap =>
      if isEntry objectPath = false then .ok none
      else do
        let eId ← getEid cfg objectPath
        if eId ∈ elogList then .ok none
        else .ok ((errorType cfg propertyMap).map fun type => (eId, type))

def serialize : WatchOp A M Unit := modify fun s => { s with file := some (cfg.archive.save s.elogList) }

def dumpParams (objectPath : ObjectPath) (type : String) : DumpCreateParams :=
  (((∅ : DumpCreateParams).insert (convertCreateParametersToString .FilePath) (.str (.ofList objectPath.str))).insert
    (convertCreateParametersToString .DumpType)
      (.str "xyz.openbmc_project.Dump.Create.DumpType.ErrorLog")).insert
    (convertCreateParametersToString .ErrorType) (.str type)

def callCreateDump (r : R) (objectPath : ObjectPath) (params : DumpCreateParams) : WatchOp A M Unit := fun s =>
  match cfg.createDump r params s.mgr with
  | .ok _ mgr => .ok () { s with mgr := mgr, calls := s.calls ++ [⟨objectPath, params, s.file⟩] }
  | .error e mgr => .error e { s with mgr := mgr, calls := s.calls ++ [⟨objectPath, params, s.file⟩] }

def catchQuotaExceeded (m : WatchOp A M Unit) : WatchOp A M Unit :=
  tryCatch m fun
    | .quotaExceeded _ => pure ()
    | e => throw e

def addCallback (objectPath : ObjectPath) (body : Option PropertyMap) (r : R) : WatchOp A M Unit := do
  let s ← get
  let admission ← fromExcept (admitted cfg s.elogList objectPath body)
  match admission with
  | none => pure ()
  | some (eId, type) => catchQuotaExceeded do
      modify fun s => { s with elogList := s.elogList.insert eId }
      serialize cfg
      callCreateDump cfg r objectPath (dumpParams objectPath type)

/-- The checks of delCallback: the id that is taken out of the list. -/
def forgotten (elogList : ElogList) (objectPath : ObjectPath) (readable : Bool) : Except Exn (Option Nat) :=
  if readable = false then .ok none
  else if isEntry objectPath = false then .ok none
  else do
    let eId ← getEid cfg objectPath
    if eId ∈ elogList then .ok (some eId) else .ok none

def delCallback (objectPath : ObjectPath) (readable : Bool) : WatchOp A M Unit := do
  let s ← get
  let eId ← fromExcept (forgotten cfg s.elogList objectPath readable)
  match eId with
  | none => pure ()
  | some eId => do
      modify fun s => { s with elogList := s.elogList.erase eId }
      serialize cfg

def callback (objectPath : ObjectPath) : Signal R → WatchOp A M Unit
  | .interfacesAdded body r => addCallback cfg objectPath body r
  | .interfacesRemoved readable => delCallback cfg objectPath readable

end Callbacks

section Run

/-- The constructor reads the list back if there is a file, and a file that cannot be read
is removed. -/
def started (file : Option A) (mgr : M) (calls : List (Call A)) : Daemon A M :=
  match file with
  | none => ⟨∅, none, mgr, true, calls⟩
  | some a =>
      match cfg.archive.load a with
      | (true, elogList) => ⟨elogList, some a, mgr, true, calls⟩
      | (false, elogList) => ⟨elogList, none, mgr, true, calls⟩

/-- An exception that leaves a callback ends the daemon. -/
def dispatched : EStateM.Result Exn (Daemon A M) Unit → Daemon A M
  | .ok _ t => t
  | .error _ t => { t with running := false }

def step (s : Daemon A M) : Event M R → Option (Daemon A M)
  | .signal objectPath sig => if s.running then some (dispatched (callback cfg objectPath sig s)) else none
  | .restart mgr => some (started cfg s.file mgr s.calls)

end Run

section Restarts

variable {cfg}

theorem started_calls (file : Option A) (mgr : M) (calls : List (Call A)) :
    (started cfg file mgr calls).calls = calls := by
  cases file with
  | none => rfl
  | some a =>
      simp only [started]
      split <;> rfl

end Restarts

section Outcomes

def PassedOver (elogList : ElogList) (objectPath : ObjectPath) : Signal R → Prop
  | .interfacesAdded body _ => body = none ∨ isEntry objectPath = false ∨ ∃ eId, getEid cfg objectPath = .ok eId ∧
      (eId ∈ elogList ∨ ∀ propertyMap ∈ body, errorType cfg propertyMap = none)
  | .interfacesRemoved readable => readable = false ∨ isEntry objectPath = false ∨
      ∃ eId, getEid cfg objectPath = .ok eId ∧ eId ∉ elogList

def recorded (s : Daemon A M) (elogList : ElogList) : Daemon A M :=
  { s with elogList := elogList, file := some (cfg.archive.save elogList) }

/-- What a callback does: it passes the signal over, stops at an exception of its checks,
calls createDump for an id that it has recorded first, or forgets an id. -/
inductive Outcome (objectPath : ObjectPath) (s : Daemon A M) :
    Signal R → EStateM.Result Exn (Daemon A M) Unit → Prop
  | passed (sig : Signal R) (h : PassedOver cfg s.elogList objectPath sig) : Outcome objectPath s sig (.ok () s)
  | refused (sig : Signal R) (e : Exn) (hentry : isEntry objectPath = true) (hid : getEid cfg objectPath = .error e)
      (hread : sig ≠ .interfacesRemoved false ∧ ∀ r, sig ≠ .interfacesAdded none r) :
      Outcome objectPath s sig (.error e s)
  | called (propertyMap : PropertyMap) (r : R) (eId : Nat) (type : String) (mgr : M)
      (x : EStateM.Result Exn (Daemon A M) Unit) (hentry : isEntry objectPath = true)
      (hid : getEid cfg objectPath = .ok eId) (hnew : eId ∉ s.elogList) (htype : errorType cfg propertyMap = some type)
      (hfinal : final x = { recorded cfg s (s.elogList.insert eId) with
        mgr := mgr
        calls := s.calls ++ [⟨objectPath, dumpParams objectPath type,
          some (cfg.archive.save (s.elogList.insert eId))⟩] }) :
      Outcome objectPath s (.interfacesAdded (some propertyMap) r) x
  | forgot (eId : Nat) (hentry : isEntry objectPath = true) (hid : getEid cfg objectPath = .ok eId)
      (hmem : eId ∈ s.elogList) :
      Outcome objectPath s (.interfacesRemoved true) (.ok () (recorded cfg s (s.elogList.erase eId)))

variable {cfg} {s : Daemon A M} {objectPath : ObjectPath}

theorem final_catchQuotaExceeded (m : WatchOp A M Unit) (s : Daemon A M) :
    final (catchQuotaExceeded m s) = final (m s) := by
  change final (EStateM.tryCatch m _ s) = final (m s)
  rw [EStateM.tryCatch]
  cases m s with
  | ok u t => rfl
  | error e t => cases e <;> rfl

theorem final_callCreateDump (r : R) (params : DumpCreateParams) (s : Daemon A M) :
    final (callCreateDump cfg r objectPath params s) = { s with
      mgr := final (cfg.createDump r params s.mgr)
      calls := s.calls ++ [⟨objectPath, params, s.file⟩] } := by
  rw [callCreateDump]
  cases cfg.createDump r params s.mgr <;> rfl

theorem addCallback_outcome (body : Option PropertyMap) (r : R) :
    Outcome cfg objectPath s (.interfacesAdded body r) (addCallback cfg objectPath body r s) := by
  rw [addCallback, get_bind]
  cases body with
  | none => exact .passed _ (.inl rfl)
  | some propertyMap =>
      cases hentry : isEntry objectPath with
      | false =>
          have hnone : admitted cfg s.elogList objectPath (some propertyMap) = .ok none := if_pos hentry
          rw [hnone]
          exact .passed _ (.inr (.inl hentry))
      | true =>
          have hchecks : admitted cfg s.elogList objectPath (some propertyMap) = (do
              let eId ← getEid cfg objectPath
              if eId ∈ s.elogList then .ok none
              else .ok ((errorType cfg propertyMap).map fun type => (eId, type))) := if_neg (by simp [hentry])
          rw [hchecks]
          cases hid : getEid cfg objectPath with
          | error e => exact .refused _ e hentry hid ⟨by simp, by simp⟩
          | ok eId =>
              by_cases hmem : eId ∈ s.elogList
              · simp only [bind, Except.bind, if_pos hmem]
                exact .passed _ (.inr (.inr ⟨eId, hid, .inl hmem⟩))
              · simp only [bind, Except.bind, if_neg hmem]
                cases htype : errorType cfg propertyMap with
                | none => exact .passed _ (.inr (.inr ⟨eId, hid, .inr fun pm hpm => Option.some.inj hpm ▸ htype⟩))
                | some type =>
                    let params := dumpParams objectPath type
                    refine .called propertyMap r eId type (final (cfg.createDump r params s.mgr)) _ hentry hid hmem
                      htype ?_
                    change final (catchQuotaExceeded _ s) = _
                    rw [final_catchQuotaExceeded]
                    exact final_callCreateDump r params (recorded cfg s (s.elogList.insert eId))

theorem delCallback_outcome (readable : Bool) :
    Outcome cfg objectPath s (.interfacesRemoved readable : Signal R) (delCallback cfg objectPath readable s) := by
  rw [delCallback, get_bind]
  cases readable with
  | false => exact .passed _ (.inl rfl)
  | true =>
      cases hentry : isEntry objectPath with
      | false =>
          have hnone : forgotten cfg s.elogList objectPath true = .ok none := if_pos hentry
          rw [hnone]
          exact .passed _ (.inr (.inl hentry))
      | true =>
          have hchecks : forgotten cfg s.elogList objectPath true = (do
              let eId ← getEid cfg objectPath
              if eId ∈ s.elogList then .ok (some eId) else .ok none) := by
            rw [forgotten, if_neg (by simp), if_neg (by simp [hentry])]
          rw [hchecks]
          cases hid : getEid cfg objectPath with
          | error e => exact .refused _ e hentry hid ⟨by simp, by simp⟩
          | ok eId =>
              by_cases hmem : eId ∈ s.elogList
              · simp only [bind, Except.bind, if_pos hmem]
                exact .forgot eId hentry hid hmem
              · simp only [bind, Except.bind, if_neg hmem]
                exact .passed _ (.inr (.inr ⟨eId, hid, hmem⟩))

theorem callback_outcome (sig : Signal R) : Outcome cfg objectPath s sig (callback cfg objectPath sig s) := by
  cases sig with
  | interfacesAdded body r => exact addCallback_outcome body r
  | interfacesRemoved readable => exact delCallback_outcome readable

end Outcomes

section EntryPaths

def LOG_PATH : List String := ["xyz", "openbmc_project", "logging"]

def logId (objectPath : ObjectPath) : Option Nat :=
  match objectPath.elements.getLast? with
  | none => none
  | some number =>
      if objectPath.elements = LOG_PATH ++ ["entry", number] ∧ number.toList.all Char.isDigit = true ∧
        Nat.ofDigitChars 10 number.toList 0 < 2 ^ 32 then some (Nat.ofDigitChars 10 number.toList 0)
      else none

variable {cfg} {objectPath : ObjectPath} {n : Nat}

theorem logId_eq_some (h : logId objectPath = some n) : ∃ number : String,
    objectPath.elements = LOG_PATH ++ ["entry", number] ∧ (∀ c ∈ number.toList, c.isDigit = true) ∧
      Nat.ofDigitChars 10 number.toList 0 = n ∧ n < 2 ^ 32 := by
  rw [logId] at h
  split at h
  · cases h
  · rename_i number _
    split at h
    · rename_i hnumber
      cases h
      exact ⟨number, hnumber.1, List.all_eq_true.mp hnumber.2.1, rfl, hnumber.2.2⟩
    · cases h

theorem getEid_of_logId (hplat : 2 ^ 32 ≤ cfg.plat.ulongMax + 1) (h : logId objectPath = some n) :
    getEid cfg objectPath = .ok n := by
  obtain ⟨number, helements, hdigits, hvalue, hn⟩ := logId_eq_some h
  have hlast : objectPath.elements = (LOG_PATH ++ ["entry"]) ++ [number] := helements
  have hne : number ≠ "" := (objectPath.valid number (by simp [helements])).1
  rw [getEid, filename_of_last hlast, List.takeWhile_eq_self_iff.mpr hdigits]
  cases hlist : number.toList with
  | nil => exact absurd (String.toList_eq_nil_iff.mp hlist) hne
  | cons d ds =>
      rw [hlist] at hvalue
      have hfits : n ≤ cfg.plat.ulongMax := by omega
      simp only [stoul, hvalue, if_pos hfits, Except.map, uint32_eq hn]

def entryPath (n : Nat) : ObjectPath where
  elements := LOG_PATH ++ ["entry"] ++ [toString n]
  valid := by
    intro e he
    obtain ⟨d, ds, hlist, hdigits, -⟩ := digits_of_nat n
    have hfixed : ∀ e ∈ LOG_PATH ++ ["entry"], e ≠ "" ∧ e.toList.all isPathChar = true := by decide +kernel
    rcases List.mem_append.mp he with he | he
    · exact hfixed e he
    · obtain rfl := List.mem_singleton.mp he
      refine ⟨fun hempty => ?_, ?_⟩
      · rw [hempty] at hlist
        cases hlist
      · rw [hlist, List.all_eq_true]
        intro c hc
        simp [isPathChar, Char.isAlphanum, hdigits c hc]

theorem logId_entryPath (hn : n < 2 ^ 32) : logId (entryPath n) = some n := by
  obtain ⟨d, ds, hlist, hdigits, hvalue⟩ := digits_of_nat n
  have hlast : (entryPath n).elements.getLast? = some (toString n) := List.getLast?_concat
  have hnumber : (entryPath n).elements = LOG_PATH ++ ["entry", toString n] ∧
      (toString n).toList.all Char.isDigit = true ∧ Nat.ofDigitChars 10 (toString n).toList 0 < 2 ^ 32 := by
    rw [hlist, hvalue]
    exact ⟨rfl, List.all_eq_true.mpr hdigits, hn⟩
  simp only [logId, hlast]
  rw [if_pos hnumber, hlist, hvalue]

end EntryPaths

end DumpCollector.Elog.Watch
