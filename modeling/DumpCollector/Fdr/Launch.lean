import DumpCollector.Dreport.Invocation
import DumpCollector.Fdr.Steps

namespace DumpCollector.Fdr.Launch

open Std Lib.Effects Lib.Maps Lib.Words Lib.Getopt Entries FileNames Requests State Frames Fdr.Manager
open Dreport.Invocation (cStr joined decimal cStr_decimal)

section Script

/-- The options that stand for a parameter of the request, in the order of the code. -/
def optionalKeys : List (Char × String) :=
  [('s', "TimeRangeStart"), ('e', "TimeRangeEnd"), ('m', "MaxDumpSize"), ('S', "ExtendedSource")]

/-- A parameter that is no string is passed over. -/
def held (params : DumpCreateParams) (key : String) : Option Word :=
  match params[key]? with
  | some (.str text) => some (cStr text.toList)
  | _ => none

def optionalArgs (params : DumpCreateParams) : List Word :=
  optionalKeys.flatMap fun x =>
    match held params x.2 with
    | some text => [['-', x.1], text]
    | none => []

def tolower (text : String) : Word := text.toList.map Char.toLower

def fdrDump (params : DumpCreateParams) : Except Exn (List Word) := do
  let dump_path ← getString params "DumpPath"
  let dump_id ← getString params "DumpID"
  let dump_action ← getString params "Action"
  return ["-p".toList, cStr dump_path.toList, "-i".toList, cStr dump_id.toList, "-a".toList,
    cStr (tolower dump_action)] ++ optionalArgs params

variable (dumpDir : Word)

def handedOn (id : Nat) (params : DumpCreateParams) : DumpCreateParams :=
  (((withAction params).erase "DiagnosticType").insert "DumpID" (.str (toString id))).insert "DumpPath"
    (.str (.ofList (joined dumpDir (decimal id))))

variable (cfg : Config)

def checked (r : Request) : FdrOp String := do
  let dumpAction ← fromExcept (getString (withAction r.params) "Action")
  whenever (dumpAction = "Collect") (limitDumpEntries cfg.FDR_DUMP_MAX_LIMIT)
  let _ ← fromExcept (checkTrigger cfg r)
  pure dumpAction

def launch (r : Request) : FdrOp (List Word) := do
  let _ ← checked cfg r
  let s ← get
  fromExcept (fdrDump (handedOn dumpDir (nextEntryId s) r.params))

end Script

section Arguments

def items (dumpPath : Word) (id : Nat) (action : String) (params : DumpCreateParams) : List Item :=
  [.short 'p' (some (cStr dumpPath)), .short 'i' (some (decimal id)), .short 'a' (some (cStr (tolower action)))] ++
    optionalKeys.filterMap fun x => (held params x.2).map fun text => .short x.1 (some text)

def letters : List Char := ['p', 'i', 'a', 's', 'e', 'm', 'S']

variable {dumpPath dumpDir : Word} {id : Nat} {action : String} {params : DumpCreateParams} {spec : Spec}

theorem handedOn_get (key : String) : (handedOn dumpDir id params)[key]? =
    if key = "DumpPath" then some (.str (.ofList (joined dumpDir (decimal id))))
    else if key = "DumpID" then some (.str (toString id))
    else if key = "DiagnosticType" then none else (withAction params)[key]? := by
  rw [handedOn, insert_get, insert_get, erase_get]
  simp only [eq_comm]

theorem held_handedOn {key : String} (hkey : key ∉ ["DumpPath", "DumpID", "DiagnosticType", "Action"]) :
    held (handedOn dumpDir id params) key = held params key := by
  simp only [List.mem_cons, List.not_mem_nil, or_false, not_or] at hkey
  obtain ⟨hpath, hid, htype, haction⟩ := hkey
  have hget : (handedOn dumpDir id params)[key]? = params[key]? := by
    rw [handedOn_get, if_neg hpath, if_neg hid, if_neg htype, withAction, insertIfNew_get,
      if_neg (Ne.symm haction)]
  rw [held, held, hget]

theorem optionalArgs_eq (params : DumpCreateParams) : optionalArgs params =
    (optionalKeys.filterMap fun x => (held params x.2).map fun text => Item.short x.1 (some text)).flatMap
      Item.words := by
  rw [optionalArgs]
  induction optionalKeys with
  | nil => rfl
  | cons x xs ih =>
      rw [List.flatMap_cons, ih]
      cases hheld : held params x.2 with
      | none => simp [hheld]
      | some text => simp [hheld, Item.words]

theorem items_valid (hspec : ∀ c ∈ letters, spec.takesArgument c = some true) :
    ∀ item ∈ items dumpPath id action params, item.Valid spec := by
  intro item hitem
  rcases List.mem_append.mp hitem with hfront | hoptional
  · simp only [List.mem_cons, List.not_mem_nil, or_false] at hfront
    rcases hfront with rfl | rfl | rfl <;> exact hspec _ (by decide)
  · obtain ⟨x, hx, hsome⟩ := List.mem_filterMap.mp hoptional
    obtain ⟨text, -, rfl⟩ := Option.map_eq_some_iff.mp hsome
    have hletters : ∀ x ∈ optionalKeys, x.1 ∈ letters := by decide
    exact hspec _ (hletters x hx)

theorem fdrDump_handedOn (haction : getString (withAction params) "Action" = .ok action) :
    fdrDump (handedOn dumpDir id params) =
      .ok ((items (joined dumpDir (decimal id)) id action params).flatMap Item.words) := by
  have hpath : getString (handedOn dumpDir id params) "DumpPath" = .ok (.ofList (joined dumpDir (decimal id))) := by
    rw [getString_eq_ok, handedOn_get, if_pos rfl]
    rfl
  have hid : getString (handedOn dumpDir id params) "DumpID" = .ok (toString id) := by
    rw [getString_eq_ok, handedOn_get, if_neg (by decide), if_pos rfl]
    rfl
  have haction' : getString (handedOn dumpDir id params) "Action" = .ok action := by
    rw [getString_eq_ok, handedOn_get, if_neg (by decide), if_neg (by decide), if_neg (by decide)]
    exact getString_eq_ok.mp haction
  have hoptional : optionalArgs (handedOn dumpDir id params) = optionalArgs params := by
    have hkeys : ∀ x ∈ optionalKeys, x.2 ∉ ["DumpPath", "DumpID", "DiagnosticType", "Action"] := by decide
    refine List.flatMap_congr fun x hx => ?_
    rw [held_handedOn (hkeys x hx)]
  rw [fdrDump, hpath, hid, haction']
  change Except.ok _ = _
  rw [hoptional, optionalArgs_eq, items, List.flatMap_append]
  change Except.ok ([_, cStr (String.ofList _).toList, _, cStr (decimal id), _, _] ++ _) = _
  have htext : (String.ofList (joined dumpDir (decimal id))).toList = joined dumpDir (decimal id) :=
    String.toList_ofList
  rw [cStr_decimal, htext]
  rfl

end Arguments

section Requests

variable {cfg : Config} {dumpDir : Word} {r : Request} {s t u : FdrDaemon} {x : Option Nat} {n : Nat} {spec : Spec}

theorem trigger_ok (h : triggerFDRDumpScript cfg r u = .ok n t) :
    checkTrigger cfg r = .ok () ∧ n = nextEntryId u ∧ t.entries = u.entries ∧ t.lastEntryId = nextEntryId u := by
  rw [triggerFDRDumpScript] at h
  obtain ⟨_, u', hpassed, hfork⟩ := bind_eq_ok.mp h
  obtain ⟨hcheck, hsame⟩ := fromExcept_eq_ok.mp hpassed
  rw [hsame] at hfork
  refine ⟨hcheck, ?_⟩
  rcases forkCollector_cases r.fork () id u with ⟨-, hf⟩ | ⟨_, -, -, hf⟩ | ⟨pid, -, -, hf⟩
  · cases hf.symm.trans hfork
  · cases hf.symm.trans hfork
  · cases hf.symm.trans hfork
    exact ⟨rfl, rfl, rfl⟩

theorem collect_ok (h : collect cfg r s = .ok n t) (hunused : n ∉ s.entries) :
    ∃ u, limitDumpEntries cfg.FDR_DUMP_MAX_LIMIT s = .ok () u ∧ checkTrigger cfg r = .ok () ∧
      t.lastEntryId = nextEntryId u ∧ n = t.lastEntryId ∧ ∃ e, t.entries[n]? = some (some e) ∧ e.base.id = n ∧
      e.base.status = .InProgress := by
  rw [collect] at h
  obtain ⟨_, u, hlimit, hk₁⟩ := bind_eq_ok.mp h
  obtain ⟨m, v, htrigger, hk₂⟩ := bind_eq_ok.mp hk₁
  obtain ⟨e, w, hmade, hk₃⟩ := bind_eq_ok.mp hk₂
  obtain ⟨hconstruct, hsame⟩ := fromExcept_eq_ok.mp hmade
  rw [hsame] at hk₃
  cases hk₃
  obtain ⟨hcheck, hn, hentries, hlast⟩ := trigger_ok htrigger
  have htrimmed : Trimmed s u := by
    have hkept := keeps_limitDumpEntries (E := FdrEntry) (X := Unit) (C := Unit) cfg.FDR_DUMP_MAX_LIMIT s
    rwa [hlimit] at hkept
  obtain ⟨hid, hst, -⟩ := Fdr.Steps.construct_new cfg hconstruct
  refine ⟨u, hlimit, hcheck, hlast, hn.trans hlast.symm, e, ?_, hid, hst⟩
  have hnew : n ∉ v.entries := hentries ▸ htrimmed.not_mem hunused
  exact insertIfNew_new hnew (some e)

variable (dumpDir) in
theorem launch_of_checked {action : String} (haction : getString (withAction r.params) "Action" = .ok action)
    (hroom : whenever (action = "Collect") (limitDumpEntries cfg.FDR_DUMP_MAX_LIMIT) s = .ok () u)
    (hcheck : checkTrigger cfg r = .ok ()) :
    launch dumpDir cfg r s = .ok ((items (joined dumpDir (decimal (nextEntryId u))) (nextEntryId u) action
      r.params).flatMap Item.words) u := by
  have hchecked : checked cfg r s = .ok action u := by
    rw [checked, bind_of_ok (fromExcept_eq_ok.mpr ⟨haction, rfl⟩), bind_of_ok hroom,
      bind_of_ok (fromExcept_eq_ok.mpr ⟨hcheck, rfl⟩)]
    rfl
  rw [launch, bind_of_ok hchecked, get_bind, fdrDump_handedOn haction]
  rfl

/-- From a request to the script: it is told the path and the id of the dump, the action in small
letters and each optional parameter that is a string. The entry is made only for the action that is spelled
as in the code, although the script cannot tell the spellings apart. -/
theorem request_to_script (spec : Spec) (dumpDir : Word) (hspec : ∀ c ∈ letters, spec.takesArgument c = some true)
    (h : Fdr.Manager.createDump cfg r s = .ok x t) (hunused : ∀ n ∈ x, n ∉ s.entries) :
    ∃ action args u, getString (withAction r.params) "Action" = .ok action ∧ launch dumpDir cfg r s = .ok args u ∧
      scan spec none args =
        (items (joined dumpDir (decimal t.lastEntryId)) t.lastEntryId action r.params, []) ∧
      (action = "Collect" → x = some t.lastEntryId ∧ ∃ e, t.entries[t.lastEntryId]? = some (some e) ∧
        e.base.id = t.lastEntryId ∧ e.base.status = .InProgress) ∧
      (action ≠ "Collect" → x = none ∧ t.entries = s.entries) := by
  rw [Fdr.Manager.createDump] at h
  obtain ⟨action, _, hread, hk⟩ := bind_eq_ok.mp h
  obtain ⟨haction, hsame⟩ := fromExcept_eq_ok.mp hread
  rw [hsame] at hk
  by_cases hcollect : action = "Collect"
  · rw [if_neg (not_not.mpr hcollect)] at hk
    obtain ⟨n, _, hcollected, hk₂⟩ := bind_eq_ok.mp hk
    cases hk₂
    obtain ⟨u, hlimit, hcheck, hn, rfl, hentry⟩ := collect_ok hcollected (hunused n rfl)
    have hroom : whenever (action = "Collect") (limitDumpEntries cfg.FDR_DUMP_MAX_LIMIT) s = .ok () u := by
      rw [whenever, if_pos (decide_eq_true hcollect)]
      exact hlimit
    rw [hn]
    exact ⟨action, _, u, haction, launch_of_checked dumpDir haction hroom hcheck, scan_words_only (items_valid hspec),
      fun _ => ⟨rfl, hn ▸ hentry⟩, fun hne => absurd hcollect hne⟩
  · rw [if_pos hcollect] at hk
    obtain ⟨n, _, htrigger, hk₂⟩ := bind_eq_ok.mp hk
    cases hk₂
    obtain ⟨hcheck, -, hentries, hlast⟩ := trigger_ok htrigger
    have hroom : whenever (action = "Collect") (limitDumpEntries cfg.FDR_DUMP_MAX_LIMIT) s = .ok () s := by
      rw [whenever, if_neg (by simpa using hcollect)]
      rfl
    rw [hlast]
    exact ⟨action, _, s, haction, launch_of_checked dumpDir haction hroom hcheck, scan_words_only (items_valid hspec),
      fun heq => absurd heq hcollect, fun _ => ⟨rfl, hentries⟩⟩

end Requests

section Spelling

private def collectRequest : Request where
  params := (((∅ : DumpCreateParams).insert "Action" (.str "collect")).insert "DiagnosticType" (.str "FDR")).insert
    "MaxDumpSize" (.str "64")
  space := ⟨some 1000, some 1000⟩
  fork := ⟨some 7, true⟩
  timeStamp := 1700000000
  construction := .done

/-- Of a request in small letters the script collects a dump that has no entry. -/
theorem small_letters_request : ∃ args u t,
    Fdr.Manager.createDump defaultConfig collectRequest (bare () .root) = .ok none t ∧ t.entries = ∅ ∧
    launch "/var/lib/logging/dumps/fdr".toList defaultConfig collectRequest (bare () .root) = .ok args u ∧
    scan (lettersOnly letters rfl) none args = ([.short 'p' (some "/var/lib/logging/dumps/fdr/1".toList),
      .short 'i' (some ['1']), .short 'a' (some "collect".toList), .short 'm' (some "64".toList)], []) := by
  have hcreated : Fdr.Manager.createDump defaultConfig collectRequest (bare () .root) =
      .ok none (final (Fdr.Manager.createDump defaultConfig collectRequest (bare () .root))) :=
    eq_ok_of_run' (by decide +kernel)
  obtain ⟨action, args, u, haction, hlaunch, hscan, -, hother⟩ := request_to_script (lettersOnly letters rfl)
    "/var/lib/logging/dumps/fdr".toList (fun c hc => lettersOnly_takes rfl hc) hcreated nofun
  have hcollect : action = "collect" := by
    have hread : getString (withAction collectRequest.params) "Action" = .ok "collect" := by decide +kernel
    exact Except.ok.inj (haction.symm.trans hread)
  have hlast : (final (Fdr.Manager.createDump defaultConfig collectRequest (bare () .root))).lastEntryId = 1 := by
    decide +kernel
  have hitems : items (joined "/var/lib/logging/dumps/fdr".toList (decimal 1)) 1 "collect" collectRequest.params =
      [.short 'p' (some "/var/lib/logging/dumps/fdr/1".toList), .short 'i' (some ['1']),
        .short 'a' (some "collect".toList), .short 'm' (some "64".toList)] := by decide +kernel
  have hentries := (hother (by rw [hcollect]; decide)).2
  rw [hlast, hcollect, hitems] at hscan
  exact ⟨args, u, _, hcreated, hentries, hlaunch, hscan⟩

end Spelling

end DumpCollector.Fdr.Launch
