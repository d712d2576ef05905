import DumpCollector.Dreport.Plugins
import DumpCollector.Lib.Runs

namespace DumpCollector.Dreport.Outputs

open Std Lib.Maps Lib.Runs Plugins

/-- A plugin that starts, and a call of add_cmd_output in it; a command that fails has no
output. -/
inductive Call
  | plugin
  | addCmdOutput (name : String) (output : Option Content) (line : Nat)

def Call.event : Call → Event
  | .plugin => .plugin
  | .addCmdOutput name output line => .addCmdOutput name output line

/-- The collection, and the outputs of the calls that have returned success, with the names
of their files. -/
structure Report where
  collection : Collection
  successes : List (String × Content)

def outputs (successes : List (String × Content)) (name : String) : Content :=
  (successes.filter fun x => x.1 = name).flatMap Prod.snd

variable (vars : Variables) (archive : Compressor)

def returnCode (name : String) (s : Collection) (output : Option Content) : Nat :=
  match output with
  | none => 1
  | some output =>
      if s.items[name]?.any Item.isDirectory then 1
      else if (checkSize name vars archive { s with items := append s.items name output }).2 = true then 0
      else 2

def success (s : Collection) : Call → List (String × Content)
  | .addCmdOutput name (some output) _ =>
      if returnCode vars archive name s (some output) = 0 then [(name, output)] else []
  | _ => []

def step (r : Report) (c : Call) : Option Report :=
  (Plugins.step vars archive r.collection c.event).map fun s =>
    ⟨s, r.successes ++ success vars archive r.collection c⟩

/-- Every file holds what it held at first, and the outputs of all calls that have returned
success. -/
def Complete (base : NameDir) (r : Report) : Prop :=
  ∀ name, contentOf r.collection.items name = contentOf base name ++ outputs r.successes name

def Failing (name : String) (s : Collection) : Option Content → Prop
  | none => True
  | some output => ∃ dump_size, vars.dump_size = some dump_size ∧
      dump_size < (contentOf s.items name ++ output).length + s.cur_dump_size ∧
      dump_size < archive (append s.items name output) s.log

def Harmless (r : Report) : Call → Prop
  | .plugin => True
  | .addCmdOutput name output _ =>
      Failing vars archive name r.collection output → contentOf r.collection.items name = []

section Files

variable {items : NameDir} {name name' : String} {output : Content} {successes : List (String × Content)}

theorem contentOf_directory (h : items[name]?.any Item.isDirectory = true) : contentOf items name = [] := by
  rw [contentOf]
  cases hitem : items[name]? with
  | none => rfl
  | some item =>
      cases item with
      | file content =>
          rw [hitem] at h
          cases h
      | directory raw tar => rfl

theorem contentOf_rm (items : NameDir) (name name' : String) :
    contentOf (rm items name) name' = if name = name' then [] else contentOf items name' := by
  rw [rm]
  by_cases hdirectory : items[name]?.any Item.isDirectory = true
  · rw [if_pos hdirectory]
    by_cases hname : name = name'
    · rw [if_pos hname, ← hname, contentOf_directory hdirectory]
    · rw [if_neg hname]
  · rw [if_neg hdirectory, contentOf, erase_get]
    by_cases hname : name = name'
    · rw [if_pos hname, if_pos hname]
    · rw [if_neg hname, if_neg hname, contentOf]

theorem contentOf_insert_file (items : NameDir) (name name' : String) (content : Content) :
    contentOf (items.insert name (.file content)) name' = if name = name' then content else contentOf items name' := by
  rw [contentOf, insert_get]
  by_cases h : name = name'
  · rw [if_pos h, if_pos h]
  · rw [if_neg h, if_neg h, contentOf]

theorem outputs_append (successes : List (String × Content)) (name name' : String) (output : Content) :
    outputs (successes ++ [(name, output)]) name' =
      if name = name' then outputs successes name' ++ output else outputs successes name' := by
  rw [outputs, List.filter_append, List.flatMap_append]
  split <;> simp_all [outputs]

end Files

section Calls

variable {vars archive} {name name' : String} {output : Content} {s : Collection} {line : Nat}

theorem checkSize_appended (h : ¬s.items[name]?.any Item.isDirectory = true) (vars : Variables) (archive : Compressor)
    (output : Content) :
    ((checkSize name vars archive { s with items := append s.items name output }).2 = true ∧
      ¬Failing vars archive name s (some output) ∧
      (checkSize name vars archive { s with items := append s.items name output }).1.items =
        append s.items name output) ∨
    ((checkSize name vars archive { s with items := append s.items name output }).2 = false ∧
      Failing vars archive name s (some output) ∧
      (checkSize name vars archive { s with items := append s.items name output }).1.items =
        rm (append s.items name output) name) := by
  have hitem : (append s.items name output)[name]? = some (.file (contentOf s.items name ++ output)) := by
    rw [append_file h, insert_get, if_pos rfl]
  have hmeasured : measured (append s.items name output) name = append s.items name output := by
    rw [measured, hitem]
    rfl
  have hsize : sourceSize (append s.items name output) name = (contentOf s.items name ++ output).length := by
    rw [sourceSize, hitem]
  rw [checkSize, Failing]
  cases vars.dump_size with
  | none =>
      refine .inl ⟨rfl, ?_, rfl⟩
      rintro ⟨_, hsome, -⟩
      cases hsome
  | some dump_size =>
      dsimp only
      rw [hmeasured, hsize]
      split
      · rename_i hquick
        refine .inl ⟨rfl, ?_, rfl⟩
        rintro ⟨_, hsome, hlarge, -⟩
        cases hsome
        omega
      · rename_i hquick
        split
        · rename_i hcompressed
          refine .inl ⟨rfl, ?_, rfl⟩
          rintro ⟨_, hsome, -, hlarge⟩
          cases hsome
          omega
        · rename_i hcompressed
          exact .inr ⟨rfl, ⟨dump_size, rfl, Nat.lt_of_not_le hquick, Nat.lt_of_not_le hcompressed⟩, rfl⟩

theorem addCmdOutput_cases (vars : Variables) (archive : Compressor) (name : String) (output : Option Content)
    (line : Nat) (s : Collection) :
    ((Failing vars archive name s output ∨ contentOf s.items name = []) ∧
      success vars archive s (.addCmdOutput name output line) = [] ∧
      ∀ name', contentOf (addCmdOutput name vars archive line s output).items name' =
        if name = name' then [] else contentOf s.items name') ∨
    (¬Failing vars archive name s output ∧ ∃ o, success vars archive s (.addCmdOutput name output line) = [(name, o)] ∧
      ∀ name', contentOf (addCmdOutput name vars archive line s output).items name' =
        if name = name' then contentOf s.items name ++ o else contentOf s.items name') := by
  cases output with
  | none => exact .inl ⟨.inl trivial, rfl, contentOf_rm s.items name⟩
  | some output =>
      by_cases hdirectory : s.items[name]?.any Item.isDirectory = true
      · refine .inl ⟨.inr (contentOf_directory hdirectory), ?_, fun name' => ?_⟩
        · simp [success, returnCode, hdirectory]
        · rw [addCmdOutput, if_pos hdirectory, logError]
          by_cases hname : name = name'
          · rw [if_pos hname, ← hname, contentOf_directory hdirectory]
          · rw [if_neg hname]
      · have hcode : success vars archive s (.addCmdOutput name (some output) line) =
            if (checkSize name vars archive { s with items := append s.items name output }).2 = true then
              [(name, output)] else [] := by
          rw [success, returnCode, if_neg hdirectory]
          split <;> simp_all
        have hitems : (addCmdOutput name vars archive line s (some output)).items =
            (checkSize name vars archive { s with items := append s.items name output }).1.items := by
          rw [addCmdOutput, if_neg hdirectory, logVerbose_items]
        rcases checkSize_appended hdirectory vars archive output with
          ⟨haccepted, hfits, hkept⟩ | ⟨hrefused, hfails, hremoved⟩
        · refine .inr ⟨hfits, output, by rw [hcode, if_pos haccepted], fun name' => ?_⟩
          rw [hitems, hkept, append_file hdirectory, contentOf_insert_file]
        · refine .inl ⟨.inl hfails, by rw [hcode, hrefused]; rfl, fun name' => ?_⟩
          rw [hitems, hremoved, contentOf_rm, append_file hdirectory, contentOf_insert_file]
          split <;> rfl

theorem step_complete {base : NameDir} {r t : Report} {c : Call} (hr : Complete base r)
    (h : step vars archive r c = some t) : Complete base t ↔ Harmless vars archive r c := by
  cases c with
  | plugin =>
      cases h
      refine iff_of_true (fun name => ?_) trivial
      exact (hr name).trans (congrArg _ (congrArg (outputs · name) (List.append_nil _).symm))
  | addCmdOutput name output line =>
      cases h
      rw [Harmless]
      rcases addCmdOutput_cases vars archive name output line r.collection with
        ⟨hfails, hsuccess, hcontent⟩ | ⟨hfits, o, hsuccess, hcontent⟩
      · constructor
        · intro ht _
          have hname := ht name
          rw [hsuccess, List.append_nil] at hname
          exact (hr name).trans (hname.symm.trans ((hcontent name).trans (if_pos rfl)))
        · intro hempty name'
          rw [hsuccess, List.append_nil]
          refine (hcontent name').trans ?_
          by_cases hname : name = name'
          · subst hname
            rw [if_pos rfl, ← hr name]
            exact (hfails.elim hempty id).symm
          · rw [if_neg hname]
            exact hr name'
      · refine iff_of_true (fun name' => ?_) fun hfails => absurd hfails hfits
        rw [hsuccess, outputs_append]
        refine (hcontent name').trans ?_
        by_cases hname : name = name'
        · subst hname
          rw [if_pos rfl, if_pos rfl, hr name, List.append_assoc]
        · rw [if_neg hname, if_neg hname]
          exact hr name'

end Calls

section Runs

theorem step_total (vars : Variables) (archive : Compressor) (r : Report) (c : Call) :
    ∃ t, step vars archive r c = some t := by
  cases c <;> exact ⟨_, rfl⟩

theorem complete_start (s : Collection) : Complete s.items ⟨s, []⟩ := fun _ => (List.append_nil _).symm

/-- Along any calls the files hold the outputs of all that have returned success, and what
they held at first, exactly if every call that fails finds nothing in its file. -/
theorem complete_iff_harmless (vars : Variables) (archive : Compressor) (s : Collection) (calls : List Call) :
    Always (step vars archive) (Complete s.items) ⟨s, []⟩ calls ↔
      EachStep (step vars archive) (Harmless vars archive) ⟨s, []⟩ calls := by
  obtain ⟨u, hrun⟩ := run_total (step_total vars archive) ⟨s, []⟩ calls
  exact always_iff_eachStep (J := fun _ => True) (fun _ _ _ _ _ => trivial) (fun r c t _ hr h => step_complete hr h)
    hrun trivial (complete_start s)

def updateCommands : List Call :=
  [.plugin, .addCmdOutput "fwupdateutils.log" (some [1, 2, 3]) 0, .addCmdOutput "fwupdateutils.log" none 40]

theorem failure_removes_outputs :
    (∃ r, run (step ⟨false, none⟩ fun _ _ => 0) ⟨⟨∅, 0, 0⟩, []⟩ updateCommands = some r ∧
      outputs r.successes "fwupdateutils.log" = [1, 2, 3] ∧ contentOf r.collection.items "fwupdateutils.log" = []) ∧
    ¬Always (step ⟨false, none⟩ fun _ _ => 0) (Complete ∅) ⟨⟨∅, 0, 0⟩, []⟩ updateCommands := by
  have hends : ∃ r, run (step ⟨false, none⟩ fun _ _ => 0) ⟨⟨∅, 0, 0⟩, []⟩ updateCommands = some r ∧
      outputs r.successes "fwupdateutils.log" = [1, 2, 3] ∧
      contentOf r.collection.items "fwupdateutils.log" = [] := ⟨_, rfl, by decide +kernel, by decide +kernel⟩
  refine ⟨hends, fun h => ?_⟩
  obtain ⟨r, hrun, houtputs, hempty⟩ := hends
  have hcomplete := always_last h hrun "fwupdateutils.log"
  rw [houtputs, hempty] at hcomplete
  exact absurd hcomplete (by simp)

end Runs

end DumpCollector.Dreport.Outputs
