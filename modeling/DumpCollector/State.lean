import DumpCollector.Lib.Effects
import DumpCollector.Lib.Maps
import DumpCollector.Entries
import DumpCollector.FileNames
import DumpCollector.Inotify
import DumpCollector.JsonText

namespace DumpCollector.State

open Std Lib.Directory Lib.Effects Lib.Maps Entries FileNames Inotify JsonText Requests

/-- The size of a file and what the JSON parser makes of it. -/
structure Content where
  size : Nat
  json : Option Json

structure Collector (C : Type) where
  kind : C
  entryId : Nat
  deriving DecidableEq

inductive ProcessState
  | running
  | stopped (signal : Nat)
  | exited (status : Nat)
  deriving DecidableEq

structure Process (C : Type) where
  collector : Collector C
  state : ProcessState
  deriving DecidableEq

/-- A dump manager with the directory it watches and the collectors it has forked. A
slot of `entries` may hold an empty pointer. The member `todo` is what is left of the
map that a watch callback is going through; `own` holds the members that only one
manager has. -/
structure Daemon (E X C : Type) where
  entries : ExtTreeMap Nat (Option E)
  lastEntryId : Nat
  childWatchMap : ExtTreeMap Path Watch
  childPtrMap : ExtTreeMap Nat (Collector C)
  dumpWatch : Watch
  own : X
  todo : List (Path × Nat)
  disk : FileTree Content
  procs : ExtTreeMap Nat (Process C)

def bare {E X C : Type} (own : X) (disk : FileTree Content) : Daemon E X C where
  entries := ∅
  lastEntryId := 0
  childWatchMap := ∅
  childPtrMap := ∅
  dumpWatch := .new [] (IN_CLOSE_WRITE ||| IN_CREATE)
  own := own
  todo := []
  disk := disk
  procs := ∅

abbrev Op (E X C α : Type) := EStateM Exn (Daemon E X C) α

variable {E X C : Type}

section Files

def Daemon.notify (s : Daemon E X C) (dir : Path) (event : InotifyEvent) : Daemon E X C :=
  { s with
    dumpWatch := s.dumpWatch.notify dir event
    childWatchMap := s.childWatchMap.map fun _ w => w.notify dir event }

def Daemon.mkdir (s : Daemon E X C) (dir : Path) (name : String) : Daemon E X C :=
  if s.disk.isDirectory dir = true ∧ dir ++ [name] ∉ s.disk.nodes then
    ({ s with disk := s.disk.mkdir dir name }).notify dir ⟨IN_CREATE ||| IN_ISDIR, name⟩
  else s

def Daemon.openFile (s : Daemon E X C) (dir : Path) (name : String) : Daemon E X C :=
  if s.disk.isDirectory dir = true ∧ s.disk.isDirectory (dir ++ [name]) = false then
    if dir ++ [name] ∈ s.disk.nodes then { s with disk := s.disk.write dir name ⟨0, none⟩ }
    else ({ s with disk := s.disk.write dir name ⟨0, none⟩ }).notify dir ⟨IN_CREATE, name⟩
  else s

def Daemon.writeFile (s : Daemon E X C) (dir : Path) (name : String) (content : Content) : Daemon E X C :=
  if (s.disk.content (dir ++ [name])).isSome then { s with disk := s.disk.write dir name content } else s

/-- Close a file that was opened for writing, whether or not it has been removed since. -/
def Daemon.closeFile (s : Daemon E X C) (dir : Path) (name : String) : Daemon E X C :=
  if s.disk.isDirectory dir = true ∧ s.disk.isDirectory (dir ++ [name]) = false then
    s.notify dir ⟨IN_CLOSE_WRITE, name⟩
  else s

def Daemon.removeAll (s : Daemon E X C) (p : Path) : Daemon E X C :=
  { s with
    disk := s.disk.removeAll p
    dumpWatch := s.dumpWatch.ignored p
    childWatchMap := s.childWatchMap.map fun _ w => w.ignored p }

def fileSize (file : Path) : Op E X C Nat := do
  let s ← get
  match s.disk.content file with
  | some content => pure content.size
  | none => throw .filesystemError

end Files

section Entries

variable [DumpEntry E]

/-- The member function delete_ of an entry. An empty path has an empty parent, and
removing that removes nothing. -/
def Daemon.deleteEntry (s : Daemon E X C) (e : E) : Daemon E X C :=
  match DumpEntry.file e with
  | some file => { s.removeAll file.dropLast with entries := s.entries.erase (DumpEntry.base e).id }
  | none => { s with entries := s.entries.erase (DumpEntry.base e).id }

def deleteAt (key : Nat) : Op E X C Unit := do
  let s ← get
  match s.entries[key]? with
  | some (some e) => modify fun s => s.deleteEntry e
  | _ => throw .nullDereference

def deleteEach : List Nat → Op E X C Unit
  | [] => pure ()
  | key :: keys => do
      deleteAt key
      deleteEach keys

def deleteAll : Op E X C Unit := do
  let s ← get
  deleteEach s.entries.keys

/-- A limit of zero stands for no configured limit. -/
def limitDumpEntries (limit : Nat) : Op E X C Unit := do
  let s ← get
  let totalDumps := s.entries.size
  if limit = 0 ∨ totalDumps < limit then pure ()
  else deleteEach (s.entries.keys.take (totalDumps - (limit - 1)))

/-- The subscript of the map inserts an empty pointer where the key is missing. -/
def createDumpFailed (id : Nat) : Op E X C Unit :=
  modify fun s => { s with
    entries := s.entries.alter id fun slot => some ((slot.getD none).map DumpEntry.setFailedStatus) }

def insertEntry (id : Nat) (e : E) : Op E X C Unit :=
  modify fun s => { s with entries := s.entries.insertIfNew id (some e) }

end Entries

section Watches

def removeWatch (p : Path) : Op E X C Unit :=
  modify fun s => { s with childWatchMap := s.childWatchMap.erase p }

def emplaceWatch (p : Path) : Op E X C Unit :=
  modify fun s => { s with childWatchMap := s.childWatchMap.insertIfNew p (.new p IN_CLOSE_WRITE) }

end Watches

def modifyOwn (f : X → X) : Op E X C Unit := modify fun s => { s with own := f s.own }

section Children

inductive Construction
  | done
  | invalidArgument
  | failed
  deriving DecidableEq

structure Fork where
  pid : Option Nat
  registered : Bool

def Fork.fresh (f : Fork) (s : Daemon E X C) : Bool :=
  match f.pid with
  | some pid => !s.procs.contains pid
  | none => true

def nextEntryId (s : Daemon E X C) : Nat := uint32 (s.lastEntryId + 1)

def startProcess (pid : Nat) (kind : C) : Op E X C Unit :=
  modify fun s => { s with procs := s.procs.insert pid ⟨⟨kind, nextEntryId s⟩, .running⟩ }

def emplaceChild (pid : Nat) (kind : C) : Op E X C Unit :=
  modify fun s => { s with childPtrMap := s.childPtrMap.insertIfNew pid ⟨kind, nextEntryId s⟩ }

/-- The fork of a collector as all managers write it, and what follows in the parent.
A failed registration leaves the process running. -/
def forkCollector (f : Fork) (kind : C) (unregistered : X → X) : Op E X C Nat :=
  match f.pid with
  | none => throw .internalFailure
  | some pid => do
      startProcess pid kind
      if f.registered then do
        emplaceChild pid kind
        modify fun s => { s with lastEntryId := nextEntryId s }
        let s ← get
        pure s.lastEntryId
      else do
        modifyOwn unregistered
        throw .internalFailure

end Children

end DumpCollector.State
