import GameCatalog.Catalog.Carry
import GameCatalog.Catalog.Order
import GameCatalog.Catalog.Unwrap
import GameCatalog.Changelog
import GameCatalog.Command.Script
import GameCatalog.Registry.Assign
import GameCatalog.Settings.Basic

/-!
# Commands

Each command is one pass over its files. All files are read, and everything that can fail is done,
before the first file is written, and only files whose catalog changed are written.
-/

namespace GameCatalog

/-- What the command line asks for; where a file or field is missing, the settings name it. -/
inductive Command where
  | changelog (old new : Path)
  | assignUids (main : Option Path) (strict : Bool) (secondary : List Path)
  | sort (files : List Path)
  | carry (old : Path) (new : Option Path) (field : Option String)
  | unwrap (fields : List String) (file : Option Path)
deriving DecidableEq

namespace Command

open Script

/-! ## Changelog -/

def printChangelog (old new : Path) : Script Unit := do
  let oldCatalog ← load old
  let newCatalog ← load new
  let text ← orFailRecord s!"failed to reconcile {old} against {new}"
    (Changelog.between oldCatalog newCatalog)
  .print (text ++ "\n") (.done ())

/-! ## Uids -/

structure AssignSummary where
  rewritten : Nat
  conflicts : Nat
deriving DecidableEq

def loadRegistry (main : Path) : Script Registry := do
  let authority ← load main
  let (answer, events) := Registry.ofCatalog authority
  noteAll (events.map .event)
  let registry ← orFailRecord s!"failed to index {main}" answer
  .note (.authorityLoaded main registry.size) (.done registry)

def secondaryFiles (main : Path) (given : List Path) : Script (List Path) :=
  if given.isEmpty then
    .list main.directory fun listed =>
      orFail s!"failed to list datasets next to {main}" (siblings main listed)
  else .done given

def assignDocument (registry : Registry) (document : Path × Catalog) :
    Script (Path × Catalog × AssignReport) := do
  let (path, catalog) := document
  .note (.processing path) (.done ())
  let edit := registry.assign path.display catalog
  noteAll (edit.events.map .event)
  let report ← orFailRecord s!"failed to assign uids in {path}" edit.answer
  noteAll (report.unresolved.map (.nameUnknown path))
  .done (path, edit.catalog, report)

def saveAssigned (indent : Nat) (outcome : Path × Catalog × AssignReport) : Script Bool := do
  let (path, catalog, report) := outcome
  if report.changed then
    save path catalog indent
    .note (.uidsUpdated path report.assigned) (.done true)
  else .note (.uidsUnchanged path) (.done false)

/-- Gives the records of secondary files the uids of the main file. Under `strict` the run fails in
the end when a record needs a decision by hand. -/
def assign (settings : Settings) (main : Option Path) (strict : Bool)
    (secondary : List Path) : Script AssignSummary := do
  let main := main.getD settings.mainFile
  let registry ← loadRegistry main
  let paths ← secondaryFiles main secondary
  let catalogs ← each load paths
  let outcomes ← each (assignDocument registry) (paths.zip catalogs)
  let written ← each (saveAssigned settings.indent) outcomes
  let conflicts := outcomes.foldr (fun (_, _, report) count => report.faultCount + count) 0
  if strict ∧ 0 < conflicts then .fail (.plain s!"{conflicts} uid conflict(s) found")
  else .done ⟨written.count true, conflicts⟩

/-! ## Order -/

def sortDocument (indent : Nat) (document : Path × Catalog) : Script Bool := do
  let (path, catalog) := document
  let (sorted, changed) := catalog.sortByName
  if changed then
    save path sorted indent
    .note (.sorted path) (.done true)
  else .note (.alreadySorted path) (.done false)

def sortFiles (settings : Settings) (files : List Path) : Script Nat := do
  let files := if files.isEmpty then [settings.mainFile] else files
  let catalogs ← each load files
  let written ← each (sortDocument settings.indent) (files.zip catalogs)
  .done (written.count true)

/-! ## Fields -/

def carryField (settings : Settings) (old : Path) (new : Option Path) (field : Option String) :
    Script CarryReport := do
  let new := new.getD settings.mainFile
  let field := field.getD settings.carryField
  let oldCatalog ← load old
  let newCatalog ← load new
  let edit := oldCatalog.carry newCatalog field
  noteAll (edit.events.map .event)
  let report ← orFailRecord s!"failed to carry {field} from {old} into {new}" edit.answer
  if 0 < report.carried then save new edit.catalog settings.indent
  .note (.carryComplete new field report.carried report.unmatched) (.done report)

def unwrapFields (settings : Settings) (fields : List String) (file : Option Path) :
    Script Nat := do
  let path := file.getD settings.mainFile
  let fields := if fields.isEmpty then settings.unwrapFields else fields
  let catalog ← load path
  let (unwrapped, count) := catalog.unwrap fields
  if 0 < count then save path unwrapped settings.indent
  .note (.unwrapComplete path count) (.done count)

/-! ## All commands -/

def script (settings : Settings) : Command → Script Unit
  | .changelog old new => printChangelog old new
  | .assignUids main strict secondary => do
      let summary ← assign settings main strict secondary
      .note (.assignmentComplete summary.rewritten summary.conflicts) (.done ())
  | .sort files => do
      let _ ← sortFiles settings files
      .done ()
  | .carry old new field => do
      let _ ← carryField settings old new field
      .done ()
  | .unwrap fields file => do
      let _ ← unwrapFields settings fields file
      .done ()

end Command

end GameCatalog
