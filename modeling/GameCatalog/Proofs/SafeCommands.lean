import GameCatalog.Command.Basic
import GameCatalog.Proofs.CatalogText
import GameCatalog.Proofs.Script

/-!
# Commands that fail change no file

Every command does all that can fail before its first write, and writes only to paths from which it
has loaded a catalog. Under `strict` the assignment of uids is excused for one failure, which it
reports in the end.
-/

namespace GameCatalog

namespace Script

variable {excused : Failure → Prop} {loaded : List Path}

/-! ## Steps -/

theorem quiet_orFail (context : String) (answer : Except CatalogFault α) :
    (orFail context answer).Quiet := by
  cases answer <;> trivial

theorem quiet_orFailRecord (context : String) (answer : Except RecordFault α) :
    (orFailRecord context answer).Quiet := by
  cases answer <;> trivial

theorem quiet_noteAll (notices : List Notice) : (noteAll notices).Quiet := by
  induction notices with
  | nil => trivial
  | cons notice rest ih => exact ih

theorem quiet_load (path : Path) : (load path).Quiet := fun _ => quiet_orFail _ _

theorem sure_save (path : Path) (catalog : Catalog) (indent : Nat) :
    (save path catalog indent).Sure excused := trivial

theorem follows_load (path : Path) :
    (load path).Follows (fun after _ => path ∈ after) loaded := by
  intro answer
  cases hc : Catalog.ofFile path answer with
  | error fault => simp [hc, orFail, Follows]
  | ok catalog => simp [hc, orFail, Follows, loadedAfter, Except.isOk, Except.toBool]

theorem follows_save {path : Path} (h : path ∈ loaded) (catalog : Catalog) (indent : Nat) :
    (save path catalog indent).Follows (fun _ _ => True) loaded :=
  ⟨h, fun answer => by cases answer <;> trivial⟩

theorem follows_loadAll (paths : List Path) :
    (each load paths).Follows (fun after _ => ∀ path ∈ paths, path ∈ after) loaded := by
  refine (follows_each (P := fun after path _ => path ∈ after) (fun hsub hm => hsub hm)
    fun path _ _ _ => follows_load path).mono fun after _ ⟨h, _⟩ path hm => ?_
  obtain ⟨_, found⟩ := h path hm
  exact found

end Script

namespace Command

open Script

/-- The failure that `assign-uids` reports under `strict`, after it has written its files. -/
def ReportsConflicts : Command → Failure → Prop
  | .assignUids _ true _, failure => ∃ n, 0 < n ∧ failure = .plain s!"{n} uid conflict(s) found"
  | _, _ => False

/-! ## The commands one by one -/

variable {excused : Failure → Prop}

theorem quiet_printChangelog (old new : Path) : (printChangelog old new).Quiet :=
  (quiet_load old).bind fun _ => (quiet_load new).bind fun _ =>
    (quiet_orFailRecord _ _).bind fun _ => trivial

theorem quiet_loadRegistry (main : Path) : (loadRegistry main).Quiet :=
  (quiet_load main).bind fun _ => (quiet_noteAll _).bind fun _ =>
    (quiet_orFailRecord _ _).bind fun _ => trivial

theorem quiet_secondaryFiles (main : Path) (given : List Path) :
    (secondaryFiles main given).Quiet := by
  unfold secondaryFiles
  split
  · exact fun _ => quiet_orFail _ _
  · trivial

theorem quiet_assignDocument (registry : Registry) (document : Path × Catalog) :
    (assignDocument registry document).Quiet :=
  Quiet.bind trivial fun _ => (quiet_noteAll _).bind fun _ =>
    (quiet_orFailRecord _ _).bind fun _ => (quiet_noteAll _).bind fun _ => trivial

theorem sure_saveAssigned (indent : Nat) (outcome : Path × Catalog × AssignReport) :
    (saveAssigned indent outcome).Sure excused := by
  obtain ⟨path, catalog, report⟩ := outcome
  simp only [saveAssigned]
  split
  · exact (sure_save path catalog indent).bind fun _ => trivial
  · trivial

theorem careful_assign (settings : Settings) (main : Option Path) (strict : Bool)
    (secondary : List Path) :
    (assign settings main strict secondary).Careful
      (ReportsConflicts (.assignUids main strict secondary)) := by
  refine (quiet_loadRegistry _).bind_careful fun registry => ?_
  refine (quiet_secondaryFiles _ _).bind_careful fun paths => ?_
  refine (quiet_each fun path _ => quiet_load path).bind_careful fun catalogs => ?_
  refine (quiet_each fun document _ => quiet_assignDocument registry document).bind_careful
    fun outcomes => ?_
  refine ((sure_each fun outcome _ => sure_saveAssigned _ outcome).bind fun written => ?_).careful
  simp only
  split
  next h =>
    obtain ⟨rfl, hpos⟩ := h
    exact ⟨_, hpos, rfl⟩
  next => trivial

theorem follows_assignDocument {loaded : List Path} (registry : Registry)
    (document : Path × Catalog) :
    (assignDocument registry document).Follows (fun _ outcome => outcome.1 = document.1)
      loaded := by
  obtain ⟨path, catalog⟩ := document
  refine Follows.bind (quiet_noteAll [.processing path]).follows fun _ _ _ _ => ?_
  refine (quiet_noteAll _).follows.bind fun _ _ _ _ => ?_
  refine (quiet_orFailRecord _ _).follows.bind fun _ report _ _ => ?_
  exact (quiet_noteAll _).follows.bind fun _ _ _ _ => rfl

theorem follows_saveAssigned {loaded : List Path} (indent : Nat)
    {outcome : Path × Catalog × AssignReport} (h : outcome.1 ∈ loaded) :
    (saveAssigned indent outcome).Follows (fun _ _ => True) loaded := by
  obtain ⟨path, catalog, report⟩ := outcome
  simp only [saveAssigned]
  split
  · exact (follows_save h catalog indent).bind fun _ _ _ _ => trivial
  · trivial

theorem follows_assign (settings : Settings) (main : Option Path) (strict : Bool)
    (secondary : List Path) :
    (assign settings main strict secondary).Follows (fun _ _ => True) [] := by
  refine (quiet_loadRegistry _).follows.bind fun _ registry _ _ => ?_
  refine (quiet_secondaryFiles _ _).follows.bind fun _ paths _ _ => ?_
  refine (follows_loadAll paths).bind fun loaded catalogs _ hpaths => ?_
  refine (follows_each (fun _ h => h) fun document _ _ _ =>
    follows_assignDocument registry document).bind fun more outcomes hmore ⟨_, houtcomes⟩ => ?_
  have saves : ∀ outcome ∈ outcomes, outcome.1 ∈ more := by
    intro outcome hm
    obtain ⟨document, hdocument, he⟩ := houtcomes outcome hm
    rw [he]
    exact hmore (hpaths _ (List.of_mem_zip hdocument).1)
  refine (follows_each_of_forall fun outcome hm _ hsub =>
    follows_saveAssigned _ (hsub (saves outcome hm))).bind fun _ written _ _ => ?_
  simp only
  split <;> trivial

theorem sure_sortDocument (indent : Nat) (document : Path × Catalog) :
    (sortDocument indent document).Sure excused := by
  obtain ⟨path, catalog⟩ := document
  simp only [sortDocument]
  split
  · exact (sure_save path catalog.sortByName.1 indent).bind fun _ => trivial
  · trivial

theorem follows_sortDocument {loaded : List Path} (indent : Nat) {document : Path × Catalog}
    (h : document.1 ∈ loaded) :
    (sortDocument indent document).Follows (fun _ _ => True) loaded := by
  obtain ⟨path, catalog⟩ := document
  simp only [sortDocument]
  split
  · exact (follows_save h catalog.sortByName.1 indent).bind fun _ _ _ _ => trivial
  · trivial

theorem careful_sortFiles (settings : Settings) (files : List Path) :
    (sortFiles settings files).Careful excused := by
  refine (quiet_each fun path _ => quiet_load path).bind_careful fun catalogs => ?_
  refine Sure.careful ?_
  exact (sure_each fun document _ => sure_sortDocument _ document).bind fun _ => trivial

theorem follows_sortFiles (settings : Settings) (files : List Path) :
    (sortFiles settings files).Follows (fun _ _ => True) [] := by
  refine (follows_loadAll _).bind fun loaded catalogs _ hpaths => ?_
  exact (follows_each_of_forall fun document hm _ hsub =>
    follows_sortDocument _ (hsub (hpaths _ (List.of_mem_zip hm).1))).bind fun _ _ _ _ => trivial

theorem careful_carryField (settings : Settings) (old : Path) (new : Option Path)
    (field : Option String) :
    (carryField settings old new field).Careful excused := by
  refine (quiet_load _).bind_careful fun oldCatalog => ?_
  refine (quiet_load _).bind_careful fun newCatalog => ?_
  refine (quiet_noteAll _).bind_careful fun _ => ?_
  refine (quiet_orFailRecord _ _).bind_careful fun report => Sure.careful ?_
  simp only
  split
  · exact (sure_save _ _ _).bind fun _ => trivial
  · trivial

theorem follows_carryField (settings : Settings) (old : Path) (new : Option Path)
    (field : Option String) :
    (carryField settings old new field).Follows (fun _ _ => True) [] := by
  refine (quiet_load _).follows.bind fun _ oldCatalog _ _ => ?_
  refine (follows_load _).bind fun loaded newCatalog _ hnew => ?_
  refine (quiet_noteAll _).follows.bind fun _ _ hnotes _ => ?_
  refine (quiet_orFailRecord _ _).follows.bind fun _ report hreport _ => ?_
  simp only
  split
  · exact (follows_save (hreport (hnotes hnew)) _ _).bind fun _ _ _ _ => trivial
  · trivial

theorem careful_unwrapFields (settings : Settings) (fields : List String) (file : Option Path) :
    (unwrapFields settings fields file).Careful excused := by
  refine (quiet_load _).bind_careful fun catalog => Sure.careful ?_
  generalize (if fields.isEmpty then settings.unwrapFields else fields) = fields
  simp only
  split
  · exact (sure_save _ _ _).bind fun _ => trivial
  · trivial

theorem follows_unwrapFields (settings : Settings) (fields : List String) (file : Option Path) :
    (unwrapFields settings fields file).Follows (fun _ _ => True) [] := by
  refine (follows_load _).bind fun loaded catalog _ hpath => ?_
  generalize (if fields.isEmpty then settings.unwrapFields else fields) = fields
  simp only
  split
  · exact (follows_save hpath _ _).bind fun _ _ _ _ => trivial
  · trivial

/-! ## All commands -/

theorem careful_script (settings : Settings) (command : Command) :
    (command.script settings).Careful command.ReportsConflicts := by
  cases command with
  | changelog old new => exact (quiet_printChangelog old new).careful
  | assignUids main strict secondary =>
      exact (careful_assign settings main strict secondary).bind_sure fun _ => trivial
  | sort files => exact (careful_sortFiles settings files).bind_sure fun _ => trivial
  | carry old new field => exact (careful_carryField settings old new field).bind_sure fun _ => trivial
  | unwrap fields file =>
      exact (careful_unwrapFields settings fields file).bind_sure fun _ => trivial

theorem follows_script (settings : Settings) (command : Command) :
    (command.script settings).Follows (fun _ _ => True) [] := by
  cases command with
  | changelog old new => exact (quiet_printChangelog old new).follows
  | assignUids main strict secondary =>
      exact (follows_assign settings main strict secondary).bind fun _ _ _ _ => trivial
  | sort files => exact (follows_sortFiles settings files).bind fun _ _ _ _ => trivial
  | carry old new field =>
      exact (follows_carryField settings old new field).bind fun _ _ _ _ => trivial
  | unwrap fields file =>
      exact (follows_unwrapFields settings fields file).bind fun _ _ _ _ => trivial

/-- A command that fails, save for conflicts under `strict`, leaves the files as they were, when a
file that can be read can be written. No command makes or removes a file, or changes one that is no
text, and each of its writes goes to a path from which it has loaded a catalog before. -/
theorem run_script_safe (settings : Settings) (command : Command) (files : FileTree) :
    (files.WritesBack → ∀ failure, ((command.script settings).run files).answer = .error failure →
      ¬command.ReportsConflicts failure → ((command.script settings).run files).files = files) ∧
    files.Alike ((command.script settings).run files).files ∧
    ∀ earlier path text answer later,
      (command.script settings).accesses files = earlier ++ .write path text answer :: later →
      ∃ contents catalog, .read path contents ∈ earlier ∧
        Catalog.ofFile path contents = .ok catalog := by
  have follows := follows_script settings command
  have none_loaded : ∀ path ∈ ([] : List Path), files.Reads path := nofun
  refine ⟨fun writes failure he hn => ?_, follows.alike_run none_loaded, ?_⟩
  · rcases (careful_script settings command).files_of_error follows none_loaded writes he with h | h
    · exact h
    · exact absurd h hn
  · intro earlier path text answer later he
    rcases follows.loaded_of_write he with hm | h
    · cases hm
    · exact h

def goThenChess : Catalog :=
  .new ⟨2024, 1, 0⟩ [⟨[("name", .str "Go")]⟩, ⟨[("name", .str "Chess")]⟩]

theorem ofText_goThenChess : Catalog.ofText (goThenChess.text 2) = .ok goThenChess := by
  refine Catalog.ofText_text ⟨?_, ?_, ?_, ?_⟩ ?_ 2
  · simp [goThenChess, Catalog.new, Json.nestingLimit]
  · simp [goThenChess, Catalog.new, Json.nestingLimit]
  · simp [goThenChess, Catalog.new]
  · simp [goThenChess, Catalog.new]
  · simp [show goThenChess.floats = [] from rfl]

/-- The first file could be sorted, but the second one is missing, so neither is written. -/
theorem run_script_safe_goThenChess :
    let files := FileTree.ofTexts [("games.json", goThenChess.text 2)]
    let command := Command.sort ["games.json", "missing.json"]
    let run := (command.script .default).run files
    let failure := Failure.ofFault "failed to load missing.json" (.missing "missing.json")
    goThenChess.sortByName.2 = true ∧ files.WritesBack ∧ run.answer = .error failure ∧
      ¬command.ReportsConflicts failure ∧ run.files = files := by
  intro files command run failure
  have found : files.read "games.json" = .ok (goThenChess.text 2) := by decide +kernel
  have missing : files.read "missing.json" = .error .notFound := by decide +kernel
  have writes : files.WritesBack := FileTree.writesBack_ofTexts _
  have fails : run.answer = .error failure := by
    simp only [run, command, script, sortFiles, each, load, Bind.bind, Script.bind, Script.run,
      List.isEmpty_cons, Bool.false_eq_true, if_false, found, missing, Catalog.ofFile,
      ofText_goThenChess, orFail, CatalogFault.ofFile]
    rfl
  exact ⟨by decide +kernel, writes, fails, not_false,
    (run_script_safe .default command files).1 writes failure fails not_false⟩

end Command

end GameCatalog
