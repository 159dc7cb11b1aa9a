import GameCatalog.Proofs.Judgement
import GameCatalog.Proofs.Reload
import GameCatalog.Proofs.SafeCommands
import GameCatalog.Proofs.Yields

/-!
# Files with the uids of an authority

Assigning uids to files reads all of them, works out what becomes of each by itself, and only then
writes those that change. So a file ends up as it would if it had been the only one, in whatever
order the files are given, and even if the authority is among them.
-/

namespace GameCatalog

/-! ## One file -/

namespace Registry

/-- What assigning makes of the catalog in a file. -/
def assignFile (registry : Registry) (path : Path) (contents : Except FileFault String) :
    Except CatalogFault (Catalog × AssignReport) := do
  let catalog ← Catalog.ofFile path contents
  match (registry.assign path.display catalog).answer with
  | .ok report => .ok ((registry.assign path.display catalog).catalog, report)
  | .error fault => .error (.record fault)

/-- The new text of a file, if assigning changes its catalog. The name of the document is left out,
for it matters to reports alone. -/
def newText? (registry : Registry) (indent : Nat) (text : String) : Option String :=
  match registry.assignFile "" (.ok text) with
  | .ok (catalog, report) => if report.changed then some (catalog.text indent) else none
  | .error _ => none

variable {registry : Registry} {path : Path} {text : String} {contents : Except FileFault String}
  {after : Catalog} {report : AssignReport}

theorem assignFile_eq_ok_iff :
    registry.assignFile path contents = .ok (after, report) ↔
      ∃ catalog, Catalog.ofFile path contents = .ok catalog ∧
        (registry.assign path.display catalog).answer = .ok report ∧
        (registry.assign path.display catalog).catalog = after := by
  rw [assignFile, bind_eq_ok_iff]
  refine exists_congr fun catalog => and_congr_right fun _ => ?_
  cases (registry.assign path.display catalog).answer with
  | error fault => simp
  | ok found => simp [and_comm]

theorem ofText_of_assignFile (h : registry.assignFile path contents = .ok (after, report)) :
    ∃ text catalog, contents = .ok text ∧ Catalog.ofText text = .ok catalog := by
  obtain ⟨catalog, hc, -⟩ := assignFile_eq_ok_iff.mp h
  obtain ⟨text, ht, hr⟩ := Catalog.exists_ofText_of_ofFile hc
  exact ⟨text, catalog, ht, hr⟩

theorem faultCount_ofVerdicts (document other : String) (verdicts : List Verdict) :
    (AssignReport.ofVerdicts document verdicts).faultCount =
      (AssignReport.ofVerdicts other verdicts).faultCount := by
  have conflicts : ∀ verdict : Verdict,
      (verdict.conflict? document).isSome = (verdict.conflict? other).isSome := by
    intro verdict
    cases verdict <;> rfl
  have refused : ∀ verdict : Verdict,
      (verdict.refused? document).isSome = (verdict.refused? other).isSome := by
    intro verdict
    cases verdict <;> rfl
  simp only [AssignReport.faultCount, AssignReport.ofVerdicts, List.length_filterMap_eq_countP,
    conflicts, refused]

/-- Under another name the same catalog comes out, and as many records need a decision. -/
theorem assignFile_rename (h : registry.assignFile path (.ok text) = .ok (after, report))
    (other : Path) :
    ∃ found, registry.assignFile other (.ok text) = .ok (after, found) ∧
      found.changed = report.changed ∧ found.faultCount = report.faultCount := by
  obtain ⟨catalog, hc, hreport, hafter⟩ := assignFile_eq_ok_iff.mp h
  obtain ⟨held, hheld, hr⟩ := Catalog.exists_ofText_of_ofFile hc
  cases hheld
  have valid := valid_of_assign hreport
  obtain ⟨verdicts, judged⟩ := Judgement.exists_of_valid registry
    (catalog.games.filterMap Record.resolved?) valid
  rw [assign_of_judgement valid judged] at hreport hafter
  cases hreport
  refine ⟨.ofVerdicts other.display verdicts, assignFile_eq_ok_iff.mpr
    ⟨catalog, Catalog.ofFile_of_ofText hr other, ?_, ?_⟩,
    rfl, faultCount_ofVerdicts other.display path.display verdicts⟩
  · rw [assign_of_judgement valid judged]
  · rw [assign_of_judgement valid judged, ← hafter]

theorem newText?_of_assignFile (h : registry.assignFile path (.ok text) = .ok (after, report))
    (indent : Nat) :
    registry.newText? indent text = if report.changed then some (after.text indent) else none := by
  obtain ⟨found, hf, hchanged, -⟩ := assignFile_rename h ""
  rw [newText?, hf, ← hchanged]

end Registry

namespace Command

open Script

/-! ## The run in parts -/

def chosenPaths (main : Path) (given : List Path) (files : FileTree) :
    Except CatalogFault (List Path) :=
  if given.isEmpty then siblings main (files.list (main.directory)) else .ok given

/-- All that is done before the first write. -/
def assignments (main : Path) (secondary : List Path) :
    Script (List (Path × Catalog × AssignReport)) := do
  let registry ← loadRegistry main
  let paths ← secondaryFiles main secondary
  let catalogs ← each load paths
  each (assignDocument registry) (paths.zip catalogs)

def assignAll (settings : Settings) (main : Option Path) (secondary : List Path) :
    Script (List (Path × Catalog × AssignReport) × List Bool) := do
  let outcomes ← assignments (main.getD settings.mainFile) secondary
  let written ← each (saveAssigned settings.indent) outcomes
  .done (outcomes, written)

def conflictCount (outcomes : List (Path × Catalog × AssignReport)) : Nat :=
  outcomes.foldr (fun outcome count => outcome.2.2.faultCount + count) 0

def conclude (strict : Bool) (outcomes : List (Path × Catalog × AssignReport))
    (written : List Bool) : Script AssignSummary :=
  if strict ∧ 0 < conflictCount outcomes then
    .fail (.plain s!"{conflictCount outcomes} uid conflict(s) found")
  else .done ⟨written.count true, conflictCount outcomes⟩

theorem assign_eq_assignments (settings : Settings) (main : Option Path) (strict : Bool)
    (secondary : List Path) :
    assign settings main strict secondary =
      (assignments (main.getD settings.mainFile) secondary).bind fun outcomes =>
        (each (saveAssigned settings.indent) outcomes).bind (conclude strict outcomes) := by
  simp only [assign, assignments, Bind.bind, bind_assoc]
  rfl

theorem assign_eq (settings : Settings) (main : Option Path) (strict : Bool)
    (secondary : List Path) :
    assign settings main strict secondary =
      (assignAll settings main secondary).bind fun result => conclude strict result.1 result.2 := by
  rw [assign_eq_assignments]
  simp only [assignAll, Bind.bind, bind_assoc, done_bind]

/-! ## What the parts yield -/

variable {settings : Settings} {main : Path} {secondary paths : List Path}
  {files after : FileTree} {registry : Registry}

theorem yields_loadRegistry_iff :
    (loadRegistry main).Yields files registry after ↔
      (∃ authority, Catalog.ofFile main (files.read main) = .ok authority ∧
        (Registry.ofCatalog authority).1 = .ok registry) ∧ files = after := by
  have unfolded : loadRegistry main = (load main).bind fun authority =>
      (noteAll ((Registry.ofCatalog authority).2.map .event)).bind fun _ =>
        (orFailRecord s!"failed to index {main}" (Registry.ofCatalog authority).1).bind
          fun registry => note (.authorityLoaded main registry.size) (done registry) := rfl
  simp only [unfolded, yields_bind_iff, yields_load_iff, yields_noteAll_iff,
    yields_orFailRecord_iff, yields_note_iff, yields_done_iff]
  constructor
  · rintro ⟨authority, _, ⟨hc, rfl⟩, _, _, rfl, _, _, ⟨hr, rfl⟩, rfl, rfl⟩
    exact ⟨⟨authority, hc, hr⟩, rfl⟩
  · rintro ⟨⟨authority, hc, hr⟩, rfl⟩
    exact ⟨authority, files, ⟨hc, rfl⟩, (), files, rfl, registry, files, ⟨hr, rfl⟩, rfl, rfl⟩

theorem yields_secondaryFiles_iff :
    (secondaryFiles main secondary).Yields files paths after ↔
      chosenPaths main secondary files = .ok paths ∧ files = after := by
  unfold secondaryFiles chosenPaths
  split
  · exact yields_orFail_iff
  · simp

theorem yields_assignDocument_iff {document : Path × Catalog}
    {outcome : Path × Catalog × AssignReport} :
    (assignDocument registry document).Yields files outcome after ↔
      (outcome.1 = document.1 ∧
        (registry.assign document.1.display document.2).answer = .ok outcome.2.2 ∧
        (registry.assign document.1.display document.2).catalog = outcome.2.1) ∧ files = after := by
  obtain ⟨path, catalog⟩ := document
  obtain ⟨label, result, report⟩ := outcome
  have unfolded : assignDocument registry (path, catalog) =
      .note (.processing path)
        ((noteAll ((registry.assign path.display catalog).events.map .event)).bind fun _ => (orFailRecord s!"failed to assign uids in {path}"
          (registry.assign path.display catalog).answer).bind fun report =>
            (noteAll (report.unresolved.map (.nameUnknown path))).bind fun _ =>
              done (path, (registry.assign path.display catalog).catalog, report)) := rfl
  simp only [unfolded, yields_note_iff, yields_bind_iff, yields_noteAll_iff,
    yields_orFailRecord_iff, yields_done_iff, Prod.mk.injEq]
  constructor
  · rintro ⟨_, _, rfl, _, _, ⟨hr, rfl⟩, _, _, rfl, ⟨rfl, rfl, rfl⟩, rfl⟩
    exact ⟨⟨rfl, hr, rfl⟩, rfl⟩
  · rintro ⟨⟨rfl, hr, rfl⟩, rfl⟩
    exact ⟨(), files, rfl, report, files, ⟨hr, rfl⟩, (), files, rfl, ⟨rfl, rfl, rfl⟩, rfl⟩

theorem yields_assignDocuments_iff {documents : List (Path × Catalog)}
    {outcomes : List (Path × Catalog × AssignReport)} :
    (each (assignDocument registry) documents).Yields files outcomes after ↔
      List.Forall₂ (fun document outcome => outcome.1 = document.1 ∧
        (registry.assign document.1.display document.2).answer = .ok outcome.2.2 ∧
        (registry.assign document.1.display document.2).catalog = outcome.2.1) documents outcomes ∧
      files = after :=
  yields_each_iff fun _ _ _ => yields_assignDocument_iff

/-- What the run finds for a file. -/
def Assigned (registry : Registry) (files : FileTree) (path : Path)
    (outcome : Path × Catalog × AssignReport) : Prop :=
  outcome.1 = path ∧ registry.assignFile path (files.read path) = .ok outcome.2

variable {outcomes : List (Path × Catalog × AssignReport)} {written : List Bool}

/-- Loading all files and then assigning to all comes to the same as taking them one by one. -/
theorem forall₂_assigned_iff :
    (∃ catalogs, List.Forall₂ (fun path catalog =>
        Catalog.ofFile path (files.read path) = .ok catalog) paths catalogs ∧
      List.Forall₂ (fun document outcome => outcome.1 = document.1 ∧
        (registry.assign document.1.display document.2).answer = .ok outcome.2.2 ∧
        (registry.assign document.1.display document.2).catalog = outcome.2.1)
          (paths.zip catalogs) outcomes) ↔
      List.Forall₂ (Assigned registry files) paths outcomes := by
  induction paths generalizing outcomes with
  | nil => simp
  | cons path rest ih =>
      simp only [List.forall₂_cons_left_iff, ← ih]
      constructor
      · rintro ⟨_, ⟨catalog, catalogs, hc, hcatalogs, rfl⟩, hall⟩
        rw [List.zip_cons_cons, List.forall₂_cons_left_iff] at hall
        obtain ⟨outcome, others, ⟨hpath, hreport, hafter⟩, hothers, rfl⟩ := hall
        exact ⟨outcome, others,
          ⟨hpath, Registry.assignFile_eq_ok_iff.mpr ⟨catalog, hc, hreport, hafter⟩⟩,
          ⟨catalogs, hcatalogs, hothers⟩, rfl⟩
      · rintro ⟨outcome, others, ⟨hpath, hassigned⟩, ⟨catalogs, hcatalogs, hothers⟩, rfl⟩
        obtain ⟨catalog, hc, hreport, hafter⟩ := Registry.assignFile_eq_ok_iff.mp hassigned
        exact ⟨catalog :: catalogs, ⟨catalog, catalogs, hc, hcatalogs, rfl⟩,
          .cons ⟨hpath, hreport, hafter⟩ hothers⟩

theorem yields_assignments_iff :
    (assignments main secondary).Yields files outcomes after ↔
      (∃ authority registry paths, Catalog.ofFile main (files.read main) = .ok authority ∧
        (Registry.ofCatalog authority).1 = .ok registry ∧
        chosenPaths main secondary files = .ok paths ∧
        List.Forall₂ (Assigned registry files) paths outcomes) ∧ files = after := by
  have unfolded : assignments main secondary =
      (loadRegistry main).bind fun registry => (secondaryFiles main secondary).bind fun paths =>
        (each load paths).bind fun catalogs =>
          each (assignDocument registry) (paths.zip catalogs) := rfl
  simp only [unfolded, yields_bind_iff, yields_loadRegistry_iff, yields_secondaryFiles_iff,
    yields_loadAll_iff, yields_assignDocuments_iff, ← forall₂_assigned_iff]
  constructor
  · rintro ⟨registry, _, ⟨⟨authority, hc, hr⟩, rfl⟩, paths, _, ⟨hpaths, rfl⟩, catalogs, _,
      ⟨hloads, rfl⟩, hassigns, rfl⟩
    exact ⟨⟨authority, registry, paths, hc, hr, hpaths, catalogs, hloads, hassigns⟩, rfl⟩
  · rintro ⟨⟨authority, registry, paths, hc, hr, hpaths, catalogs, hloads, hassigns⟩, rfl⟩
    exact ⟨registry, files, ⟨⟨authority, hc, hr⟩, rfl⟩, paths, files, ⟨hpaths, rfl⟩, catalogs,
      files, ⟨hloads, rfl⟩, hassigns, rfl⟩

/-! ## What the run leaves -/

theorem saves_saveAssigned (indent : Nat) (outcome : Path × Catalog × AssignReport) :
    (saveAssigned indent outcome).Saves outcome.1
      (if outcome.2.2.changed then some (outcome.2.1.text indent) else none) :=
  saves_ite

theorem reads_of_assigned (h : List.Forall₂ (Assigned registry files) paths outcomes)
    (indent : Nat) :
    ∀ outcome ∈ outcomes, ∃ text, files.read outcome.1 = .ok text ∧
      (if outcome.2.2.changed then some (outcome.2.1.text indent) else none) =
        registry.newText? indent text := by
  induction h with
  | nil => nofun
  | @cons path outcome rest others first _ ih =>
      obtain ⟨rfl, hassigned⟩ := first
      obtain ⟨text, -, hr, -⟩ := Registry.ofText_of_assignFile hassigned
      rw [hr] at hassigned
      exact List.forall_mem_cons.mpr
        ⟨⟨text, hr, (Registry.newText?_of_assignFile hassigned indent).symm⟩, ih⟩

theorem map_fst_of_assigned (h : List.Forall₂ (Assigned registry files) paths outcomes) :
    outcomes.map Prod.fst = paths := by
  induction h with
  | nil => rfl
  | cons first others ih => rw [List.map_cons, first.1, ih]

theorem yields_assignAll_iff {main : Option Path} :
    (assignAll settings main secondary).Yields files (outcomes, written) after ↔
      (assignments (main.getD settings.mainFile) secondary).Yields files outcomes files ∧
        (each (saveAssigned settings.indent) outcomes).Yields files written after := by
  have unfolded : assignAll settings main secondary =
      (assignments (main.getD settings.mainFile) secondary).bind fun outcomes =>
        (each (saveAssigned settings.indent) outcomes).bind fun written =>
          done (outcomes, written) := rfl
  simp only [unfolded, yields_bind_iff, yields_done_iff, Prod.mk.injEq]
  constructor
  · rintro ⟨_, middle, hassigns, _, _, hsaves, ⟨rfl, rfl⟩, rfl⟩
    obtain ⟨-, rfl⟩ := yields_assignments_iff.mp hassigns
    exact ⟨hassigns, hsaves⟩
  · rintro ⟨hassigns, hsaves⟩
    exact ⟨outcomes, files, hassigns, written, after, hsaves, ⟨rfl, rfl⟩, rfl⟩

/-- Each file has its new text if it has one. -/
theorem files_of_yields_assignAll {main : Option Path}
    (h : (assignAll settings main secondary).Yields files (outcomes, written) after) :
    ∃ authority registry paths,
      Catalog.ofFile (main.getD settings.mainFile) (files.read (main.getD settings.mainFile)) =
        .ok authority ∧
      (Registry.ofCatalog authority).1 = .ok registry ∧
      chosenPaths (main.getD settings.mainFile) secondary files = .ok paths ∧
      List.Forall₂ (Assigned registry files) paths outcomes ∧
      written = outcomes.map (·.2.2.changed) ∧
      after = files.revise (paths.filterMap files.fileOf?)
        (registry.newText? settings.indent) := by
  obtain ⟨hassigns, hsaves⟩ := yields_assignAll_iff.mp h
  obtain ⟨⟨authority, registry, paths, hc, hr, hpaths, hall⟩, -⟩ :=
    yields_assignments_iff.mp hassigns
  rw [← files.revise_nil (registry.newText? settings.indent)] at hsaves
  obtain ⟨hwritten, hafter⟩ := revise_of_yields_each
    (fun outcome _ => saves_saveAssigned settings.indent outcome)
    (reads_of_assigned hall settings.indent) hsaves
  refine ⟨authority, registry, paths, hc, hr, hpaths, hall, ?_, ?_⟩
  · rw [hwritten]
    exact List.map_congr_left fun outcome _ => by cases outcome.2.2.changed <;> rfl
  · rw [hafter, map_fst_of_assigned hall, List.nil_append]

/-- Where files can be written back, nothing fails once all outcomes are known. -/
theorem exists_yields_assignAll {main : Option Path} (writes : files.WritesBack)
    (yields : (assignments (main.getD settings.mainFile) secondary).Yields files outcomes files)
    (assigned : List.Forall₂ (Assigned registry files) paths outcomes) :
    ∃ written after,
      (assignAll settings main secondary).Yields files (outcomes, written) after := by
  have reads : ∀ path ∈ outcomes.map Prod.fst, files.Reads path := by
    rw [List.forall_mem_map]
    intro outcome hm
    obtain ⟨text, hr, -⟩ := reads_of_assigned assigned settings.indent outcome hm
    exact ⟨text, hr⟩
  have sure : (each (saveAssigned settings.indent) outcomes).Sure fun _ => False :=
    sure_each fun outcome _ => sure_saveAssigned settings.indent outcome
  have follows : (each (saveAssigned settings.indent) outcomes).Follows (fun _ _ => True)
      (outcomes.map Prod.fst) :=
    follows_each_of_forall fun outcome hm _ hsub =>
      follows_saveAssigned settings.indent (hsub (List.mem_map_of_mem hm))
  cases ha : ((each (saveAssigned settings.indent) outcomes).run files).answer with
  | error failure => exact (sure.excused_of_error follows reads writes ha).elim
  | ok written => exact ⟨written, _, yields_assignAll_iff.mpr ⟨yields, ha, rfl⟩⟩

/-- What is done to the files does not depend on what the end of the run makes of the conflicts. -/
theorem files_assign (settings : Settings) (main : Option Path) (strict : Bool)
    (secondary : List Path) (files : FileTree) :
    ((assign settings main strict secondary).run files).files =
      ((assignAll settings main secondary).run files).files := by
  rw [assign_eq, run_bind, Run.andThen]
  cases ((assignAll settings main secondary).run files).answer with
  | error failure => rfl
  | ok result =>
      simp only [conclude]
      split <;> rfl

theorem answer_assign {main : Option Path}
    (h : (assignAll settings main secondary).Yields files (outcomes, written) after)
    (strict : Bool) :
    ((assign settings main strict secondary).run files).answer =
      if strict ∧ 0 < conflictCount outcomes then
        .error (.plain s!"{conflictCount outcomes} uid conflict(s) found")
      else .ok ⟨written.count true, conflictCount outcomes⟩ := by
  rw [assign_eq, run_bind, Run.andThen, h.1]
  simp only [conclude]
  split <;> rfl

section Independent

variable (settings) (main : Option Path) {authority : Catalog}
  {outcome : Path → Catalog × AssignReport} (writes : files.WritesBack)
  (loaded : Catalog.ofFile (main.getD settings.mainFile)
    (files.read (main.getD settings.mainFile)) = .ok authority)
  (indexed : (Registry.ofCatalog authority).1 = .ok registry)
  (nonempty : paths ≠ [])
  (assigns : ∀ path ∈ paths, registry.assignFile path (files.read path) = .ok (outcome path))

include writes loaded indexed nonempty assigns

theorem exists_run_assign (strict : Bool) :
    let run := (assign settings main strict paths).run files
    let conflicts := paths.foldr (fun path count => (outcome path).2.faultCount + count) 0
    run.files = files.revise (paths.filterMap files.fileOf?) (registry.newText? settings.indent) ∧
      run.answer = if strict ∧ 0 < conflicts then
          .error (.plain s!"{conflicts} uid conflict(s) found")
        else .ok ⟨paths.countP fun path => (outcome path).2.changed, conflicts⟩ := by
  intro run conflicts
  have assigned : List.Forall₂ (Assigned registry files) paths
      (paths.map fun path => (path, outcome path)) := by
    rw [List.forall₂_map_right_iff, List.forall₂_same]
    exact fun path hm => ⟨rfl, assigns path hm⟩
  have chosen : chosenPaths (main.getD settings.mainFile) paths files = .ok paths := by
    simp [chosenPaths, nonempty]
  have yields := yields_assignments_iff.mpr
    ⟨⟨authority, registry, paths, loaded, indexed, chosen, assigned⟩, rfl⟩
  obtain ⟨written, after, hall⟩ := exists_yields_assignAll writes yields assigned
  obtain ⟨_, _, _, hc, hr, hpaths, -, rfl, hafter⟩ := files_of_yields_assignAll hall
  obtain rfl := Except.ok.inj (loaded.symm.trans hc)
  obtain rfl := Except.ok.inj (indexed.symm.trans hr)
  obtain rfl := Except.ok.inj (chosen.symm.trans hpaths)
  have counted : conflictCount (paths.map fun path => (path, outcome path)) = conflicts := by
    simp [conflictCount, conflicts, List.foldr_map]
  constructor
  · rw [show run.files = _ from files_assign settings main strict paths files, hall.2, hafter]
  · rw [show run.answer = _ from answer_assign hall strict, counted]
    simp [List.count_eq_countP, List.countP_map, Function.comp_def]

end Independent

/-- An authority for Go. -/
def onlyGo : Catalog := .new ⟨2025, 1, 0⟩ [.named "Go" (Uid.ofInt? 7)]

/-- Two records of the name Go, of which only one can get the uid. -/
def twoGos : Catalog := .new ⟨2024, 1, 0⟩ [⟨[("name", .str "Go")]⟩, ⟨[("name", .str "Go")]⟩]

def twoGosAssigned : Catalog :=
  .new ⟨2024, 1, 0⟩ [.named "Go" (Uid.ofInt? 7), .named "Go" none]

theorem ofText_onlyGo : Catalog.ofText (onlyGo.text 2) = .ok onlyGo := by
  have fields : (Record.named "Go" (Uid.ofInt? 7)).fields =
      [("name", .str "Go"), ("uid", .num (.int 7 (by decide)))] := rfl
  refine (Catalog.restorable_new ?_ ?_).ofText_text 2
  · simp [fields, Json.nestingLimit, -Prod.forall]
  · simp [fields, Json.Value.floats, Json.Value.memberFloats]

theorem ofText_twoGos : Catalog.ofText (twoGos.text 2) = .ok twoGos := by
  refine (Catalog.restorable_new ?_ ?_).ofText_text 2
  · simp [Json.nestingLimit]
  · simp [Json.Value.floats, Json.Value.memberFloats]

/-- The authority, a file that it leaves with a fault, and one that is out of order. -/
def goFiles : FileTree :=
  .ofTexts [("main.json", onlyGo.text 2), ("old.json", twoGos.text 2),
    ("games.json", goThenChess.text 2)]

def goRegistry : Registry := ⟨[("Go", ⟨7, by decide⟩)]⟩

def goOutcome (path : Path) : Catalog × AssignReport :=
  if path = "main.json" then (onlyGo, ⟨false, 0, [], 0, [], []⟩)
  else (twoGosAssigned, ⟨true, 1, ["Go"], 0, [], [⟨"Go", "old.json", ⟨7, by decide⟩⟩]⟩)

theorem writesBack_goFiles : goFiles.WritesBack := FileTree.writesBack_ofTexts _

theorem read_goFiles_main : goFiles.read "main.json" = .ok (onlyGo.text 2) := by decide +kernel

theorem read_goFiles_old : goFiles.read "old.json" = .ok (twoGos.text 2) := by decide +kernel

theorem load_goFiles_main : Catalog.ofFile "main.json" (goFiles.read "main.json") = .ok onlyGo := by
  rw [read_goFiles_main]
  exact Catalog.ofFile_of_ofText ofText_onlyGo _

theorem ofCatalog_onlyGo : (Registry.ofCatalog onlyGo).1 = .ok goRegistry := by rfl

theorem assignFile_goFiles : ∀ path ∈ (["old.json", "main.json", "old.json"] : List Path),
    goRegistry.assignFile path (goFiles.read path) = .ok (goOutcome path) := by
  have main : goRegistry.assignFile "main.json" (goFiles.read "main.json") =
      .ok (goOutcome "main.json") :=
    Registry.assignFile_eq_ok_iff.mpr ⟨onlyGo, load_goFiles_main, by rfl, by rfl⟩
  have old : goRegistry.assignFile "old.json" (goFiles.read "old.json") =
      .ok (goOutcome "old.json") := by
    rw [read_goFiles_old]
    exact Registry.assignFile_eq_ok_iff.mpr
      ⟨twoGos, Catalog.ofFile_of_ofText ofText_twoGos _, by rfl, by rfl⟩
  simp only [List.forall_mem_cons]
  exact ⟨old, main, old, List.forall_mem_nil _⟩

end Command

end GameCatalog
