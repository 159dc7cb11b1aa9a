import GameCatalog.Proofs.AssignedFiles
import GameCatalog.Proofs.Rerun
import GameCatalog.Proofs.TextOrder
import GameCatalog.Proofs.VariableSettings
import GameCatalog.Proofs.WellFormedTree
import GameCatalog.Proofs.Writes
import Mathlib.Data.List.Sort

/-!
# Discovered files

A run that is given no files does what it would do if it were given the catalogs next to the main
file in ascending order, in whatever order their directory lists them. A name that is no text is no
name of a catalog. The main file is written only where another of these names leads to it.
-/

namespace GameCatalog

/-! ## The catalogs next to a file -/

theorem isCatalogName_iff {name : Name} :
    isCatalogName name = true ↔ (∃ text, Text.utf8 text = name) ∧
      Text.utf8 "living_playbook" <+: name ∧ Text.utf8 ".json" <:+ name := by
  simp [isCatalogName, Option.isSome_iff_exists, Text.ofUtf8?_eq_some_iff, and_assoc]

theorem isSiblingName_iff {main : Path} {name : Name} :
    isSiblingName main name = true ↔ ((∃ text, Text.utf8 text = name) ∧
      Text.utf8 "living_playbook" <+: name ∧ Text.utf8 ".json" <:+ name) ∧
      main.fileName? ≠ some name := by
  rw [isSiblingName, Bool.and_eq_true, isCatalogName_iff, decide_eq_true_eq, ne_comm, and_comm]

/-- The names of all catalogs next to a file, in ascending order of their bytes. -/
structure CatalogNames (files : FileTree) (main : Path) (names : List Name) : Prop where
  ascending : names.Pairwise (List.Lex (· < ·))
  mem_iff : ∀ name, name ∈ names ↔ files.Holds main.directory name ∧
    ((∃ text, Text.utf8 text = name) ∧
      Text.utf8 "living_playbook" <+: name ∧ Text.utf8 ".json" <:+ name) ∧
    main.fileName? ≠ some name

theorem pairwise_mergeSort_names (listed : List Name) :
    (listed.mergeSort fun a b => decide (a ≤ b)).Pairwise fun a b => a ≤ b := by
  have trans : ∀ a b c : Name, decide (a ≤ b) → decide (b ≤ c) → decide (a ≤ c) := by
    intro a b c ab bc
    exact decide_eq_true (List.le_trans (of_decide_eq_true ab) (of_decide_eq_true bc))
  have total : ∀ a b : Name, decide (a ≤ b) || decide (b ≤ a) := by
    intro a b
    simpa using List.le_total a b
  exact (List.pairwise_mergeSort trans total listed).imp fun le => of_decide_eq_true le

/-- Names are put in the one order that is ascending, whatever the order in which they came. -/
theorem mergeSort_eq_of_ascending {names listed : List Name}
    (ascending : names.Pairwise (List.Lex (· < ·))) (perm : names.Perm listed) :
    (listed.mergeSort fun a b => decide (a ≤ b)) = names := by
  have lt : names.Pairwise fun a b => a < b := ascending
  exact ((List.mergeSort_perm listed _).trans perm.symm).eq_of_pairwise'
    (pairwise_mergeSort_names listed) (lt.imp List.le_of_lt)

variable {files : FileTree} {main : Path} {names listed : List Name}

theorem catalogNames_of_perm (hlisted : files.list main.directory = .ok listed)
    (ascending : names.Pairwise (List.Lex (· < ·)))
    (perm : names.Perm (listed.filter (isSiblingName main))) : CatalogNames files main names := by
  refine ⟨ascending, fun name => ?_⟩
  rw [perm.mem_iff, List.mem_filter, FileTree.mem_list_iff hlisted, isSiblingName_iff]

theorem exists_catalogNames (wellFormed : files.WellFormed)
    (hlisted : files.list main.directory = .ok listed) :
    ∃ names, CatalogNames files main names := by
  have perm := List.mergeSort_perm (listed.filter (isSiblingName main)) fun a b => decide (a ≤ b)
  have nodup := perm.nodup_iff.mpr ((wellFormed.nodup_list hlisted).filter _)
  have ascending := (pairwise_mergeSort_names (listed.filter (isSiblingName main))).imp₂
    (fun a b le ne => Std.lt_of_le_of_ne le ne) nodup
  exact ⟨_, catalogNames_of_perm hlisted ascending perm⟩

theorem CatalogNames.perm (h : CatalogNames files main names) (wellFormed : files.WellFormed)
    (hlisted : files.list main.directory = .ok listed) :
    names.Perm (listed.filter (isSiblingName main)) := by
  have lt : names.Pairwise fun a b => a < b := h.ascending
  refine (List.perm_ext_iff_of_nodup (lt.imp Std.ne_of_lt)
    ((wellFormed.nodup_list hlisted).filter _)).mpr fun name => ?_
  rw [h.mem_iff, List.mem_filter, FileTree.mem_list_iff hlisted, isSiblingName_iff]

/-! ## Directories without links -/

namespace FileTree

/-- No name in the directory that a path leads to is a link, and no two stand for one file. -/
structure Unlinked (files : FileTree) (path : Path) : Prop where
  no_link : ∀ directory name target, files.resolve false path = .ok (.directory directory) →
    files.entries.lookup (directory ++ [name]) ≠ some (.link target)
  apart : ∀ directory name other number, files.resolve false path = .ok (.directory directory) →
    files.entries.lookup (directory ++ [name]) = some (.file number) →
    files.entries.lookup (directory ++ [other]) = some (.file number) → name = other

variable {path : Path} {directory : Place} {name : Name} {number : Nat}

theorem Unlinked.eq_file (h : files.Unlinked path)
    (resolved : files.resolve false path = .ok (.directory directory))
    (entry : files.entries.lookup (directory ++ [name]) = some (.file number) ∨
      ∃ target, files.entries.lookup (directory ++ [name]) = some (.link target)) :
    files.entries.lookup (directory ++ [name]) = some (.file number) := by
  rcases entry with file | ⟨target, link⟩
  · exact file
  · exact absurd link (h.no_link directory name target resolved)

end FileTree

/-- There, none of the catalogs next to a file is the file. -/
theorem CatalogNames.not_sameFile (h : CatalogNames files main names)
    (wellFormed : files.WellFormed) (unlinked : files.Unlinked main.directory) {name : Name}
    (hm : name ∈ names) : ¬files.SameFile (main.directory.join name) main := by
  obtain ⟨holds, -, not_main⟩ := (h.mem_iff name).mp hm
  obtain ⟨directory, resolved, -⟩ := id holds
  rintro ⟨number, file, mainFile⟩
  obtain ⟨mainName, hname, entry⟩ := FileTree.entry_of_fileOf? resolved mainFile
  have entry' := FileTree.entry_of_fileOf?_join (wellFormed.slash_not_mem holds) resolved file
  have same : name = mainName := unlinked.apart directory name mainName number resolved
    (unlinked.eq_file resolved entry') (unlinked.eq_file resolved entry)
  exact not_main (same ▸ hname)

namespace Command

open Script

variable {settings : Settings} {main : Option Path} {strict : Bool}
  {secondary paths : List Path} {files : FileTree}

/-! ## Given and discovered files -/

theorem chosenPaths_of_perm {main : Path} {names listed : List Name}
    (hlisted : files.list main.directory = .ok listed)
    (ascending : names.Pairwise (List.Lex (· < ·)))
    (perm : names.Perm (listed.filter (isSiblingName main))) :
    chosenPaths main [] files = .ok (names.map main.directory.join) := by
  rw [chosenPaths, hlisted, siblings, siblingPaths, mergeSort_eq_of_ascending ascending perm]
  rfl

theorem eq_of_chosenPaths {main : Path} {names : List Name} (h : CatalogNames files main names)
    (wellFormed : files.WellFormed) (chosen : chosenPaths main [] files = .ok paths) :
    paths = names.map main.directory.join := by
  cases hlisted : files.list main.directory with
  | error fault => simp [chosenPaths, hlisted, siblings] at chosen
  | ok listed =>
      rw [chosenPaths_of_perm hlisted h.ascending (h.perm wellFormed hlisted)] at chosen
      exact (Except.ok.inj chosen).symm

theorem exists_assign_eq (settings : Settings) (main : Option Path) (strict : Bool) :
    ∃ rest : Registry → List Path → Script AssignSummary, ∀ secondary,
      assign settings main strict secondary =
        (loadRegistry (main.getD settings.mainFile)).bind fun registry =>
          (secondaryFiles (main.getD settings.mainFile) secondary).bind (rest registry) :=
  ⟨_, fun _ => rfl⟩

theorem run_secondaryFiles_bind {main : Path}
    (chosen : chosenPaths main secondary files = .ok paths) (rest : List Path → Script α) :
    ((secondaryFiles main secondary).bind rest).run files = (rest paths).run files := by
  unfold chosenPaths at chosen
  unfold secondaryFiles
  split at chosen
  next empty =>
    rw [if_pos empty]
    simp only [Script.bind, Script.run, chosen]
    rfl
  next given => rw [if_neg given, done_bind, Except.ok.inj chosen]

/-- A run does to the files that it chooses what it does to them when they are given. -/
theorem run_assign_chosen
    (chosen : chosenPaths (main.getD settings.mainFile) secondary files = .ok paths)
    (nonempty : paths ≠ []) :
    (assign settings main strict secondary).run files =
      (assign settings main strict paths).run files := by
  obtain ⟨rest, he⟩ := exists_assign_eq settings main strict
  have given : chosenPaths (main.getD settings.mainFile) paths files = .ok paths := by
    simp [chosenPaths, nonempty]
  rw [he, he, run_bind, run_bind, Run.andThen, Run.andThen,
    (quiet_loadRegistry _).files_run files]
  cases ((loadRegistry (main.getD settings.mainFile)).run files).answer with
  | error failure => rfl
  | ok registry =>
      simp only [run_secondaryFiles_bind chosen, run_secondaryFiles_bind given]

/-! ## The writes of a run -/

theorem path_of_mem_accesses_saveAssigned {indent : Nat}
    {outcome : Path × Catalog × AssignReport} {path : Path} {text : String}
    {answer : Except FileFault Unit}
    (h : .write path text answer ∈ (saveAssigned indent outcome).accesses files) :
    path = outcome.1 := by
  obtain ⟨target, catalog, report⟩ := outcome
  simp only [saveAssigned] at h
  split at h
  · rcases mem_accesses_bind_iff.mp h with saved | ⟨_, _, -, noted⟩
    · rw [save, accesses] at saved
      split at saved <;> simp_all [accesses]
    · cases noted
  · cases h

/-- A run writes to files that it chose and got through. -/
theorem exists_of_write {path : Path} {text : String} {answer : Except FileFault Unit}
    (h : .write path text answer ∈ (assign settings main strict secondary).accesses files) :
    files.Reads path ∧
      ∃ paths, chosenPaths (main.getD settings.mainFile) secondary files = .ok paths ∧
        path ∈ paths := by
  rw [assign_eq_assignments] at h
  rcases mem_accesses_bind_iff.mp h with early | ⟨outcomes, after, yields, late⟩
  · exact absurd rfl ((quiet_assignments _ _).idle files _ early path text answer)
  obtain ⟨⟨authority, registry, paths, -, -, chosen, assigned⟩, rfl⟩ :=
    yields_assignments_iff.mp yields
  rcases mem_accesses_bind_iff.mp late with saved | ⟨written, last, -, ends⟩
  · obtain ⟨outcome, hm, before, found⟩ := exists_of_mem_accesses_each saved
    obtain rfl := path_of_mem_accesses_saveAssigned found
    obtain ⟨held, hread, -⟩ := reads_of_assigned assigned settings.indent outcome hm
    refine ⟨⟨held, hread⟩, paths, chosen, ?_⟩
    rw [← map_fst_of_assigned assigned]
    exact List.mem_map_of_mem hm
  · exact absurd rfl ((quiet_conclude strict outcomes written).idle last _ ends path text answer)

theorem alike_assign (settings : Settings) (main : Option Path) (strict : Bool)
    (files : FileTree) : files.Alike ((assign settings main strict []).run files).files :=
  (follows_assign settings main strict []).alike_run nofun

/-- A run that is given no files is the run that is given all catalogs next to the main file, each
once and in ascending order; that holds for every order in which the directory lists them. Where none
of them leads to the main file, no write does, and that is so in every directory without links. -/
theorem assign_discovers (settings : Settings) (main : Option Path) (strict : Bool)
    {names : List Name} (wellFormed : files.WellFormed)
    (catalogs : CatalogNames files (main.getD settings.mainFile) names) :
    let path := main.getD settings.mainFile
    let siblings := names.map path.directory.join
    let script := assign settings main strict []
    script.run files = (assign settings main strict siblings).run files ∧
      ((∀ sibling ∈ siblings, ¬files.SameFile sibling path) →
        (∀ target text answer, .write target text answer ∈ script.accesses files →
          ¬files.SameFile target path) ∧
        (script.run files).files.read path = files.read path) ∧
      (files.Unlinked path.directory → ∀ sibling ∈ siblings, ¬files.SameFile sibling path) := by
  intro path siblings script
  refine ⟨?_, fun apart => ?_, fun unlinked => ?_⟩
  · by_cases nonempty : names = []
    · simp only [script, siblings, nonempty, List.map_nil]
    · obtain ⟨name, hm⟩ := List.exists_mem_of_ne_nil names nonempty
      obtain ⟨listed, hlisted⟩ := FileTree.exists_list_of_holds ((catalogs.mem_iff name).mp hm).1
      have chosen := chosenPaths_of_perm hlisted catalogs.ascending
        (catalogs.perm wellFormed hlisted)
      exact run_assign_chosen chosen (by simpa [siblings] using nonempty)
  · have elsewhere : ∀ target text answer, .write target text answer ∈ script.accesses files →
        files.Reads target ∧ ¬files.SameFile target path := by
      intro target text answer hm
      obtain ⟨reads, paths, chosen, listed⟩ := exists_of_write hm
      rw [eq_of_chosenPaths catalogs wellFormed chosen] at listed
      exact ⟨reads, apart target listed⟩
    exact ⟨fun target text answer hm => (elsewhere target text answer hm).2,
      read_run (alike_assign settings main strict files) elsewhere⟩
  · rw [List.forall_mem_map]
    exact fun name hm => catalogs.not_sameFile wellFormed unlinked hm

/-! ## Two directories -/

/-- Below the working directory: the authority, two more catalogs that are not listed in order, and
files that are no catalogs. -/
def goSiblings : FileTree where
  entries :=
    let data := ["home", "data"].map Text.utf8
    [(data.take 1, .directory), (data, .directory),
      (data ++ [Text.utf8 "living_playbook_b.json"], .file 0),
      (data ++ [Text.utf8 "notes.json"], .file 1),
      (data ++ [Text.utf8 "living_playbook.json"], .file 2),
      (data ++ [Text.utf8 "living_playbook_" ++ 0xff :: Text.utf8 ".json"], .file 3),
      (data ++ [Text.utf8 "living_playbook_a.json"], .file 4)]
  files := [.ofText (onlyGo.text 2), .ofText "[]", .ofText (onlyGo.text 2), .ofText "[]",
    .ofText (twoGos.text 2)]
  here := [Text.utf8 "home"]

theorem entries_goSiblings : ∀ held ∈ goSiblings.entries,
    held.2 = .directory ∨ held.2 ∈ (List.range 5).map .file := by decide

theorem wellFormed_goSiblings : goSiblings.WellFormed where
  nodup := by decide
  names := by decide
  here := by decide
  files place number hm := by
    rcases entries_goSiblings _ hm with directory | inside
    · cases directory
    · obtain ⟨_, inside, same⟩ := List.mem_map.mp inside
      rw [← Entry.file.inj same]
      exact List.mem_range.mp inside

theorem catalogNames_goSiblings : CatalogNames goSiblings "data/living_playbook.json"
    [Text.utf8 "living_playbook_a.json", Text.utf8 "living_playbook_b.json"] := by
  have listed : goSiblings.list (Path.directory "data/living_playbook.json") =
      .ok [Text.utf8 "living_playbook_b.json", Text.utf8 "notes.json",
        Text.utf8 "living_playbook.json", Text.utf8 "living_playbook_" ++ 0xff :: Text.utf8 ".json",
        Text.utf8 "living_playbook_a.json"] := by decide
  exact catalogNames_of_perm listed (by decide) (by decide)

theorem unlinked_goSiblings :
    goSiblings.Unlinked (Path.directory "data/living_playbook.json") where
  no_link directory name target _ found := by
    rcases entries_goSiblings _ (FileTree.mem_of_lookup found) with directory | file
    · cases directory
    · obtain ⟨_, -, same⟩ := List.mem_map.mp file
      cases same
  apart directory name other number _ found found' := by
    have apart : ∀ held ∈ goSiblings.entries, ∀ other ∈ goSiblings.entries,
        held.2 = other.2 → held.2 = .directory ∨ held.1 = other.1 := by decide
    rcases apart _ (FileTree.mem_of_lookup found) _ (FileTree.mem_of_lookup found') rfl with
      directory | same
    · cases directory
    · exact List.singleton_inj.mp (List.append_cancel_left same)

theorem exists_report_of_onlyGo (path : Path) : ∃ report,
    goRegistry.assignFile path (.ok (onlyGo.text 2)) = .ok (onlyGo, report) ∧
      report.changed = false ∧ report.faultCount = 0 := by
  have go := assignFile_goFiles "main.json" (by decide)
  rw [read_goFiles_main] at go
  exact Registry.assignFile_rename go path

theorem exists_report_of_twoGos (path : Path) : ∃ report,
    goRegistry.assignFile path (.ok (twoGos.text 2)) = .ok (twoGosAssigned, report) ∧
      report.changed = true ∧ report.faultCount = 1 := by
  have gos := assignFile_goFiles "old.json" (by decide)
  rw [read_goFiles_old] at gos
  exact Registry.assignFile_rename gos path

/-- The two catalogs are found in order; only the one with two records of a name is rewritten, and
the name that is no text is passed over. -/
theorem assign_discovers_goSiblings :
    let run := (assign .default (some "data/living_playbook.json") false []).run goSiblings
    goSiblings.WellFormed ∧
      CatalogNames goSiblings "data/living_playbook.json"
        [Text.utf8 "living_playbook_a.json", Text.utf8 "living_playbook_b.json"] ∧
      goSiblings.Unlinked (Path.directory "data/living_playbook.json") ∧
      run = (assign .default (some "data/living_playbook.json") false
        ["data/living_playbook_a.json", "data/living_playbook_b.json"]).run goSiblings ∧
      run.answer = .ok ⟨1, 1⟩ ∧
      run.files.read "data/living_playbook.json" = .ok (onlyGo.text 2) := by
  intro run
  have paths : [Text.utf8 "living_playbook_a.json", Text.utf8 "living_playbook_b.json"].map
      (Path.join (Path.directory "data/living_playbook.json")) =
        (["data/living_playbook_a.json", "data/living_playbook_b.json"] : List Path) := by
    decide
  have readsMain : goSiblings.read "data/living_playbook.json" = .ok (onlyGo.text 2) :=
    FileTree.read_of_fileOf? (show _ = some 2 by decide)
  have readsGos : goSiblings.read "data/living_playbook_a.json" = .ok (twoGos.text 2) :=
    FileTree.read_of_fileOf? (show _ = some 4 by decide)
  have readsGo : goSiblings.read "data/living_playbook_b.json" = .ok (onlyGo.text 2) :=
    FileTree.read_of_fileOf? (show _ = some 0 by decide)
  have loaded : Catalog.ofFile "data/living_playbook.json"
      (goSiblings.read "data/living_playbook.json") = .ok onlyGo := by
    rw [readsMain]
    exact Catalog.ofFile_of_ofText ofText_onlyGo _
  have writes : goSiblings.WritesBack := FileTree.writesBack_of_writable (by decide)
  obtain ⟨same, stays, apart⟩ := assign_discovers .default (some "data/living_playbook.json") false
    wellFormed_goSiblings catalogNames_goSiblings
  obtain ⟨-, main⟩ := stays (apart unlinked_goSiblings)
  rw [Option.getD_some, paths] at same
  refine ⟨wellFormed_goSiblings, catalogNames_goSiblings, unlinked_goSiblings, same, ?_,
    main.trans readsMain⟩
  obtain ⟨first, assigns, changed, faults⟩ :=
    exists_report_of_twoGos "data/living_playbook_a.json"
  obtain ⟨second, assigns', changed', faults'⟩ :=
    exists_report_of_onlyGo "data/living_playbook_b.json"
  let outcome : Path → Catalog × AssignReport := fun path =>
    if path = "data/living_playbook_a.json" then (twoGosAssigned, first) else (onlyGo, second)
  have outcomes : ∀ path ∈ (["data/living_playbook_a.json", "data/living_playbook_b.json"] :
      List Path), goRegistry.assignFile path (goSiblings.read path) = .ok (outcome path) := by
    simp only [List.forall_mem_cons]
    exact ⟨readsGos ▸ assigns, readsGo ▸ assigns', List.forall_mem_nil _⟩
  have other : ¬("data/living_playbook_b.json" : Path) = "data/living_playbook_a.json" := by
    decide
  obtain ⟨-, answer⟩ := exists_run_assign .default (some "data/living_playbook.json") writes loaded
    ofCatalog_onlyGo (List.cons_ne_nil _ _) outcomes false
  rw [show run = _ from same, answer]
  simp [outcome, other, changed, faults, changed', faults']

/-! ## Where given and discovered files differ -/

/-- A run over one file succeeds, and every path to the file reads what it has become. -/
theorem run_assign_singleton {path : Path} {authority after : Catalog} {registry : Registry}
    {report : AssignReport} (settings : Settings) (main : Option Path) (writes : files.WritesBack)
    (loaded : Catalog.ofFile (main.getD settings.mainFile)
      (files.read (main.getD settings.mainFile)) = .ok authority)
    (indexed : (Registry.ofCatalog authority).1 = .ok registry)
    (assigns : registry.assignFile path (files.read path) = .ok (after, report)) :
    let run := (assign settings main false [path]).run files
    (∃ summary, run.answer = .ok summary) ∧
      (report.changed → ∀ other, files.SameFile other path →
        run.files.read other = .ok (after.text settings.indent)) := by
  intro run
  let outcome : Path → Catalog × AssignReport := fun _ => (after, report)
  have outcomes : ∀ file ∈ [path], registry.assignFile file (files.read file) = .ok (outcome file) :=
    List.forall_mem_singleton.mpr assigns
  obtain ⟨revised, answer⟩ := exists_run_assign settings main writes loaded indexed
    (List.cons_ne_nil path []) outcomes false
  refine ⟨⟨_, answer⟩, fun changed other same => ?_⟩
  obtain ⟨text, catalog, hr, -⟩ := Registry.ofText_of_assignFile assigns
  obtain ⟨number, fileOther, file⟩ := same
  have hother : files.read other = .ok text := by
    rw [FileTree.read_of_fileOf? fileOther, ← FileTree.read_of_fileOf? file, hr]
  rw [hr] at assigns
  rw [show run.files = _ from revised, FileTree.read_revise fileOther hother,
    if_pos (by simp [file]), Registry.newText?_of_assignFile assigns, if_pos changed]
  rfl

/-- A name that starts and ends like that of a catalog, but is no text. -/
def nameInBytes : Name := Text.utf8 "living_playbook_" ++ 0xff :: Text.utf8 ".json"

def filesInBytes : FileTree where
  entries := [([Text.utf8 "living_playbook.json"], .file 0), ([nameInBytes], .file 1)]
  files := [.ofText (onlyGo.text 2), .ofText (twoGos.text 2)]
  here := []

theorem list_filesInBytes : filesInBytes.list (Path.directory "living_playbook.json") =
    .ok [Text.utf8 "living_playbook.json", nameInBytes] := by decide

theorem chosenPaths_filesInBytes : chosenPaths "living_playbook.json" [] filesInBytes = .ok [] :=
  chosenPaths_of_perm list_filesInBytes .nil (by decide)

/-- A run that is given the name writes to its file, and one that is given no files does not. -/
theorem read_filesInBytes :
    let path := Path.join (Path.directory "living_playbook.json") nameInBytes
    let run := fun paths => (assign .default (some "living_playbook.json") false paths).run filesInBytes
    (run []).files.read path = .ok (twoGos.text 2) ∧
      (run [path]).files.read path = .ok (twoGosAssigned.text Settings.default.indent) := by
  intro path run
  have reads : filesInBytes.read path = .ok (twoGos.text 2) :=
    FileTree.read_of_fileOf? (show _ = some 1 by decide)
  have readsMain : filesInBytes.read "living_playbook.json" = .ok (onlyGo.text 2) :=
    FileTree.read_of_fileOf? (show _ = some 0 by decide)
  obtain ⟨report, assigns, changed, -⟩ := exists_report_of_twoGos path
  have loaded : Catalog.ofFile "living_playbook.json" (filesInBytes.read "living_playbook.json") =
      .ok onlyGo := by
    rw [readsMain]
    exact Catalog.ofFile_of_ofText ofText_onlyGo _
  constructor
  · rw [read_run (alike_assign .default (some "living_playbook.json") false filesInBytes), reads]
    intro target text answer hm
    obtain ⟨-, paths, chosen, listed⟩ := exists_of_write hm
    rw [← Except.ok.inj (chosenPaths_filesInBytes.symm.trans chosen)] at listed
    cases listed
  · exact (run_assign_singleton .default (some "living_playbook.json")
      (FileTree.writesBack_of_writable (by decide)) loaded ofCatalog_onlyGo
      (reads ▸ assigns)).2 changed path ⟨1, by decide, by decide⟩

/-- An authority that gives no uids, under two names. -/
def linkedFiles : FileTree where
  entries := [([Text.utf8 "living_playbook.json"], .file 0),
    ([Text.utf8 "living_playbook_latest.json"], .link "living_playbook.json")]
  files := [.ofText (twoGos.text 2)]
  here := []

def unknownGos : Catalog := .new ⟨2024, 1, 0⟩ [.named "Go" none, .named "Go" none]

theorem read_linkedFiles :
    ((assign .default (some "living_playbook.json") false []).run linkedFiles).files.read
      "living_playbook.json" = .ok (unknownGos.text Settings.default.indent) := by
  have listed : linkedFiles.list (Path.directory "living_playbook.json") =
      .ok [Text.utf8 "living_playbook.json", Text.utf8 "living_playbook_latest.json"] := by
    decide
  have chosen : chosenPaths "living_playbook.json" [] linkedFiles =
      .ok ["./living_playbook_latest.json"] :=
    chosenPaths_of_perm listed (List.pairwise_singleton _ _)
      (show List.Perm [Text.utf8 "living_playbook_latest.json"] _ by decide)
  have reads : linkedFiles.read "living_playbook.json" = .ok (twoGos.text 2) :=
    FileTree.read_of_fileOf? (show _ = some 0 by decide)
  have loaded : Catalog.ofFile "living_playbook.json" (linkedFiles.read "living_playbook.json") =
      .ok twoGos := by
    rw [reads]
    exact Catalog.ofFile_of_ofText ofText_twoGos _
  have indexed : (Registry.ofCatalog twoGos).1 = .ok ⟨[]⟩ := by rfl
  have linked : linkedFiles.read "./living_playbook_latest.json" = .ok (twoGos.text 2) :=
    FileTree.read_of_fileOf? (show _ = some 0 by decide)
  have assigns : Registry.assignFile ⟨[]⟩ "./living_playbook_latest.json"
      (linkedFiles.read "./living_playbook_latest.json") =
        .ok (unknownGos, ⟨true, 0, ["Go", "Go"], 0, [], []⟩) := by
    rw [linked]
    exact Registry.assignFile_eq_ok_iff.mpr
      ⟨twoGos, Catalog.ofFile_of_ofText ofText_twoGos _, by rfl, by rfl⟩
  have same : (assign .default (some "living_playbook.json") false []).run linkedFiles =
      (assign .default (some "living_playbook.json") false
        ["./living_playbook_latest.json"]).run linkedFiles :=
    run_assign_chosen chosen (List.cons_ne_nil _ _)
  rw [same]
  exact (run_assign_singleton .default (some "living_playbook.json")
    (FileTree.writesBack_of_writable (by decide)) loaded indexed assigns).2 rfl _
      ⟨0, by decide, by decide⟩

/-- In a directory whose name starts like that of an option. -/
def dashedFiles : FileTree where
  entries := [([Text.utf8 "-d"], .directory),
    ([Text.utf8 "-d", Text.utf8 "living_playbook.json"], .file 0),
    ([Text.utf8 "-d", Text.utf8 "living_playbook_a.json"], .file 1)]
  files := [.ofText (onlyGo.text 2), .ofText (onlyGo.text 2)]
  here := []

def dashedSettings : Settings := { Settings.default with mainFile := "-d/living_playbook.json" }

theorem exists_summary_dashedFiles : ∃ summary,
    ((assign dashedSettings none false []).run dashedFiles).answer = .ok summary := by
  have listed : dashedFiles.list (Path.directory "-d/living_playbook.json") =
      .ok [Text.utf8 "living_playbook.json", Text.utf8 "living_playbook_a.json"] := by
    decide
  have chosen : chosenPaths "-d/living_playbook.json" [] dashedFiles =
      .ok ["-d/living_playbook_a.json"] :=
    chosenPaths_of_perm listed (List.pairwise_singleton _ _)
      (show List.Perm [Text.utf8 "living_playbook_a.json"] _ by decide)
  have readsMain : dashedFiles.read "-d/living_playbook.json" = .ok (onlyGo.text 2) :=
    FileTree.read_of_fileOf? (show _ = some 0 by decide)
  have reads : dashedFiles.read "-d/living_playbook_a.json" = .ok (onlyGo.text 2) :=
    FileTree.read_of_fileOf? (show _ = some 1 by decide)
  have loaded : Catalog.ofFile "-d/living_playbook.json"
      (dashedFiles.read "-d/living_playbook.json") = .ok onlyGo := by
    rw [readsMain]
    exact Catalog.ofFile_of_ofText ofText_onlyGo _
  have same : (assign dashedSettings none false []).run dashedFiles =
      (assign dashedSettings none false ["-d/living_playbook_a.json"]).run dashedFiles :=
    run_assign_chosen chosen (List.cons_ne_nil _ _)
  obtain ⟨report, assigns, -⟩ := exists_report_of_onlyGo "-d/living_playbook_a.json"
  rw [same]
  exact (run_assign_singleton dashedSettings none
    (FileTree.writesBack_of_writable (by decide)) loaded ofCatalog_onlyGo
    (reads ▸ assigns)).1

def playDashed (words : List String) : Program.Outcome :=
  Program.play words [("PLAYBOOK_MAIN_FILE", "-d/living_playbook.json")] dashedFiles

theorem exitCode_playDashed : (playDashed ["assign-uids"]).exitCode = 0 := by
  have parsed : Arguments.parse ["assign-uids"] =
      some (.perform "playbook.toml" (.assignUids none false [])) := by decide +kernel
  have loads : ((Settings.load "playbook.toml"
      [("PLAYBOOK_MAIN_FILE", "-d/living_playbook.json")]).run dashedFiles).answer =
        .ok dashedSettings := toOption_eq_some_iff.mp (by decide +kernel)
  obtain ⟨summary, answer⟩ := exists_summary_dashedFiles
  have script : (Command.assignUids none false []).script dashedSettings =
      (assign dashedSettings none false []).bind fun summary =>
        .note (.assignmentComplete summary.rewritten summary.conflicts) (.done ()) := rfl
  simp [playDashed, Program.play, parsed, Program.run_script (Settings.run_load loads), script,
    run_bind, Run.andThen, answer, Program.ofRun, run]

/-- A run that is given no files does other than one that is given all names that start and end like
that of a catalog where one of these is no text, it writes to the main file where one of these leads
there, and it succeeds where the others start with a dash, which makes them options on the command
line. -/
theorem discovery_is_not_given_names :
    (let main : Path := "living_playbook.json"
      let run := fun paths => (assign .default (some main) false paths).run filesInBytes
      (∀ name, name ∈ [nameInBytes] ↔ filesInBytes.Holds main.directory name ∧
        Text.utf8 "living_playbook" <+: name ∧ Text.utf8 ".json" <:+ name ∧
        main.fileName? ≠ some name) ∧
      (run []).files ≠ (run ([nameInBytes].map main.directory.join)).files) ∧
    ((assign .default (some "living_playbook.json") false []).run linkedFiles).files.read
        "living_playbook.json" ≠ linkedFiles.read "living_playbook.json" ∧
    (playDashed ["assign-uids"]).exitCode = 0 ∧
      (playDashed ["assign-uids", "-d/living_playbook_a.json"]).exitCode = 2 := by
  refine ⟨⟨fun name => ?_, fun same => ?_⟩, ?_, exitCode_playDashed, ?_⟩
  · have chosen : ∀ name ∈ [nameInBytes], name ∈ [Text.utf8 "living_playbook.json", nameInBytes] ∧
        Text.utf8 "living_playbook" <+: name ∧ Text.utf8 ".json" <:+ name ∧
          Path.fileName? "living_playbook.json" ≠ some name := by decide
    have others : ∀ name ∈ [Text.utf8 "living_playbook.json", nameInBytes],
        Path.fileName? "living_playbook.json" ≠ some name → name ∈ [nameInBytes] := by
      decide
    rw [← FileTree.mem_list_iff list_filesInBytes]
    exact ⟨chosen name, fun ⟨hm, _, _, other⟩ => others name hm other⟩
  · obtain ⟨passed, given⟩ := read_filesInBytes
    have texts_ne : twoGos.text 2 ≠ twoGosAssigned.text Settings.default.indent := by
      decide +kernel
    rw [same] at passed
    exact texts_ne (Except.ok.inj (passed.symm.trans given))
  · rw [read_linkedFiles]
    decide +kernel
  · have misused : Arguments.parse ["assign-uids", "-d/living_playbook_a.json"] = none := by
      decide +kernel
    rw [playDashed, Program.play, misused]

end Command

end GameCatalog
