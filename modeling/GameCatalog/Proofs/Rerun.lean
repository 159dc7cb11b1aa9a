import GameCatalog.Proofs.AssignAgain
import GameCatalog.Proofs.Order

/-!
# Running a command again

A command that went through leaves files in which it finds nothing more to do: what it wrote loads
as the catalogs that it had, and to these it would do the same again.
-/

namespace GameCatalog

/-- Every catalog in the files comes back as it was when it is saved and loaded again. -/
def FileTree.Restorable (files : FileTree) : Prop :=
  ∀ path catalog, Catalog.ofFile path (files.read path) = .ok catalog → catalog.Restorable

theorem FileTree.restorable_of_floats {files : FileTree}
    (floats : ∀ path catalog, Catalog.ofFile path (files.read path) = .ok catalog →
      ∀ x ∈ catalog.floats, Json.ReadsBack x) : files.Restorable :=
  fun path catalog h => ⟨Catalog.readable_of_ofFile h, floats path catalog h⟩

namespace Command

open Script

/-! ## Uids -/

section Assign

variable {settings : Settings} {main : Path} {secondary paths : List Path}
  {files : FileTree} {registry : Registry} {outcomes : List (Path × Catalog × AssignReport)}

/-- What is found for a listed file once all listed files have their new texts. -/
theorem Assigned.again {path : Path} {outcome : Path × Catalog × AssignReport}
    (h : Assigned registry files path outcome) (restorable : files.Restorable)
    (listed : path ∈ paths) (indent : Nat) :
    ∃ later, Assigned registry
        (files.revise (paths.filterMap files.fileOf?) (registry.newText? indent)) path later ∧
      later.2.2.changed = false ∧ later.2.2.faultCount = outcome.2.2.faultCount := by
  obtain ⟨rfl, h⟩ := h
  obtain ⟨text, -, hr, -⟩ := Registry.ofText_of_assignFile h
  obtain ⟨number, file, -⟩ := FileTree.read_eq_ok_iff.mp hr
  have listed' : number ∈ paths.filterMap files.fileOf? := List.mem_filterMap.mpr ⟨_, listed, file⟩
  have held := restorable outcome.1
  rw [hr] at h held
  obtain ⟨again, hagain, unchanged, faults⟩ := Registry.assignFile_again h held indent
  refine ⟨(outcome.1, outcome.2.1, again), ⟨rfl, ?_⟩, unchanged, faults⟩
  rw [FileTree.read_revise file hr, if_pos listed']
  exact hagain

theorem assigned_again (restorable : files.Restorable)
    (h : List.Forall₂ (Assigned registry files) paths outcomes) {listed : List Path}
    (subset : paths ⊆ listed) (indent : Nat) :
    ∃ later, List.Forall₂ (Assigned registry
        (files.revise (listed.filterMap files.fileOf?) (registry.newText? indent)))
          paths later ∧
      (∀ outcome ∈ later, outcome.2.2.changed = false) ∧
      conflictCount later = conflictCount outcomes := by
  induction h with
  | nil => exact ⟨[], .nil, List.forall_mem_nil _, rfl⟩
  | @cons path outcome rest others first _ ih =>
      obtain ⟨hpath, hrest⟩ := List.cons_subset.mp subset
      obtain ⟨later, hlater, unchanged, faults⟩ := first.again restorable hpath indent
      obtain ⟨more, hmore, allUnchanged, allFaults⟩ := ih hrest
      refine ⟨later :: more, .cons hlater hmore,
        List.forall_mem_cons.mpr ⟨unchanged, allUnchanged⟩, ?_⟩
      rw [conflictCount, List.foldr_cons, conflictCount, List.foldr_cons, faults]
      exact congrArg _ allFaults

theorem registry_again {authority : Catalog} (restorable : files.Restorable)
    (loaded : Catalog.ofFile main (files.read main) = .ok authority)
    (indexed : (Registry.ofCatalog authority).1 = .ok registry) (numbers : List Nat)
    (indent : Nat) :
    ∃ later, Catalog.ofFile main
        ((files.revise numbers (registry.newText? indent)).read main) = .ok later ∧
      (Registry.ofCatalog later).1 = .ok registry := by
  obtain ⟨text, hr, -⟩ := Catalog.exists_ofText_of_ofFile loaded
  obtain ⟨number, file, -⟩ := FileTree.read_eq_ok_iff.mp hr
  have held := restorable main authority loaded
  rw [FileTree.read_revise file hr]
  rw [hr] at loaded
  split
  · exact Registry.ofCatalog_again loaded held indexed indent
  · exact ⟨authority, loaded, indexed⟩

theorem quiet_assignments (main : Path) (secondary : List Path) :
    (assignments main secondary).Quiet :=
  (quiet_loadRegistry main).bind fun registry => (quiet_secondaryFiles main secondary).bind
    fun _ => (quiet_each fun path _ => quiet_load path).bind fun _ =>
      quiet_each fun document _ => quiet_assignDocument registry document

theorem quiet_saveAssigned {outcome : Path × Catalog × AssignReport}
    (unchanged : outcome.2.2.changed = false) (indent : Nat) :
    (saveAssigned indent outcome).Quiet := by
  obtain ⟨path, catalog, report⟩ := outcome
  simp only at unchanged
  simp [saveAssigned, unchanged, Quiet]

theorem quiet_conclude (strict : Bool) (outcomes : List (Path × Catalog × AssignReport))
    (written : List Bool) : (conclude strict outcomes written).Quiet := by
  unfold conclude
  split <;> trivial

theorem chosenPaths_revise (main : Path) (given : List Path) (files : FileTree)
    (numbers : List Nat) (change : String → Option String) :
    chosenPaths main given (files.revise numbers change) = chosenPaths main given files := by
  simp only [chosenPaths, (files.alike_revise numbers change).list]

/-- A run that succeeds without `strict` got through every file it was given. -/
theorem exists_yields_of_answer {main : Option Path} {summary : AssignSummary}
    (passes : ((assign settings main false secondary).run files).answer = .ok summary) :
    ∃ outcomes written after,
      (assignAll settings main secondary).Yields files (outcomes, written) after := by
  rw [assign_eq, run_bind, Run.andThen] at passes
  cases h : ((assignAll settings main secondary).run files).answer with
  | error failure => simp [h] at passes
  | ok result => exact ⟨result.1, result.2, _, h, rfl⟩

/-- Files that assigning does not change are left alone. -/
theorem assign_of_unchanged {main : Option Path}
    (yields : (assignments (main.getD settings.mainFile) secondary).Yields files outcomes files)
    (unchanged : ∀ outcome ∈ outcomes, outcome.2.2.changed = false) (strict : Bool) :
    (assign settings main strict secondary).Idle files ∧
      (assignAll settings main secondary).Yields files (outcomes, outcomes.map fun _ => false)
        files := by
  constructor
  · rw [assign_eq_assignments]
    refine (quiet_assignments _ _).bind_idle fun found hfound => ?_
    obtain rfl : found = outcomes := Except.ok.inj (hfound.1.symm.trans yields.1)
    have quiet := quiet_each fun outcome hm => quiet_saveAssigned (unchanged outcome hm)
      settings.indent
    exact (quiet.bind fun written => quiet_conclude strict found written).idle files
  · have saves : (each (saveAssigned settings.indent) outcomes).Yields files _ files :=
      yields_each_of_saves_none files fun outcome hm => ⟨outcome.1, by
        simpa [unchanged outcome hm] using saves_saveAssigned settings.indent outcome⟩
    exact yields_assignAll_iff.mpr ⟨yields, saves⟩

theorem assign_again (settings : Settings) {main : Option Path} (restorable : files.Restorable)
    {summary : AssignSummary}
    (passes : ((assign settings main false secondary).run files).answer = .ok summary)
    (strict : Bool) :
    let script := assign settings main strict secondary
    let first := script.run files
    script.Idle first.files ∧
      (script.run first.files).answer =
        first.answer.map fun summary => { summary with rewritten := 0 } := by
  intro script first
  obtain ⟨outcomes, written, after, hfirst⟩ := exists_yields_of_answer passes
  obtain ⟨authority, registry, paths, hc, hr, hpaths, hall, -, hafter⟩ :=
    files_of_yields_assignAll hfirst
  have files_eq : first.files = after := by
    rw [← hfirst.2]
    exact files_assign settings main strict secondary files
  obtain ⟨later, hlater, unchanged, faults⟩ :=
    assigned_again restorable hall (List.Subset.refl paths) settings.indent
  obtain ⟨authority', hc', hr'⟩ := registry_again restorable hc hr
    (paths.filterMap files.fileOf?) settings.indent
  rw [← hafter] at hlater hc'
  have chosen : chosenPaths (main.getD settings.mainFile) secondary after = .ok paths := by
    rw [hafter, chosenPaths_revise, hpaths]
  have assigns := yields_assignments_iff.mpr
    ⟨⟨authority', registry, paths, hc', hr', chosen, hlater⟩, rfl⟩
  obtain ⟨idle, hsecond⟩ := assign_of_unchanged assigns unchanged strict
  rw [files_eq]
  refine ⟨idle, ?_⟩
  rw [answer_assign hsecond, show first.answer = _ from answer_assign hfirst strict, faults]
  split
  · rfl
  · simp [Except.map, List.count_replicate]

end Assign

/-! ## Order -/

section Sorting

variable {settings : Settings} {given paths : List Path} {files after : FileTree}
  {catalogs : List Catalog}

def sortedPaths (settings : Settings) (given : List Path) : List Path :=
  if given.isEmpty then [settings.mainFile] else given

def sortedText? (indent : Nat) (text : String) : Option String :=
  match Catalog.ofText text with
  | .ok catalog =>
      if catalog.sortByName.2 then some (catalog.sortByName.1.text indent) else none
  | .error _ => none

theorem sortedText?_of_ofText {text : String} {catalog : Catalog}
    (h : Catalog.ofText text = .ok catalog) (indent : Nat) :
    sortedText? indent text =
      if catalog.sortByName.2 then some (catalog.sortByName.1.text indent) else none := by
  rw [sortedText?, h]

theorem sortFiles_eq (settings : Settings) (given : List Path) :
    sortFiles settings given =
      (each load (sortedPaths settings given)).bind fun catalogs =>
        (each (sortDocument settings.indent) ((sortedPaths settings given).zip catalogs)).bind
          fun written => done (written.count true) := rfl

theorem saves_sortDocument (indent : Nat) (document : Path × Catalog) :
    (sortDocument indent document).Saves document.1
      (if document.2.sortByName.2 then some (document.2.sortByName.1.text indent) else none) :=
  saves_ite

theorem quiet_sortDocument {document : Path × Catalog}
    (sorted : document.2.sortByName.2 = false) (indent : Nat) :
    (sortDocument indent document).Quiet := by
  obtain ⟨path, catalog⟩ := document
  simp only at sorted
  simp [sortDocument, sorted, Quiet]

theorem reads_of_loaded
    (h : List.Forall₂ (fun path catalog => Catalog.ofFile path (files.read path) = .ok catalog)
      paths catalogs) (indent : Nat) :
    ∀ document ∈ paths.zip catalogs, ∃ text, files.read document.1 = .ok text ∧
      (if document.2.sortByName.2 then some (document.2.sortByName.1.text indent) else none) =
        sortedText? indent text := by
  induction h with
  | nil => exact List.forall_mem_nil _
  | cons first _ ih =>
      obtain ⟨text, hr, ht⟩ := Catalog.exists_ofText_of_ofFile first
      exact List.forall_mem_cons.mpr ⟨⟨text, hr, (sortedText?_of_ofText ht indent).symm⟩, ih⟩

theorem loaded_again (restorable : files.Restorable)
    (h : List.Forall₂ (fun path catalog => Catalog.ofFile path (files.read path) = .ok catalog)
      paths catalogs) {listed : List Path} (subset : paths ⊆ listed) (indent : Nat) :
    List.Forall₂ (fun path catalog => Catalog.ofFile path
        ((files.revise (listed.filterMap files.fileOf?) (sortedText? indent)).read path) =
          .ok catalog)
      paths (catalogs.map fun catalog => catalog.sortByName.1) := by
  induction h with
  | nil => exact .nil
  | @cons path catalog rest others first _ ih =>
      obtain ⟨hpath, hrest⟩ := List.cons_subset.mp subset
      refine .cons ?_ (ih hrest)
      obtain ⟨text, hr, ht⟩ := Catalog.exists_ofText_of_ofFile first
      obtain ⟨number, file, -⟩ := FileTree.read_eq_ok_iff.mp hr
      have listed' : number ∈ listed.filterMap files.fileOf? :=
        List.mem_filterMap.mpr ⟨path, hpath, file⟩
      have sorted : (Operation.apply catalog .sort).Restorable :=
        (restorable path catalog first).apply nofun
      rw [FileTree.read_revise file hr, if_pos listed', sortedText?_of_ofText ht]
      cases hs : catalog.sortByName.2 with
      | false =>
          have unchanged := Catalog.sortByName_of_unchanged hs
          exact (Catalog.ofFile_of_ofText ht path).trans (congrArg Except.ok unchanged.symm)
      | true => exact Catalog.ofFile_of_ofText (sorted.ofText_text indent) path

theorem sortFiles_of_sorted
    (loaded : List.Forall₂ (fun path catalog => Catalog.ofFile path (files.read path) = .ok catalog)
      (sortedPaths settings given) catalogs)
    (sorted : ∀ catalog ∈ catalogs, catalog.sortByName.2 = false) :
    (sortFiles settings given).Idle files ∧ (sortFiles settings given).Yields files 0 files := by
  have kept : ∀ document ∈ (sortedPaths settings given).zip catalogs,
      document.2.sortByName.2 = false :=
    fun document hm => sorted document.2 (List.of_mem_zip hm).2
  have loads := yields_loadAll_iff.mpr ⟨loaded, rfl⟩
  rw [sortFiles_eq]
  constructor
  · refine (quiet_each fun path _ => quiet_load path).bind_idle fun found hfound => ?_
    obtain rfl := Except.ok.inj (hfound.1.symm.trans loads.1)
    have quiet := quiet_each fun document hm => quiet_sortDocument (kept document hm)
      settings.indent
    exact (quiet.bind fun written => show (done (written.count true)).Quiet from trivial).idle _
  · have saves : (each (sortDocument settings.indent)
        ((sortedPaths settings given).zip catalogs)).Yields files _ files :=
      yields_each_of_saves_none files fun document hm => ⟨document.1, by
        simpa [kept document hm] using saves_sortDocument settings.indent document⟩
    exact yields_bind_iff.mpr ⟨catalogs, files, loads, yields_bind_iff.mpr ⟨_, files, saves,
      yields_done_iff.mpr ⟨by simp [List.count_replicate], rfl⟩⟩⟩

theorem sort_again (restorable : files.Restorable) {count : Nat}
    (passes : ((sortFiles settings given).run files).answer = .ok count) :
    let script := sortFiles settings given
    let first := script.run files
    script.Idle first.files ∧ (script.run first.files).answer = .ok 0 := by
  intro script first
  have hfirst : script.Yields files count first.files := ⟨passes, rfl⟩
  simp only [script, sortFiles_eq, yields_bind_iff, yields_loadAll_iff, yields_done_iff] at hfirst
  obtain ⟨catalogs, _, ⟨loaded, rfl⟩, written, after, saved, -, hafter⟩ := hfirst
  rw [← files.revise_nil (sortedText? settings.indent)] at saved
  obtain ⟨-, hrevised⟩ := revise_of_yields_each
    (fun document _ => saves_sortDocument settings.indent document)
    (reads_of_loaded loaded settings.indent) saved
  rw [List.map_fst_zip (Nat.le_of_eq loaded.length_eq), List.nil_append] at hrevised
  have again := loaded_again restorable loaded (List.Subset.refl _) settings.indent
  rw [← hrevised, hafter] at again
  have sorted : ∀ catalog ∈ catalogs.map fun catalog => catalog.sortByName.1,
      catalog.sortByName.2 = false := by
    rw [List.forall_mem_map]
    exact fun catalog _ => by rw [Catalog.sortByName_sortByName]
  obtain ⟨idle, yields⟩ := sortFiles_of_sorted again sorted
  exact ⟨idle, yields.1⟩

end Sorting

/-! ## Fields -/

section Carry

variable {settings : Settings} {old : Path} {new : Option Path} {field : Option String}
  {files after : FileTree} {report : CarryReport}

def saveCarried (indent : Nat) (path : Path) (field : String) (catalog : Catalog) (report : CarryReport) :
    Script CarryReport :=
  if 0 < report.carried then
    (save path catalog indent).bind fun _ =>
      note (.carryComplete path field report.carried report.unmatched) (done report)
  else note (.carryComplete path field report.carried report.unmatched) (done report)

theorem carryField_eq (settings : Settings) (old : Path) (new : Option Path)
    (field : Option String) :
    carryField settings old new field =
      let path := new.getD settings.mainFile
      let field := field.getD settings.carryField
      (load old).bind fun source => (load path).bind fun target =>
        (noteAll ((source.carry target field).events.map .event)).bind fun _ =>
          (orFailRecord s!"failed to carry {field} from {old} into {path}"
            (source.carry target field).answer).bind
              (saveCarried settings.indent path field (source.carry target field).catalog) := rfl

theorem yields_saveCarried_iff {indent : Nat} {path : Path} {field : String} {catalog : Catalog}
    {result : CarryReport} :
    (saveCarried indent path field catalog report).Yields files result after ↔
      result = report ∧
        (if 0 < report.carried then files.write path (catalog.text indent) else .ok files) =
          .ok after := by
  unfold saveCarried
  split
  · simp only [yields_bind_iff, yields_save_iff, yields_note_iff, yields_done_iff]
    constructor
    · rintro ⟨_, middle, hw, rfl, rfl⟩
      exact ⟨rfl, hw⟩
    · rintro ⟨rfl, hw⟩
      exact ⟨(), after, hw, rfl, rfl⟩
  · simp [eq_comm]

theorem yields_carryField_iff :
    (carryField settings old new field).Yields files report after ↔
      let path := new.getD settings.mainFile
      let field := field.getD settings.carryField
      ∃ source target, Catalog.ofFile old (files.read old) = .ok source ∧
        Catalog.ofFile path (files.read path) = .ok target ∧
        (source.carry target field).answer = .ok report ∧
        (if 0 < report.carried then
          files.write path ((source.carry target field).catalog.text settings.indent)
        else .ok files) = .ok after := by
  simp only [carryField_eq, yields_bind_iff, yields_load_iff, yields_noteAll_iff,
    yields_orFailRecord_iff, yields_saveCarried_iff]
  constructor
  · rintro ⟨source, _, ⟨hs, rfl⟩, target, _, ⟨ht, rfl⟩, _, _, rfl, _, _, ⟨hr, rfl⟩, rfl, hw⟩
    exact ⟨source, target, hs, ht, hr, hw⟩
  · rintro ⟨source, target, hs, ht, hr, hw⟩
    exact ⟨source, files, ⟨hs, rfl⟩, target, files, ⟨ht, rfl⟩, (), files, rfl, report, files,
      ⟨hr, rfl⟩, rfl, hw⟩

/-- Once a catalog is written to a file, every path that leads to this file loads it, and every other
path loads what it did. -/
theorem ofFile_of_write {path other : Path} {number home : Nat} {catalog held : Catalog}
    {indent : Nat} (restorable : catalog.Restorable) (reads : files.Reads path)
    (file : files.fileOf? path = some number)
    (saved : files.write path (catalog.text indent) = .ok after)
    (fileOther : files.fileOf? other = some home)
    (loaded : Catalog.ofFile other (files.read other) = .ok held) :
    Catalog.ofFile other (after.read other) = .ok (if home = number then catalog else held) := by
  obtain ⟨text, hr, ht⟩ := Catalog.exists_ofText_of_ofFile loaded
  rw [FileTree.eq_revise_of_write reads file saved, FileTree.read_revise fileOther hr]
  by_cases same : home = number
  · rw [if_pos (List.mem_singleton.mpr same), if_pos same]
    exact Catalog.ofFile_of_ofText (restorable.ofText_text indent) other
  · rw [if_neg (fun hm => same (List.mem_singleton.mp hm)), if_neg same]
    exact Catalog.ofFile_of_ofText ht other

theorem eq_of_fileOf? {path other : Path} {number : Nat} {catalog held : Catalog}
    (file : files.fileOf? path = some number) (fileOther : files.fileOf? other = some number)
    (loaded : Catalog.ofFile path (files.read path) = .ok catalog)
    (loadedOther : Catalog.ofFile other (files.read other) = .ok held) : held = catalog := by
  obtain ⟨text, hr, ht⟩ := Catalog.exists_ofText_of_ofFile loaded
  obtain ⟨textOther, hrOther, htOther⟩ := Catalog.exists_ofText_of_ofFile loadedOther
  rw [FileTree.read_of_fileOf? file] at hr
  rw [FileTree.read_of_fileOf? fileOther, hr] at hrOther
  obtain rfl := Except.ok.inj hrOther
  exact Except.ok.inj (htOther.symm.trans ht)

/-- A run that wrote reads back what it wrote, and from there carries the same values; where both
paths lead to one file, it had taken only values that were there. -/
theorem carry_again (restorable : files.Restorable)
    (h : (carryField settings old new field).Yields files report after) :
    (carryField settings old new field).Yields after report after := by
  obtain ⟨source, target, hsource, htarget, hreport, hwrite⟩ := yields_carryField_iff.mp h
  by_cases carried : 0 < report.carried
  · rw [if_pos carried] at hwrite
    refine yields_carryField_iff.mpr ?_
    generalize new.getD settings.mainFile = path at *
    generalize field.getD settings.carryField = field at *
    have result : (Operation.apply target (.carry source field)).Restorable :=
      (restorable path target htarget).apply fun catalog hm => by
        obtain rfl := List.mem_singleton.mp hm
        exact restorable old catalog hsource
    obtain ⟨text, hr, -⟩ := Catalog.exists_ofText_of_ofFile htarget
    obtain ⟨held, hheld, -⟩ := Catalog.exists_ofText_of_ofFile hsource
    obtain ⟨number, file, -⟩ := FileTree.read_eq_ok_iff.mp hr
    obtain ⟨home, fileOld, -⟩ := FileTree.read_eq_ok_iff.mp hheld
    have found := ofFile_of_write result ⟨text, hr⟩ file hwrite file htarget
    have kept := ofFile_of_write result ⟨text, hr⟩ file hwrite fileOld hsource
    have again := FileTree.write_again ⟨text, hr⟩ hwrite
    rw [if_pos rfl] at found
    by_cases same : home = number
    · subst same
      obtain rfl : source = target := eq_of_fileOf? file fileOld htarget hsource
      rw [if_pos rfl] at kept
      simp only [Operation.apply, Catalog.catalog_carry_self] at kept found
      exact ⟨source, source, kept, found, hreport, by rw [if_pos carried, again]⟩
    · rw [if_neg same] at kept
      refine ⟨source, _, kept, found, ?_, ?_⟩
      · rw [Operation.apply, Catalog.carry_carry, hreport]
      · rw [if_pos carried, Operation.apply, Catalog.carry_carry]
        exact again
  · rw [if_neg carried] at hwrite
    cases hwrite
    exact h

end Carry

/-! ## All of them -/

/-- Run again on the files that it left, a command that went through leaves them as they are: uids
and order need no write then, the uids are at fault in as many records as before, and carrying
reports the same. What `strict` makes of conflicts does not count against a run, so whether one went
through is said of the run without it. -/
theorem run_again (settings : Settings) {files : FileTree}
    (floats : ∀ path catalog, Catalog.ofFile path (files.read path) = .ok catalog →
      ∀ x ∈ catalog.floats, Json.ReadsBack x) :
    (∀ main strict secondary summary,
      ((assign settings main false secondary).run files).answer = .ok summary →
      let script := assign settings main strict secondary
      let first := script.run files
      let second := script.run first.files
      second.files = first.files ∧ script.Idle first.files ∧
        second.answer = first.answer.map fun summary => { summary with rewritten := 0 }) ∧
    (∀ given count, ((sortFiles settings given).run files).answer = .ok count →
      let script := sortFiles settings given
      let first := script.run files
      let second := script.run first.files
      second.files = first.files ∧ script.Idle first.files ∧ second.answer = .ok 0) ∧
    ∀ old new field report, ((carryField settings old new field).run files).answer = .ok report →
      let script := carryField settings old new field
      let first := script.run files
      let second := script.run first.files
      second.files = first.files ∧ second.answer = .ok report := by
  have restorable := FileTree.restorable_of_floats floats
  refine ⟨fun main strict secondary summary passes => ?_, fun given count passes => ?_,
    fun old new field report passes => ?_⟩
  · obtain ⟨idle, answer⟩ := assign_again settings restorable passes strict
    exact ⟨idle.files_run, idle, answer⟩
  · obtain ⟨idle, answer⟩ := sort_again restorable passes
    exact ⟨idle.files_run, idle, answer⟩
  · obtain ⟨answer, left⟩ := carry_again restorable ⟨passes, rfl⟩
    exact ⟨left, answer⟩

theorem floats_goFiles (path : Path) (catalog : Catalog)
    (h : Catalog.ofFile path (goFiles.read path) = .ok catalog) :
    ∀ x ∈ catalog.floats, Json.ReadsBack x := by
  obtain ⟨text, hr, ht⟩ := Catalog.exists_ofText_of_ofFile h
  have hm := FileTree.mem_of_read_ofTexts hr
  have listed : catalog = onlyGo ∨ catalog = twoGos ∨ catalog = goThenChess := by
    simp only [List.map_cons, List.map_nil, List.mem_cons, List.not_mem_nil, or_false] at hm
    rcases hm with rfl | rfl | rfl
    · exact .inl (Except.ok.inj (ht.symm.trans ofText_onlyGo))
    · exact .inr (.inl (Except.ok.inj (ht.symm.trans ofText_twoGos)))
    · exact .inr (.inr (Except.ok.inj (ht.symm.trans ofText_goThenChess)))
  rcases listed with rfl | rfl | rfl
  · simp [show onlyGo.floats = [] from rfl]
  · simp [show twoGos.floats = [] from rfl]
  · simp [show goThenChess.floats = [] from rfl]

/-- The authority is among the files that get uids, the file out of order is sorted, and the name of
Go is carried into the file that it comes from. -/
theorem run_again_goFiles :
    let secondary : List Path := ["old.json", "main.json", "old.json"]
    let assigns := assign .default (some "main.json") true secondary
    let sorts := sortFiles .default ["games.json"]
    let carries := carryField .default "main.json" (some "main.json") (some "name")
    ((assign .default (some "main.json") false secondary).run goFiles).answer = .ok ⟨2, 2⟩ ∧
      (assigns.run (assigns.run goFiles).files).files = (assigns.run goFiles).files ∧
      (sorts.run goFiles).answer = .ok 1 ∧
      (sorts.run (sorts.run goFiles).files).files = (sorts.run goFiles).files ∧
      (carries.run goFiles).answer = .ok ⟨1, 0⟩ ∧
      (carries.run (carries.run goFiles).files).answer = .ok ⟨1, 0⟩ := by
  intro secondary assigns sorts carries
  have passes : ((assign .default (some "main.json") false secondary).run goFiles).answer =
      .ok ⟨2, 2⟩ := by
    rw [(exists_run_assign .default (some "main.json") writesBack_goFiles load_goFiles_main
      ofCatalog_onlyGo (List.cons_ne_nil _ _) assignFile_goFiles false).2]
    rfl
  have sorted : (sorts.run goFiles).answer = .ok 1 := by
    have found : goFiles.read "games.json" = .ok (goThenChess.text 2) := by decide +kernel
    have loads : Catalog.ofFile "games.json" (goFiles.read "games.json") = .ok goThenChess := by
      rw [found]
      exact Catalog.ofFile_of_ofText ofText_goThenChess _
    have unordered : goThenChess.sortByName.2 = true := by decide +kernel
    obtain ⟨after, hw⟩ := writesBack_goFiles "games.json" ⟨_, found⟩
      (goThenChess.sortByName.1.text Settings.default.indent)
    have saves : (each (sortDocument Settings.default.indent) [("games.json", goThenChess)]).Yields
        goFiles [true] after :=
      yields_each_cons_iff.mpr ⟨true, after, [],
        (saves_sortDocument _ _ _ _ _).mpr (by simp [unordered, hw]), by simp [each], rfl⟩
    have yields : sorts.Yields goFiles 1 after :=
      yields_bind_iff.mpr ⟨[goThenChess], goFiles,
        yields_loadAll_iff.mpr ⟨.cons loads .nil, rfl⟩,
        yields_bind_iff.mpr ⟨[true], after, saves, yields_done_iff.mpr ⟨rfl, rfl⟩⟩⟩
    exact yields.1
  have carried : (carries.run goFiles).answer = .ok ⟨1, 0⟩ := by
    obtain ⟨after, hw⟩ := writesBack_goFiles "main.json" ⟨_, read_goFiles_main⟩
      ((onlyGo.carry onlyGo "name").catalog.text Settings.default.indent)
    have yields : carries.Yields goFiles ⟨1, 0⟩ after :=
      yields_carryField_iff.mpr ⟨onlyGo, onlyGo, load_goFiles_main, load_goFiles_main, by rfl, hw⟩
    exact yields.1
  obtain ⟨ofAssign, ofSort, ofCarry⟩ := run_again .default floats_goFiles
  exact ⟨passes, (ofAssign _ true _ _ passes).1, sorted, (ofSort _ _ sorted).1, carried,
    (ofCarry _ _ _ _ carried).2⟩

end Command

end GameCatalog
