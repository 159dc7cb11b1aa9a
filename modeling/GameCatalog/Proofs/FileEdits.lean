import GameCatalog.Proofs.FileTree

/-!
# New texts in some files

Files that were read are given new texts in place, each a function of the text that was read. What
that leaves does not depend on the order of the writes, nor on how often a file is written.
-/

namespace GameCatalog

def File.edit (change : String → Option String) : File → File
  | ⟨.text text, readOnly⟩ => ⟨.text ((change text).getD text), readOnly⟩
  | ⟨.bytes held, readOnly⟩ => ⟨.bytes held, readOnly⟩

theorem File.shape_edit (change : String → Option String) (file : File) :
    (file.edit change).shape = file.shape := by
  obtain ⟨contents, readOnly⟩ := file
  cases contents <;> rfl

namespace FileTree

def revise (tree : FileTree) (numbers : List Nat) (change : String → Option String) : FileTree :=
  { tree with files := tree.files.mapIdx fun number file =>
      if number ∈ numbers then file.edit change else file }

variable {tree : FileTree} {path : Path} {number : Nat} {text : String} {numbers : List Nat}
  {change : String → Option String}

theorem eq_revise_iff {after : FileTree} :
    after = tree.revise numbers change ↔
      after.entries = tree.entries ∧ after.here = tree.here ∧
        ∀ number, after.files[number]? = (tree.files[number]?).map fun file =>
          if number ∈ numbers then file.edit change else file := by
  constructor
  · rintro rfl
    exact ⟨rfl, rfl, fun number => by simp [revise]⟩
  · rintro ⟨entries, here, files⟩
    obtain ⟨_, _, _⟩ := after
    obtain rfl := entries
    obtain rfl := here
    rw [revise, FileTree.mk.injEq]
    exact ⟨rfl, List.ext_getElem? fun number => by simpa using files number, rfl⟩

theorem files_revise (number : Nat) :
    (tree.revise numbers change).files[number]? = (tree.files[number]?).map fun file =>
      if number ∈ numbers then file.edit change else file :=
  (eq_revise_iff.mp rfl).2.2 number

@[simp] theorem revise_nil (tree : FileTree) (change : String → Option String) :
    tree.revise [] change = tree :=
  (eq_revise_iff.mpr ⟨rfl, rfl, fun number => by simp⟩).symm

/-- Only which files are listed matters. -/
theorem revise_congr {others : List Nat} (h : ∀ number, number ∈ numbers ↔ number ∈ others) :
    tree.revise numbers change = tree.revise others change := by
  simp only [revise, h]

theorem alike_revise (tree : FileTree) (numbers : List Nat) (change : String → Option String) :
    tree.Alike (tree.revise numbers change) := by
  refine ⟨rfl, rfl, List.ext_getElem? fun number => ?_⟩
  rw [List.getElem?_map, List.getElem?_map, files_revise, Option.map_map]
  refine congrArg (Option.map · tree.files[number]?) (funext fun file => ?_)
  simp only [Function.comp_apply, apply_ite File.shape, File.shape_edit, ite_self]

theorem contents_revise (h : tree.contents number = .ok text) :
    (tree.revise numbers change).contents number =
      .ok (if number ∈ numbers then (change text).getD text else text) := by
  obtain ⟨readOnly, held⟩ := contents_eq_ok_iff.mp h
  refine contents_eq_ok_iff.mpr ⟨readOnly, ?_⟩
  rw [files_revise, held, Option.map_some]
  split <;> rfl

/-- A path reads the new text of its file. -/
theorem read_revise (file : tree.fileOf? path = some number) (h : tree.read path = .ok text) :
    (tree.revise numbers change).read path =
      .ok (if number ∈ numbers then (change text).getD text else text) := by
  rw [read_of_fileOf? file] at h
  rw [(alike_revise tree numbers change).fileOf?] at file
  rw [read_of_fileOf? file, contents_revise h]

/-- Only the file itself matters when one more is listed. -/
theorem eq_revise_cons_iff {after : FileTree} (alike : after.Alike tree)
    (others : ∀ other ≠ number,
      after.files[other]? = (tree.revise numbers change).files[other]?) :
    after = tree.revise (number :: numbers) change ↔
      after.files[number]? = (tree.files[number]?).map (File.edit change) := by
  rw [eq_revise_iff]
  constructor
  · rintro ⟨-, -, files⟩
    simpa using files number
  · refine fun here => ⟨alike.entries, alike.here, fun other => ?_⟩
    by_cases same : other = number
    · simpa [same] using here
    · simp [others other same, files_revise, same]

/-- Putting the new text of a file is making the change there too. -/
theorem revise_of_write {after : FileTree} {new : String} (file : tree.fileOf? path = some number)
    (held : tree.contents number = .ok text) (hc : change text = some new)
    (saved : (tree.revise numbers change).write path new = .ok after) :
    after = tree.revise (number :: numbers) change := by
  have alike := alike_revise tree numbers change
  have reads : (tree.revise numbers change).Reads path :=
    Reads.alike ⟨text, (read_of_fileOf? file).trans held⟩ alike
  obtain ⟨readOnly, held⟩ := contents_eq_ok_iff.mp held
  obtain ⟨found, old, file', revised, rfl⟩ := exists_ofText_of_write reads saved
  obtain rfl : number = found := Option.some.inj (file.symm.trans (alike.fileOf? path ▸ file'))
  have inside := (List.getElem?_eq_some_iff.mp revised).1
  obtain rfl : readOnly = false := by
    rw [files_revise, held, Option.map_some] at revised
    split at revised <;> exact (File.mk.inj (Option.some.inj revised)).2
  refine (eq_revise_cons_iff (alike.trans (alike_setText revised new)).symm fun other ne => ?_).mpr ?_
  · exact List.getElem?_set_ne ne.symm
  · rw [held, Option.map_some, File.edit, hc]
    exact List.getElem?_set_self inside

theorem revise_cons_of_none (held : tree.contents number = .ok text) (hc : change text = none) :
    tree.revise (number :: numbers) change = tree.revise numbers change := by
  obtain ⟨readOnly, held⟩ := contents_eq_ok_iff.mp held
  refine ((eq_revise_cons_iff (alike_revise tree numbers change).symm fun _ _ => rfl).mpr ?_).symm
  rw [files_revise, held, Option.map_some, Option.map_some, File.edit, hc, Option.getD_none, ite_self]

/-! ## One file -/

theorem eq_revise_of_write {after : FileTree} {new : String} (reads : tree.Reads path)
    (file : tree.fileOf? path = some number) (saved : tree.write path new = .ok after) :
    after = tree.revise [number] fun _ => some new := by
  obtain ⟨text, hr⟩ := reads
  rw [read_of_fileOf? file] at hr
  rw [← tree.revise_nil fun _ => some new] at saved
  exact revise_of_write file hr rfl saved

theorem write_again {after : FileTree} {new : String} (reads : tree.Reads path)
    (saved : tree.write path new = .ok after) : after.write path new = .ok after := by
  have alike := alike_of_write reads saved
  obtain ⟨number, old, file, held, rfl⟩ := exists_ofText_of_write reads saved
  have inside := (List.getElem?_eq_some_iff.mp held).1
  rw [write_of_fileOf? (alike.fileOf? path ▸ file) (List.getElem?_set_self inside)]
  simp [setText, File.ofText]

end FileTree

end GameCatalog
