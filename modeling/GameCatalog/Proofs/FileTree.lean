import GameCatalog.Proofs.Except
import GameCatalog.Proofs.Walks

/-!
# Writing a file that was read

Two trees are alike when they differ in the texts of files only. A path leads to the same in both,
and where a text can be read, writing puts another text in its file, which leaves the tree alike.
-/

namespace GameCatalog

def Contents.shape : Contents → Contents
  | .text _ => .text ""
  | .bytes held => .bytes held

def File.shape (file : File) : File := { file with contents := file.contents.shape }

namespace FileTree

/-- The same names stand for the same, and files that are no text have the same bytes. -/
structure Alike (a b : FileTree) : Prop where
  entries : a.entries = b.entries
  here : a.here = b.here
  files : a.files.map File.shape = b.files.map File.shape

theorem Alike.refl (tree : FileTree) : tree.Alike tree := ⟨rfl, rfl, rfl⟩

theorem Alike.symm {a b : FileTree} (h : a.Alike b) : b.Alike a :=
  ⟨h.entries.symm, h.here.symm, h.files.symm⟩

theorem Alike.trans {a b c : FileTree} (h : a.Alike b) (h' : b.Alike c) : a.Alike c :=
  ⟨h.entries.trans h'.entries, h.here.trans h'.here, h.files.trans h'.files⟩

def Reads (tree : FileTree) (path : Path) : Prop := ∃ text, tree.read path = .ok text

/-- Where a text can be read, any text can be written. -/
def WritesBack (tree : FileTree) : Prop :=
  ∀ path, tree.Reads path → ∀ text, ∃ after, tree.write path text = .ok after

def fileOf? (tree : FileTree) (path : Path) : Option Nat :=
  match tree.resolve false path with
  | .ok (.file number) => some number
  | _ => none

def SameFile (tree : FileTree) (path other : Path) : Prop :=
  ∃ number, tree.fileOf? path = some number ∧ tree.fileOf? other = some number

variable {tree : FileTree} {path : Path} {number : Nat} {text : String}

theorem fileOf?_eq_some_iff :
    tree.fileOf? path = some number ↔ tree.resolve false path = .ok (.file number) := by
  unfold fileOf?
  split
  next found h => simp [h]
  next h => simpa using h number

theorem contents_eq_ok_iff :
    tree.contents number = .ok text ↔
      ∃ readOnly, tree.files[number]? = some ⟨.text text, readOnly⟩ := by
  unfold contents
  split
  next h => simp [h]
  next held readOnly h => simp [h]
  next h => simp [h]

theorem read_eq_ok_iff :
    tree.read path = .ok text ↔
      ∃ number, tree.fileOf? path = some number ∧ tree.contents number = .ok text := by
  simp only [fileOf?_eq_some_iff, read]
  cases tree.resolve false path with
  | error fault => simp
  | ok arrival => cases arrival <;> simp

theorem read_of_fileOf? (h : tree.fileOf? path = some number) :
    tree.read path = tree.contents number := by
  rw [read, fileOf?_eq_some_iff.mp h]
  rfl

/-! ## Trees that are alike -/

section Alike

variable {a b : FileTree}

theorem Alike.resolve (h : a.Alike b) (writing : Bool) (path : Path) :
    a.resolve writing path = b.resolve writing path := by
  rw [FileTree.resolve, FileTree.resolve, h.entries, h.here]

theorem Alike.fileOf? (h : a.Alike b) (path : Path) : a.fileOf? path = b.fileOf? path := by
  rw [FileTree.fileOf?, FileTree.fileOf?, h.resolve]

theorem Alike.list (h : a.Alike b) (path : Path) : a.list path = b.list path := by
  rw [FileTree.list, FileTree.list, h.resolve, h.entries]

/-- Where a path leads to the same, what it reads is decided by the file that it leads to. -/
theorem Alike.read (h : a.Alike b)
    (same : ∀ number, a.fileOf? path = some number → a.files[number]? = b.files[number]?) :
    a.read path = b.read path := by
  rw [FileTree.read, FileTree.read, ← h.resolve]
  cases resolved : a.resolve false path with
  | error fault => rfl
  | ok arrival =>
      cases arrival with
      | directory place | free place => rfl
      | file number =>
          have held := same number (fileOf?_eq_some_iff.mpr resolved)
          simp only [ok_bind, contents, held]

theorem Alike.exists_text (h : a.Alike b) {readOnly : Bool}
    (held : a.files[number]? = some ⟨.text text, readOnly⟩) :
    ∃ other, b.files[number]? = some ⟨.text other, readOnly⟩ := by
  have same : (a.files.map File.shape)[number]? = (b.files.map File.shape)[number]? := by
    rw [h.files]
  rw [List.getElem?_map, List.getElem?_map, held] at same
  obtain ⟨⟨contents, locked⟩, found, shape⟩ := Option.map_eq_some_iff.mp same.symm
  cases contents with
  | bytes bytes => cases shape
  | text other =>
      cases shape
      exact ⟨other, found⟩

theorem Reads.alike (hr : a.Reads path) (h : a.Alike b) : b.Reads path := by
  obtain ⟨text, hr⟩ := hr
  obtain ⟨number, file, held⟩ := read_eq_ok_iff.mp hr
  obtain ⟨readOnly, held⟩ := contents_eq_ok_iff.mp held
  obtain ⟨other, found⟩ := h.exists_text held
  exact ⟨other, read_eq_ok_iff.mpr
    ⟨number, h.fileOf? path ▸ file, contents_eq_ok_iff.mpr ⟨readOnly, found⟩⟩⟩

end Alike

/-! ## Writing in place -/

/-- What can be read is named for writing by the same path. -/
theorem resolve_write (h : tree.fileOf? path = some number) :
    tree.resolve true path = .ok (.file number) := by
  rw [fileOf?_eq_some_iff] at h
  unfold resolve at h ⊢
  split at h
  · cases h
  · exact (walk_eq_ok_iff.mp h).write.walk_eq

theorem write_of_fileOf? (h : tree.fileOf? path = some number) {file : File}
    (held : tree.files[number]? = some file) (text : String) :
    tree.write path text =
      if file.readOnly then .error .permissionDenied else .ok (tree.setText number text) := by
  rw [write, resolve_write h]
  simp [held]

theorem eq_setText_of_write {after : FileTree} (h : tree.fileOf? path = some number)
    (saved : tree.write path text = .ok after) :
    after = tree.setText number text ∧
      ∃ contents, tree.files[number]? = some ⟨contents, false⟩ := by
  cases held : tree.files[number]? with
  | none =>
      rw [write, resolve_write h] at saved
      simp [held] at saved
  | some file =>
      rw [write_of_fileOf? h held] at saved
      split at saved
      next => cases saved
      next writable =>
        obtain ⟨contents, readOnly⟩ := file
        simp only [Bool.not_eq_true] at writable
        exact ⟨(Except.ok.inj saved).symm, contents, by rw [writable]⟩

theorem alike_setText {old : String} (held : tree.files[number]? = some (.ofText old))
    (text : String) : tree.Alike (tree.setText number text) := by
  refine ⟨rfl, rfl, List.ext_getElem? fun other => ?_⟩
  rw [setText, List.getElem?_map, List.getElem?_map, List.getElem?_set]
  split
  next same =>
    subst same
    have inside := (List.getElem?_eq_some_iff.mp held).1
    rw [if_pos inside, held]
    rfl
  next => rfl

theorem exists_ofText_of_write {after : FileTree} (reads : tree.Reads path)
    (saved : tree.write path text = .ok after) :
    ∃ number old, tree.fileOf? path = some number ∧
      tree.files[number]? = some (.ofText old) ∧ after = tree.setText number text := by
  obtain ⟨old, hr⟩ := reads
  obtain ⟨number, file, held⟩ := read_eq_ok_iff.mp hr
  obtain ⟨readOnly, held⟩ := contents_eq_ok_iff.mp held
  obtain ⟨written, contents, found⟩ := eq_setText_of_write file saved
  obtain ⟨rfl, rfl⟩ := File.mk.inj (Option.some.inj (held.symm.trans found))
  exact ⟨number, old, file, held, written⟩

theorem alike_of_write {after : FileTree} (reads : tree.Reads path)
    (saved : tree.write path text = .ok after) : tree.Alike after := by
  obtain ⟨number, old, -, held, rfl⟩ := exists_ofText_of_write reads saved
  exact alike_setText held text

theorem WritesBack.alike {a b : FileTree} (hw : a.WritesBack) (h : a.Alike b) :
    b.WritesBack := by
  intro path reads text
  obtain ⟨after, saved⟩ := hw path (reads.alike h.symm) text
  obtain ⟨number, old, file, held, -⟩ := exists_ofText_of_write (reads.alike h.symm) saved
  obtain ⟨other, found⟩ := h.exists_text held
  rw [h.fileOf?] at file
  exact ⟨_, write_of_fileOf? file found text⟩

def ofTexts (texts : List (String × String)) : FileTree where
  entries := texts.mapIdx fun number named => ([Text.utf8 named.1], .file number)
  files := texts.map fun named => .ofText named.2
  here := []

/-- A tree can be written back when none of its files is read-only. -/
theorem writesBack_of_writable (writable : ∀ file ∈ tree.files, file.readOnly = false) :
    tree.WritesBack := by
  rintro path ⟨old, hr⟩ text
  obtain ⟨number, file, held⟩ := read_eq_ok_iff.mp hr
  obtain ⟨readOnly, held⟩ := contents_eq_ok_iff.mp held
  obtain rfl : readOnly = false := writable _ (List.mem_of_getElem? held)
  exact ⟨_, write_of_fileOf? file held text⟩

theorem mem_of_read_ofTexts {texts : List (String × String)}
    (h : (ofTexts texts).read path = .ok text) : text ∈ texts.map Prod.snd := by
  obtain ⟨number, -, held⟩ := read_eq_ok_iff.mp h
  obtain ⟨readOnly, held⟩ := contents_eq_ok_iff.mp held
  obtain ⟨named, hm, he⟩ := List.mem_map.mp (List.mem_of_getElem? held)
  cases he
  exact List.mem_map_of_mem hm

theorem writesBack_ofTexts (texts : List (String × String)) : (ofTexts texts).WritesBack :=
  writesBack_of_writable (List.forall_mem_map.mpr fun _ _ => rfl)

end FileTree

end GameCatalog
