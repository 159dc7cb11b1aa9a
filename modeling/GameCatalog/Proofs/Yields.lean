import GameCatalog.Proofs.FileEdits
import GameCatalog.Proofs.Script
import Mathlib.Data.List.Forall2

/-!
# Runs that succeed

What it takes for a run to succeed, and what it yields and leaves then, is read off the script step
by step. Steps that write nothing leave the files as they are; a list of files that are written one
after the other is left with the new texts of all of them.
-/

namespace GameCatalog

namespace Script

/-- On `files` the script succeeds with `value`, and leaves `after`. -/
def Yields (script : Script α) (files : FileTree) (value : α) (after : FileTree) : Prop :=
  (script.run files).answer = .ok value ∧ (script.run files).files = after

variable {files after : FileTree} {value : α} {result : β}

/-! ## Steps -/

@[simp] theorem yields_done_iff {found : α} :
    (done found).Yields files value after ↔ found = value ∧ files = after := by
  simp [Yields]

@[simp] theorem not_yields_fail {failure : Failure} :
    ¬(fail failure : Script α).Yields files value after := by
  simp [Yields]

@[simp] theorem yields_note_iff {notice : Notice} {next : Script α} :
    (note notice next).Yields files value after ↔ next.Yields files value after := Iff.rfl

theorem yields_bind_iff {script : Script α} {f : α → Script β} :
    (script.bind f).Yields files result after ↔
      ∃ value middle, script.Yields files value middle ∧ (f value).Yields middle result after := by
  simp only [Yields, run_bind, Run.andThen]
  cases h : (script.run files).answer with
  | error failure => simp
  | ok value => simp

@[simp] theorem yields_orFail_iff {context : String} {answer : Except CatalogFault α} :
    (orFail context answer).Yields files value after ↔ answer = .ok value ∧ files = after := by
  cases answer <;> simp [orFail]

@[simp] theorem yields_orFailRecord_iff {context : String} {answer : Except RecordFault α} :
    (orFailRecord context answer).Yields files value after ↔
      answer = .ok value ∧ files = after := by
  cases answer <;> simp [orFailRecord]

@[simp] theorem yields_noteAll_iff {notices : List Notice} {nothing : Unit} :
    (noteAll notices).Yields files nothing after ↔ files = after := by
  induction notices with
  | nil => simp [noteAll]
  | cons notice rest ih => exact ih

@[simp] theorem yields_load_iff {path : Path} {catalog : Catalog} :
    (load path).Yields files catalog after ↔
      Catalog.ofFile path (files.read path) = .ok catalog ∧ files = after :=
  yields_orFail_iff

theorem yields_save_iff {path : Path} {catalog : Catalog} {indent : Nat} {nothing : Unit} :
    (save path catalog indent).Yields files nothing after ↔
      files.write path (catalog.text indent) = .ok after := by
  simp only [Yields, save, run]
  cases files.write path (catalog.text indent) <;> simp

/-- A script that writes nothing leaves the files as they are. -/
theorem Quiet.files_run {script : Script α} (h : script.Quiet) (files : FileTree) :
    (script.run files).files = files := by
  induction script with
  | done | fail => rfl
  | note notice next ih | print text next ih => exact ih h
  | read path next ih | list path next ih => exact ih _ (h _)
  | write => exact h.elim

/-! ## Lists -/

section Lists

variable {f : α → Script β} {items : List α} {results : List β}

theorem yields_each_cons_iff {item : α} {rest : List α} :
    (each f (item :: rest)).Yields files results after ↔
      ∃ first middle others, (f item).Yields files first middle ∧
        (each f rest).Yields middle others after ∧ results = first :: others := by
  have unfolded : each f (item :: rest) =
      (f item).bind fun first => (each f rest).bind fun others => done (first :: others) := rfl
  simp only [unfolded, yields_bind_iff, yields_done_iff]
  constructor
  · rintro ⟨first, middle, hf, others, last, ho, he, rfl⟩
    exact ⟨first, middle, others, hf, ho, he.symm⟩
  · rintro ⟨first, middle, others, hf, ho, he⟩
    exact ⟨first, middle, hf, others, after, ho, he.symm, rfl⟩

/-- Where each script only looks at the files, the list yields what each of them yields. -/
theorem yields_each_iff {P : α → β → Prop}
    (h : ∀ item result after, (f item).Yields files result after ↔ P item result ∧ files = after) :
    (each f items).Yields files results after ↔ List.Forall₂ P items results ∧ files = after := by
  induction items generalizing results after with
  | nil => simp [each, eq_comm]
  | cons item rest ih =>
      simp only [yields_each_cons_iff, h, List.forall₂_cons_left_iff]
      constructor
      · rintro ⟨first, middle, others, ⟨hp, rfl⟩, ho, rfl⟩
        obtain ⟨hall, he⟩ := ih.mp ho
        exact ⟨⟨first, others, hp, hall, rfl⟩, he⟩
      · rintro ⟨⟨first, others, hp, hall, rfl⟩, he⟩
        exact ⟨first, files, others, ⟨hp, rfl⟩, ih.mpr ⟨hall, he⟩, rfl⟩

theorem yields_loadAll_iff {paths : List Path} {catalogs : List Catalog} :
    (each load paths).Yields files catalogs after ↔
      List.Forall₂ (fun path catalog => Catalog.ofFile path (files.read path) = .ok catalog)
        paths catalogs ∧ files = after :=
  yields_each_iff fun _ _ _ => yields_load_iff

end Lists

/-! ## Files written one after the other -/

/-- The script writes the new text of a file, if there is one, and tells whether it did. -/
def Saves (script : Script Bool) (path : Path) (new? : Option String) : Prop :=
  ∀ files result after, script.Yields files result after ↔
    result = new?.isSome ∧ new?.elim (.ok files) (files.write path) = .ok after

theorem saves_ite {save? : Prop} [Decidable save?] {path : Path} {catalog : Catalog}
    {indent : Nat} {saved kept : Notice} :
    (if save? then (save path catalog indent).bind fun _ => note saved (done true)
      else note kept (done false)).Saves path
        (if save? then some (catalog.text indent) else none) := by
  intro files result after
  split
  · simp only [yields_bind_iff, yields_save_iff, yields_note_iff, yields_done_iff,
      Option.isSome_some, Option.elim_some]
    constructor
    · rintro ⟨_, middle, hw, rfl, rfl⟩
      exact ⟨rfl, hw⟩
    · rintro ⟨rfl, hw⟩
      exact ⟨(), after, hw, rfl, rfl⟩
  · simp [eq_comm]

/-- Each file is left with its new text, which depends on nothing but the text that was read. -/
theorem revise_of_yields_each {f : α → Script Bool} {path : α → Path}
    {new? : α → Option String} {change : String → Option String} {items : List α}
    (saves : ∀ item ∈ items, (f item).Saves (path item) (new? item))
    (reads : ∀ item ∈ items, ∃ text, files.read (path item) = .ok text ∧ new? item = change text)
    {numbers : List Nat} {results : List Bool}
    (h : (each f items).Yields (files.revise numbers change) results after) :
    results = items.map (fun item => (new? item).isSome) ∧
      after = files.revise (numbers ++ (items.map path).filterMap files.fileOf?) change := by
  induction items generalizing numbers results with
  | nil =>
      simp only [each, yields_done_iff] at h
      exact ⟨h.1.symm, by simp [h.2]⟩
  | cons item rest ih =>
      obtain ⟨first, middle, others, hfirst, hothers, rfl⟩ := yields_each_cons_iff.mp h
      obtain ⟨rfl, hw⟩ := (saves item List.mem_cons_self _ _ _).mp hfirst
      obtain ⟨text, hr, hnew⟩ := reads item List.mem_cons_self
      obtain ⟨number, file, held⟩ := FileTree.read_eq_ok_iff.mp hr
      have written : middle = files.revise (number :: numbers) change := by
        cases hc : change text with
        | none =>
            rw [hnew, hc, Option.elim_none, Except.ok.injEq] at hw
            rw [← hw, FileTree.revise_cons_of_none held hc]
        | some new =>
            rw [hnew, hc, Option.elim_some] at hw
            exact FileTree.revise_of_write file held hc hw
      subst written
      obtain ⟨rfl, rfl⟩ := ih (fun other hm => saves other (List.mem_cons_of_mem _ hm))
        (fun other hm => reads other (List.mem_cons_of_mem _ hm)) hothers
      refine ⟨rfl, FileTree.revise_congr fun other => ?_⟩
      simp [file, or_left_comm]

theorem yields_each_of_saves_none (files : FileTree) {f : α → Script Bool} {items : List α}
    (saves : ∀ item ∈ items, ∃ path, (f item).Saves path none) :
    (each f items).Yields files (items.map fun _ => false) files := by
  induction items with
  | nil => simp [each]
  | cons item rest ih =>
      obtain ⟨path, hfirst⟩ := saves item List.mem_cons_self
      have first := (hfirst files false files).mpr ⟨rfl, rfl⟩
      have others := ih fun other hm => saves other (List.mem_cons_of_mem _ hm)
      exact yields_each_cons_iff.mpr ⟨false, files, _, first, others, rfl⟩

/-! ## Runs that write nothing -/

/-- On `files` the script does not ask for a write. -/
def Idle (script : Script α) (files : FileTree) : Prop :=
  ∀ access ∈ script.accesses files, ∀ path text answer, access ≠ .write path text answer

theorem Idle.files_run {script : Script α} (h : script.Idle files) :
    (script.run files).files = files := by
  induction script with
  | done | fail => rfl
  | note notice next ih | print text next ih => exact ih h
  | read path next ih | list path next ih =>
      exact ih _ fun access hm => h access (List.mem_cons_of_mem _ hm)
  | write path text next ih =>
      simp only [Idle, accesses] at h
      split at h <;> exact (h _ List.mem_cons_self _ _ _ rfl).elim

theorem Quiet.idle {script : Script α} (h : script.Quiet) (files : FileTree) :
    script.Idle files := by
  induction script with
  | done | fail => exact List.forall_mem_nil _
  | note notice next ih | print text next ih => exact ih h
  | read path next ih | list path next ih =>
      exact List.forall_mem_cons.mpr ⟨nofun, ih _ (h _)⟩
  | write => exact h.elim

/-- After a part that writes nothing, what counts is what the rest does with its result. -/
theorem Quiet.bind_idle {script : Script α} {f : α → Script β} (h : script.Quiet)
    (hf : ∀ value, script.Yields files value files → (f value).Idle files) :
    (script.bind f).Idle files := by
  induction script with
  | done value => exact hf value ⟨rfl, rfl⟩
  | fail => exact List.forall_mem_nil _
  | note notice next ih | print text next ih => exact ih h hf
  | read path next ih | list path next ih =>
      exact List.forall_mem_cons.mpr ⟨nofun, ih _ (h _) hf⟩
  | write => exact h.elim

end Script

end GameCatalog
