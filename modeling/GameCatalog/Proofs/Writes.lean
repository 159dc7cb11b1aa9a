import GameCatalog.Proofs.Yields

/-!
# Where runs write

The writes of a run are those of its parts. A file stays as it is when all writes of a run go to
other files.
-/

namespace GameCatalog

namespace Script

variable {files : FileTree} {access : Access}

/-- What a sequence asks for is asked for by its first part, or by the rest once that succeeded. -/
theorem mem_accesses_bind_iff {script : Script α} {f : α → Script β} :
    access ∈ (script.bind f).accesses files ↔
      access ∈ script.accesses files ∨
        ∃ value after, script.Yields files value after ∧ access ∈ (f value).accesses after := by
  induction script generalizing files with
  | done value => simp [bind, accesses]
  | fail => simp [bind, accesses]
  | note notice next ih | print text next ih => exact ih
  | read path next ih | list path next ih =>
      simp only [bind, accesses, List.mem_cons, ih, or_assoc]
      rfl
  | write path text next ih =>
      cases hw : files.write path text <;>
        simp only [bind, accesses, hw, List.mem_cons, ih, or_assoc, Yields, run]

theorem exists_of_mem_accesses_each {f : α → Script β} {items : List α}
    (h : access ∈ (each f items).accesses files) :
    ∃ item ∈ items, ∃ before, access ∈ (f item).accesses before := by
  induction items generalizing files with
  | nil => cases h
  | cons item rest ih =>
      rcases mem_accesses_bind_iff.mp h with first | ⟨_, after, -, others⟩
      · exact ⟨item, List.mem_cons_self, files, first⟩
      · rcases mem_accesses_bind_iff.mp others with later | ⟨_, _, -, last⟩
        · obtain ⟨other, hm, before, found⟩ := ih later
          exact ⟨other, List.mem_cons_of_mem item hm, before, found⟩
        · cases last

/-- A file stays as it is when all writes go to other files that can be read. -/
theorem files_run {script : Script α} {number : Nat}
    (elsewhere : ∀ path text answer, .write path text answer ∈ script.accesses files →
      files.Reads path ∧ files.fileOf? path ≠ some number) :
    (script.run files).files.files[number]? = files.files[number]? := by
  induction script generalizing files with
  | done | fail => rfl
  | note notice next ih | print text next ih => exact ih elsewhere
  | read path next ih | list path next ih =>
      exact ih _ fun other text answer hm =>
        elsewhere other text answer (List.mem_cons_of_mem _ hm)
  | write path text next ih =>
      cases hw : files.write path text with
      | error fault =>
          simp only [accesses, hw, List.mem_cons] at elsewhere
          simp only [run, hw]
          exact ih _ fun other new answer hm => elsewhere other new answer (.inr hm)
      | ok after =>
          simp only [accesses, hw, List.mem_cons] at elsewhere
          simp only [run, hw]
          obtain ⟨reads, ne⟩ := elsewhere path text (.ok ()) (.inl rfl)
          have alike := FileTree.alike_of_write reads hw
          obtain ⟨other, old, file, -, rfl⟩ := FileTree.exists_ofText_of_write reads hw
          rw [file] at ne
          rw [ih _ fun target new answer hm => ?_]
          · exact List.getElem?_set_ne fun same => ne (congrArg some same)
          · obtain ⟨readsTarget, neTarget⟩ := elsewhere target new answer (.inr hm)
            exact ⟨readsTarget.alike alike, alike.fileOf? target ▸ neTarget⟩

/-- A path reads the same after a run that writes to other files only. -/
theorem read_run {script : Script α} {path : Path}
    (alike : files.Alike (script.run files).files)
    (elsewhere : ∀ target text answer, .write target text answer ∈ script.accesses files →
      files.Reads target ∧ ¬files.SameFile target path) :
    (script.run files).files.read path = files.read path := by
  have kept : ∀ number, files.fileOf? path = some number →
      (script.run files).files.files[number]? = files.files[number]? := fun number file =>
    files_run fun target text answer hm => by
      obtain ⟨reads, apart⟩ := elsewhere target text answer hm
      exact ⟨reads, fun same => apart ⟨number, same, file⟩⟩
  exact (alike.read fun number file => (kept number file).symm).symm

end Script

end GameCatalog
