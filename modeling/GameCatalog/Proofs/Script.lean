import GameCatalog.Command.Script
import GameCatalog.Proofs.FileTree

/-!
# Disciplines of scripts

What a script may do is read off its steps, for every answer that it may get. One discipline is to
write only where a catalog was loaded; another is to do all that can fail before the first write. The
rules for sequences and lists build these up from the steps, and runs keep what they promise.
-/

namespace GameCatalog

/-- A request of a script to the files, with the answer it got. -/
inductive Access where
  | read (path : Path) (answer : Except FileFault String)
  | list (path : Path) (answer : Except FileFault (List Name))
  | write (path : Path) (text : String) (answer : Except FileFault Unit)

namespace Script

def accesses : Script α → FileTree → List Access
  | .done _, _ | .fail _, _ => []
  | .note _ next, files | .print _ next, files => next.accesses files
  | .read path next, files =>
      .read path (files.read path) :: (next (files.read path)).accesses files
  | .list path next, files =>
      .list path (files.list path) :: (next (files.list path)).accesses files
  | .write path text next, files =>
      match files.write path text with
      | .ok after => .write path text (.ok ()) :: (next (.ok ())).accesses after
      | .error fault => .write path text (.error fault) :: (next (.error fault)).accesses files

/-! ## Disciplines -/

/-- The script writes nothing. -/
def Quiet : Script α → Prop
  | .done _ | .fail _ => True
  | .note _ next | .print _ next => next.Quiet
  | .read _ next => ∀ answer, (next answer).Quiet
  | .list _ next => ∀ answer, (next answer).Quiet
  | .write _ _ _ => False

/-- As long as its writes succeed, the script fails only as it is excused for. -/
def Sure (excused : Failure → Prop) : Script α → Prop
  | .done _ => True
  | .fail failure => excused failure
  | .note _ next | .print _ next => next.Sure excused
  | .read _ next => ∀ answer, (next answer).Sure excused
  | .list _ next => ∀ answer, (next answer).Sure excused
  | .write _ _ next => (next (.ok ())).Sure excused

/-- The script does all that can fail before its first write. -/
def Careful (excused : Failure → Prop) : Script α → Prop
  | .done _ | .fail _ => True
  | .note _ next | .print _ next => next.Careful excused
  | .read _ next => ∀ answer, (next answer).Careful excused
  | .list _ next => ∀ answer, (next answer).Careful excused
  | .write _ _ next => (next (.ok ())).Sure excused

def loadedAfter (path : Path) (answer : Except FileFault String) (loaded : List Path) :
    List Path :=
  if (Catalog.ofFile path answer).isOk then path :: loaded else loaded

/-- The script writes only to paths from which it has loaded a catalog; `returns` tells of its
result and the paths that are loaded by then. -/
def Follows (returns : List Path → α → Prop) (loaded : List Path) : Script α → Prop
  | .done value => returns loaded value
  | .fail _ => True
  | .note _ next | .print _ next => next.Follows returns loaded
  | .read path next => ∀ answer, (next answer).Follows returns (loadedAfter path answer loaded)
  | .list _ next => ∀ answer, (next answer).Follows returns loaded
  | .write path _ next => path ∈ loaded ∧ ∀ answer, (next answer).Follows returns loaded

theorem mem_loadedAfter {path other : Path} {answer : Except FileFault String}
    {loaded : List Path} (h : other ∈ loadedAfter path answer loaded) :
    other ∈ loaded ∨ other = path ∧ ∃ catalog, Catalog.ofFile path answer = .ok catalog := by
  unfold loadedAfter at h
  cases hc : Catalog.ofFile path answer with
  | error fault => exact .inl (by simpa [hc, Except.isOk, Except.toBool] using h)
  | ok catalog =>
      simp only [hc, Except.isOk, Except.toBool, if_true] at h
      rcases List.mem_cons.mp h with rfl | hm
      · exact .inr ⟨rfl, catalog, rfl⟩
      · exact .inl hm

theorem subset_loadedAfter (path : Path) (answer : Except FileFault String)
    (loaded : List Path) : loaded ⊆ loadedAfter path answer loaded := by
  unfold loadedAfter
  split
  · exact List.subset_cons_self path loaded
  · exact List.Subset.refl loaded

/-! ## Sequences -/

section Sequences

variable {excused : Failure → Prop}

theorem Quiet.bind {script : Script α} {f : α → Script β} (h : script.Quiet)
    (hf : ∀ value, (f value).Quiet) : (script.bind f).Quiet := by
  induction script with
  | done value => exact hf value
  | fail => trivial
  | note notice next ih | print text next ih => exact ih h
  | read path next ih | list path next ih => exact fun answer => ih answer (h answer)
  | write => exact h.elim

theorem Sure.bind {script : Script α} {f : α → Script β} (h : script.Sure excused)
    (hf : ∀ value, (f value).Sure excused) : (script.bind f).Sure excused := by
  induction script with
  | done value => exact hf value
  | fail => exact h
  | note notice next ih | print text next ih => exact ih h
  | read path next ih | list path next ih => exact fun answer => ih answer (h answer)
  | write path text next ih => exact ih (.ok ()) h

theorem Sure.careful {script : Script α} (h : script.Sure excused) : script.Careful excused := by
  induction script with
  | done | fail => trivial
  | note notice next ih | print text next ih => exact ih h
  | read path next ih | list path next ih => exact fun answer => ih answer (h answer)
  | write => exact h

theorem Quiet.careful {script : Script α} (h : script.Quiet) : script.Careful excused := by
  induction script with
  | done | fail => trivial
  | note notice next ih | print text next ih => exact ih h
  | read path next ih | list path next ih => exact fun answer => ih answer (h answer)
  | write => exact h.elim

/-- What writes nothing may come before what is careful. -/
theorem Quiet.bind_careful {script : Script α} {f : α → Script β} (h : script.Quiet)
    (hf : ∀ value, (f value).Careful excused) : (script.bind f).Careful excused := by
  induction script with
  | done value => exact hf value
  | fail => trivial
  | note notice next ih | print text next ih => exact ih h
  | read path next ih | list path next ih => exact fun answer => ih answer (h answer)
  | write => exact h.elim

/-- What cannot fail may come after what is careful. -/
theorem Careful.bind_sure {script : Script α} {f : α → Script β} (h : script.Careful excused)
    (hf : ∀ value, (f value).Sure excused) : (script.bind f).Careful excused := by
  induction script with
  | done value => exact (hf value).careful
  | fail => trivial
  | note notice next ih | print text next ih => exact ih h
  | read path next ih | list path next ih => exact fun answer => ih answer (h answer)
  | write => exact Sure.bind h hf

variable {returns : List Path → α → Prop} {results : List Path → β → Prop}
  {loaded : List Path}

theorem Follows.bind {script : Script α} {f : α → Script β} (h : script.Follows returns loaded)
    (hf : ∀ more value, loaded ⊆ more → returns more value → (f value).Follows results more) :
    (script.bind f).Follows results loaded := by
  induction script generalizing loaded with
  | done value => exact hf loaded value (List.Subset.refl loaded) h
  | fail => trivial
  | note notice next ih | print text next ih => exact ih h hf
  | read path next ih =>
      exact fun answer => ih answer (h answer) fun more value hsub =>
        hf more value (List.Subset.trans (subset_loadedAfter path answer loaded) hsub)
  | list path next ih => exact fun answer => ih answer (h answer) hf
  | write path text next ih => exact ⟨h.1, fun answer => ih answer (h.2 answer) hf⟩

theorem Follows.mono {script : Script α} {told : List Path → α → Prop}
    (h : script.Follows returns loaded)
    (himp : ∀ after value, returns after value → told after value) :
    script.Follows told loaded := by
  rw [← bind_done script]
  exact h.bind fun more value _ hr => himp more value hr

theorem Quiet.follows {script : Script α} (h : script.Quiet) :
    script.Follows (fun _ _ => True) loaded := by
  induction script generalizing loaded with
  | done | fail => trivial
  | note notice next ih | print text next ih => exact ih h
  | read path next ih | list path next ih => exact fun answer => ih answer (h answer)
  | write => exact h.elim

end Sequences

/-! ## Lists -/

section Lists

variable {f : α → Script β} {items : List α}

theorem quiet_each (h : ∀ item ∈ items, (f item).Quiet) : (each f items).Quiet := by
  induction items with
  | nil => trivial
  | cons item rest ih =>
      have hrest := ih fun other hm => h other (List.mem_cons_of_mem _ hm)
      exact (h item List.mem_cons_self).bind fun _ => hrest.bind fun _ => trivial

theorem sure_each {excused : Failure → Prop} (h : ∀ item ∈ items, (f item).Sure excused) :
    (each f items).Sure excused := by
  induction items with
  | nil => trivial
  | cons item rest ih =>
      have hrest := ih fun other hm => h other (List.mem_cons_of_mem _ hm)
      exact (h item List.mem_cons_self).bind fun _ => hrest.bind fun _ => trivial

theorem follows_each {P : List Path → α → β → Prop} {loaded : List Path}
    (grows : ∀ {before after item result}, before ⊆ after → P before item result →
      P after item result)
    (h : ∀ item ∈ items, ∀ more, loaded ⊆ more →
      (f item).Follows (fun after result => P after item result) more) :
    (each f items).Follows (fun after results =>
      (∀ item ∈ items, ∃ result, P after item result) ∧
        ∀ result ∈ results, ∃ item ∈ items, P after item result) loaded := by
  induction items generalizing loaded with
  | nil => exact ⟨nofun, nofun⟩
  | cons item rest ih =>
      refine (h item List.mem_cons_self loaded (List.Subset.refl loaded)).bind ?_
      intro middle first hmiddle hfirst
      have hrest := ih fun other hm more hsub =>
        h other (List.mem_cons_of_mem _ hm) more (List.Subset.trans hmiddle hsub)
      refine hrest.bind fun after others hafter hothers => ?_
      have hkept := grows hafter hfirst
      refine ⟨List.forall_mem_cons.mpr ⟨⟨first, hkept⟩, hothers.1⟩,
        List.forall_mem_cons.mpr ⟨⟨item, List.mem_cons_self, hkept⟩, ?_⟩⟩
      intro result hr
      obtain ⟨other, hm, hp⟩ := hothers.2 result hr
      exact ⟨other, List.mem_cons_of_mem _ hm, hp⟩

theorem follows_each_of_forall {loaded : List Path}
    (h : ∀ item ∈ items, ∀ more, loaded ⊆ more → (f item).Follows (fun _ _ => True) more) :
    (each f items).Follows (fun _ _ => True) loaded :=
  (follows_each (P := fun _ _ _ => True) (fun _ _ => trivial) h).mono fun _ _ _ => trivial

end Lists

/-! ## What the disciplines promise of runs -/

section Runs

variable {script : Script α} {excused : Failure → Prop} {returns : List Path → α → Prop}
  {loaded : List Path} {files : FileTree}

theorem reads_of_loadedAfter {path : Path} (reads : ∀ path ∈ loaded, files.Reads path) :
    ∀ other ∈ loadedAfter path (files.read path) loaded, files.Reads other := by
  unfold loadedAfter
  cases hr : files.read path with
  | error fault => simpa [Catalog.ofFile, Except.isOk, Except.toBool] using reads
  | ok text =>
      split
      · intro other hm
        rcases List.mem_cons.mp hm with rfl | hm
        · exact ⟨text, hr⟩
        · exact reads other hm
      · exact reads

/-- A script that follows the discipline leaves the tree alike. -/
theorem Follows.alike_run (h : script.Follows returns loaded)
    (reads : ∀ path ∈ loaded, files.Reads path) : files.Alike (script.run files).files := by
  induction script generalizing loaded files with
  | done | fail => exact .refl files
  | note notice next ih | print text next ih => exact ih h reads
  | read path next ih => exact ih _ (h _) (reads_of_loadedAfter reads)
  | list path next ih => exact ih _ (h _) reads
  | write path text next ih =>
      obtain ⟨hpath, hnext⟩ := h
      simp only [run]
      cases hw : files.write path text with
      | error fault => exact ih _ (hnext _) reads
      | ok after =>
          have halike := FileTree.alike_of_write (reads path hpath) hw
          exact halike.trans (ih _ (hnext _) fun other hm => (reads other hm).alike halike)

theorem cons_eq_append_cons {first middle : Access} {rest earlier later : List Access}
    (h : first :: rest = earlier ++ middle :: later) :
    first = middle ∨ ∃ tail, earlier = first :: tail ∧ rest = tail ++ middle :: later := by
  cases earlier with
  | nil =>
      simp only [List.nil_append, List.cons.injEq] at h
      exact .inl h.1
  | cons head tail =>
      simp only [List.cons_append, List.cons.injEq] at h
      exact .inr ⟨tail, by rw [h.1], h.2⟩

/-- Each write of a run comes after a catalog was read from its path. -/
theorem Follows.loaded_of_write (h : script.Follows returns loaded) {path : Path} {text : String}
    {answer : Except FileFault Unit} {earlier later : List Access}
    (he : script.accesses files = earlier ++ .write path text answer :: later) :
    path ∈ loaded ∨ ∃ contents catalog, .read path contents ∈ earlier ∧
      Catalog.ofFile path contents = .ok catalog := by
  induction script generalizing loaded files earlier with
  | done | fail => simp [accesses] at he
  | note notice next ih | print text next ih => exact ih h he
  | read other next ih =>
      rcases cons_eq_append_cons he with hf | ⟨tail, rfl, htail⟩
      · cases hf
      · rcases ih _ (h _) htail with hm | ⟨contents, catalog, hm, hc⟩
        · rcases mem_loadedAfter hm with hm | ⟨rfl, catalog, hc⟩
          · exact .inl hm
          · exact .inr ⟨_, catalog, List.mem_cons_self, hc⟩
        · exact .inr ⟨contents, catalog, List.mem_cons_of_mem _ hm, hc⟩
  | list other next ih =>
      rcases cons_eq_append_cons he with hf | ⟨tail, rfl, htail⟩
      · cases hf
      · exact (ih _ (h _) htail).imp id fun ⟨contents, catalog, hm, hc⟩ =>
          ⟨contents, catalog, List.mem_cons_of_mem _ hm, hc⟩
  | write other written next ih =>
      obtain ⟨hother, hnext⟩ := h
      obtain ⟨result, after, hw⟩ : ∃ result after, (write other written next).accesses files =
          .write other written result :: (next result).accesses after := by
        simp only [accesses]
        cases files.write other written with
        | ok after => exact ⟨_, after, rfl⟩
        | error fault => exact ⟨_, files, rfl⟩
      rw [hw] at he
      rcases cons_eq_append_cons he with hf | ⟨tail, rfl, htail⟩
      · cases hf
        exact .inl hother
      · exact (ih _ (hnext _) htail).imp id fun ⟨contents, catalog, hm, hc⟩ =>
          ⟨contents, catalog, List.mem_cons_of_mem _ hm, hc⟩

/-- A sure script that can write fails only as it is excused for. -/
theorem Sure.excused_of_error (h : script.Sure excused) (follows : script.Follows returns loaded)
    (reads : ∀ path ∈ loaded, files.Reads path) (writes : files.WritesBack) {failure : Failure}
    (he : (script.run files).answer = .error failure) : excused failure := by
  induction script generalizing loaded files with
  | done => cases he
  | fail =>
      cases he
      exact h
  | note notice next ih | print text next ih => exact ih h follows reads writes he
  | read path next ih => exact ih _ (h _) (follows _) (reads_of_loadedAfter reads) writes he
  | list path next ih => exact ih _ (h _) (follows _) reads writes he
  | write path text next ih =>
      obtain ⟨hpath, hnext⟩ := follows
      obtain ⟨after, hw⟩ := writes path (reads path hpath) text
      simp only [run, hw] at he
      have halike := FileTree.alike_of_write (reads path hpath) hw
      exact ih _ h (hnext _) (fun other hm => (reads other hm).alike halike) (writes.alike halike) he

/-- A careful script that can write either changes nothing when it fails or is excused for it. -/
theorem Careful.files_of_error (h : script.Careful excused)
    (follows : script.Follows returns loaded) (reads : ∀ path ∈ loaded, files.Reads path)
    (writes : files.WritesBack) {failure : Failure}
    (he : (script.run files).answer = .error failure) :
    (script.run files).files = files ∨ excused failure := by
  induction script generalizing loaded with
  | done | fail => exact .inl rfl
  | note notice next ih | print text next ih => exact ih h follows reads he
  | read path next ih => exact ih _ (h _) (follows _) (reads_of_loadedAfter reads) he
  | list path next ih => exact ih _ (h _) (follows _) reads he
  | write path text next ih =>
      obtain ⟨hpath, hnext⟩ := follows
      obtain ⟨after, hw⟩ := writes path (reads path hpath) text
      simp only [run, hw] at he
      have halike := FileTree.alike_of_write (reads path hpath) hw
      exact .inr (Sure.excused_of_error h (hnext _)
        (fun other hm => (reads other hm).alike halike) (writes.alike halike) he)

end Runs

end Script

end GameCatalog
