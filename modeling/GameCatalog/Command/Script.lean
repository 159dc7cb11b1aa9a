import GameCatalog.Catalog.Text
import GameCatalog.Command.Failure
import GameCatalog.Command.Notice
import GameCatalog.Files.Tree

/-!
# Scripts

A command is a script: a tree of the steps it takes on files, notices and its output, each step
going on with the answer it gets. `Script.run` plays a script on a file tree; the program plays the
same script on real files.
-/

namespace GameCatalog

inductive Script (α : Type) where
  | done (value : α)
  | fail (failure : Failure)
  | note (notice : Notice) (next : Script α)
  | print (text : String) (next : Script α)
  | read (path : Path) (next : Except FileFault String → Script α)
  | list (path : Path) (next : Except FileFault (List Name) → Script α)
  | write (path : Path) (text : String) (next : Except FileFault Unit → Script α)

namespace Script

def bind : Script α → (α → Script β) → Script β
  | .done value, f => f value
  | .fail failure, _ => .fail failure
  | .note notice next, f => .note notice (next.bind f)
  | .print text next, f => .print text (next.bind f)
  | .read path next, f => .read path fun answer => (next answer).bind f
  | .list path next, f => .list path fun answer => (next answer).bind f
  | .write path text next, f => .write path text fun answer => (next answer).bind f

instance : Monad Script where
  pure := .done
  bind := bind

def orFail (context : String) : Except CatalogFault α → Script α
  | .ok value => .done value
  | .error fault => .fail (.ofFault context fault)

def orFailRecord (context : String) : Except RecordFault α → Script α
  | .ok value => .done value
  | .error fault => .fail (.ofFault context (.record fault))

def noteAll : List Notice → Script Unit
  | [] => .done ()
  | notice :: rest => .note notice (noteAll rest)

def each (f : α → Script β) : List α → Script (List β)
  | [] => .done []
  | item :: rest => do
      let first ← f item
      let others ← each f rest
      .done (first :: others)

/-! ## Catalog files -/

def load (path : Path) : Script Catalog :=
  .read path fun contents => orFail s!"failed to load {path}" (Catalog.ofFile path contents)

def save (path : Path) (catalog : Catalog) (indent : Nat) : Script Unit :=
  .write path (catalog.text indent) fun
    | .ok () => .done ()
    | .error fault => .fail (.ofFault s!"failed to write {path}" (.ofFile path fault))

/-! ## Playing a script on a file tree -/

/-- What a script leaves: the files, what it printed and noted in order, and its answer. -/
structure Run (α : Type) where
  files : FileTree
  printed : String
  notices : List Notice
  answer : Except Failure α

def run : Script α → FileTree → Run α
  | .done value, files => ⟨files, "", [], .ok value⟩
  | .fail failure, files => ⟨files, "", [], .error failure⟩
  | .note notice next, files =>
      let after := next.run files
      { after with notices := notice :: after.notices }
  | .print text next, files =>
      let after := next.run files
      { after with printed := text ++ after.printed }
  | .read path next, files => (next (files.read path)).run files
  | .list path next, files => (next (files.list path)).run files
  | .write path text next, files =>
      match files.write path text with
      | .ok files => (next (.ok ())).run files
      | .error fault => (next (.error fault)).run files

@[simp] theorem run_done (value : α) (files : FileTree) :
    (done value).run files = ⟨files, "", [], .ok value⟩ := rfl

@[simp] theorem run_fail (failure : Failure) (files : FileTree) :
    (fail failure : Script α).run files = ⟨files, "", [], .error failure⟩ := rfl

@[simp] theorem done_bind (value : α) (f : α → Script β) : (done value).bind f = f value := rfl

@[simp] theorem bind_done (script : Script α) : script.bind done = script := by
  induction script with
  | done | fail => rfl
  | note notice next ih | print text next ih => simp [bind, ih]
  | read path next ih | list path next ih | write path text next ih => simp [bind, ih]

theorem bind_assoc (script : Script α) (f : α → Script β) (g : β → Script γ) :
    (script.bind f).bind g = script.bind fun value => (f value).bind g := by
  induction script with
  | done | fail => rfl
  | note notice next ih | print text next ih => simp [bind, ih]
  | read path next ih | list path next ih | write path text next ih => simp [bind, ih]

def Run.andThen (first : Run α) (f : α → Script β) : Run β :=
  match first.answer with
  | .error failure => ⟨first.files, first.printed, first.notices, .error failure⟩
  | .ok value =>
      let after := (f value).run first.files
      ⟨after.files, first.printed ++ after.printed, first.notices ++ after.notices, after.answer⟩

theorem run_bind (script : Script α) (f : α → Script β) (files : FileTree) :
    (script.bind f).run files = (script.run files).andThen f := by
  induction script generalizing files with
  | done | fail => simp [bind, Run.andThen]
  | note notice next ih =>
      simp only [bind, run, ih, Run.andThen]
      cases (next.run files).answer <;> simp
  | print text next ih =>
      simp only [bind, run, ih, Run.andThen]
      cases (next.run files).answer <;> simp [String.append_assoc]
  | read path next ih | list path next ih => simp only [bind, run, ih]
  | write path text next ih =>
      simp only [bind, run]
      cases files.write path text <;> simp only [ih]

end Script

end GameCatalog
