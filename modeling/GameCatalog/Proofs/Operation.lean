import GameCatalog.Proofs.Assignment
import GameCatalog.Proofs.Carry
import GameCatalog.Proofs.Order
import GameCatalog.Proofs.Unwrap

/-!
# Runs of operations

The operations that change a catalog, and what a sequence of them leaves. Marks laid on the records
are moved along by sorting, so that a record can be followed through a run.
-/

namespace GameCatalog

/-- A change of a catalog, with all that it needs besides the catalog. -/
inductive Operation where
  | assign (registry : Registry) (document : String)
  | setUid (position : Nat) (uid : Option Uid)
  | sort
  | carry (old : Catalog) (field : String)
  | unwrap (fields : List String)

namespace Operation

def apply (catalog : Catalog) : Operation → Catalog
  | .assign registry document => (registry.assign document catalog).catalog
  | .setUid position uid => catalog.setUid position uid
  | .sort => catalog.sortByName.1
  | .carry old field => (old.carry catalog field).catalog
  | .unwrap fields => (catalog.unwrap fields).1

def run (catalog : Catalog) (operations : List Operation) : Catalog := operations.foldl apply catalog

@[simp] theorem run_nil (catalog : Catalog) : run catalog [] = catalog := rfl

@[simp] theorem run_cons (catalog : Catalog) (operation : Operation)
    (operations : List Operation) :
    run catalog (operation :: operations) = run (apply catalog operation) operations := rfl

theorem run_append (catalog : Catalog) (earlier later : List Operation) :
    run catalog (earlier ++ later) = run (run catalog earlier) later :=
  List.foldl_append

def sources : Operation → List Catalog
  | .carry old _ => [old]
  | _ => []

/-! ## What every operation keeps -/

theorem apply_eq (catalog : Catalog) (operation : Operation) :
    apply catalog operation = { catalog with games := (apply catalog operation).games } := by
  cases operation with
  | assign registry document =>
      rcases registry.assign_cases document catalog with ⟨fault, h⟩ | ⟨held, -, h⟩ <;>
        simp [apply, h, Edit.refuse]
  | setUid position uid => rfl
  | sort => simp [apply, Catalog.sortByName_fst]
  | carry old field =>
      rcases old.carry_cases catalog field with ⟨fault, h⟩ | ⟨table, newTable, -, -, h⟩ <;>
        simp [apply, h, Edit.refuse]
  | unwrap fields => simp [apply, Catalog.unwrap_catalog]

/-- Records keep whatever is kept by storing a uid, by unwrapping a field and by taking the value of
a field from a record of a source. -/
theorem forall_games_apply {P : Record → Prop}
    (setUid_keeps : ∀ {record}, P record → ∀ uid, P (record.setUid uid))
    (unwrap_keeps : ∀ {record}, P record → ∀ field, P (record.unwrap field).1)
    (set_keeps : ∀ {record source field value}, P record → P source →
      source.get? field = some value → P (record.set field value))
    {catalog : Catalog} {operation : Operation} (h : ∀ record ∈ catalog.games, P record)
    (sources : ∀ old ∈ operation.sources, ∀ record ∈ old.games, P record) :
    ∀ record ∈ (apply catalog operation).games, P record := by
  cases operation with
  | assign registry document =>
      rcases registry.assign_cases document catalog with ⟨fault, ha⟩ | ⟨held, -, ha⟩
      · simpa [apply, ha, Edit.refuse] using h
      · rw [apply, ha]
        exact Registry.forall_judge setUid_keeps h
  | setUid position uid =>
      intro record hm
      obtain ⟨i, hi⟩ := List.mem_iff_getElem?.mp hm
      rw [apply, Catalog.setUid, List.getElem?_modify, Option.map_eq_map,
        Option.map_eq_some_iff] at hi
      obtain ⟨before, hb, rfl⟩ := hi
      have hp := h before (List.mem_of_getElem? hb)
      split
      · exact setUid_keeps hp uid
      · exact hp
  | sort => exact fun record hm => h record (catalog.perm_sortByName.mem_iff.mp hm)
  | carry old field =>
      rcases old.carry_cases catalog field with ⟨fault, hc⟩ | ⟨table, newTable, ho, -, hc⟩
      · simpa [apply, hc, Edit.refuse] using h
      · rw [apply, hc]
        simp only [List.forall_mem_map]
        intro record hm
        rcases Record.carriedFrom_cases table field record with
          he | ⟨uid, source, value, -, hf, hg, -, he⟩
        · rw [he]
          exact h record hm
        · rw [he]
          have hs := (Catalog.mem_of_find?_uidTable ho hf).1
          exact set_keeps (h record hm) (sources old List.mem_cons_self source hs) hg
  | unwrap fields =>
      rw [apply, Catalog.unwrap_catalog]
      simp only [List.forall_mem_map]
      exact fun record hm => Record.unwrapAll_keeps unwrap_keeps (h record hm) fields

/-! ## Following records -/

/-- Marks on the records in order, as an operation moves them: sorting takes each mark along with
its record. -/
def moveMarks (catalog : Catalog) (marks : List α) : Operation → List α
  | .sort =>
      if inNameOrder catalog.games then marks
      else ((catalog.games.zip marks).mergeSort fun a b => a.1.nameLe b.1).map (·.2)
  | _ => marks

def moveMarksAlong (catalog : Catalog) (marks : List α) : List Operation → List α
  | [] => marks
  | operation :: rest =>
      moveMarksAlong (apply catalog operation) (moveMarks catalog marks operation) rest

/-- For each position after a run, the position that its record had before. -/
def origins (catalog : Catalog) (operations : List Operation) : List Nat :=
  moveMarksAlong catalog (List.range catalog.games.length) operations

@[simp] theorem length_games_apply (catalog : Catalog) (operation : Operation) :
    (apply catalog operation).games.length = catalog.games.length := by
  cases operation with
  | assign registry document =>
      rcases registry.assign_cases document catalog with ⟨fault, h⟩ | ⟨held, -, h⟩
      · simp [apply, h, Edit.refuse]
      · simp [apply, h]
  | setUid position uid => simp [apply, Catalog.setUid]
  | sort => exact catalog.perm_sortByName.length_eq
  | carry old field =>
      rcases old.carry_cases catalog field with ⟨fault, h⟩ | ⟨table, newTable, -, -, h⟩
      · simp [apply, h, Edit.refuse]
      · simp [apply, h]
  | unwrap fields => simp [apply, Catalog.unwrap_catalog]

@[simp] theorem length_games_run (catalog : Catalog) (operations : List Operation) :
    (run catalog operations).games.length = catalog.games.length := by
  induction operations generalizing catalog with
  | nil => rfl
  | cons operation rest ih => rw [run_cons, ih, length_games_apply]

/-- Sorting records with marks is sorting the records, and the marks go along. -/
theorem zip_sortByName {catalog : Catalog} {marks : List α}
    (h : marks.length = catalog.games.length) :
    ((apply catalog .sort).games.zip (moveMarks catalog marks .sort)).Perm
      (catalog.games.zip marks) := by
  by_cases ho : inNameOrder catalog.games
  · simp [apply, moveMarks, Catalog.sortByName, ho]
  · have hgames : catalog.games.mergeSort Record.nameLe =
        ((catalog.games.zip marks).mergeSort fun a b => a.1.nameLe b.1).map (·.1) := by
      rw [List.map_mergeSort (s := Record.nameLe) fun _ _ _ _ => rfl,
        List.map_fst_zip (Nat.le_of_eq h.symm)]
    simp only [apply, moveMarks, Catalog.sortByName, ho, hgames, Bool.false_eq_true, if_false]
    rw [List.zip_map', List.map_id']
    exact List.mergeSort_perm _ _

theorem moveMarks_of_ne_sort {operation : Operation} (h : operation ≠ .sort) (catalog : Catalog)
    (marks : List α) : moveMarks catalog marks operation = marks := by
  cases operation with
  | sort => exact absurd rfl h
  | _ => rfl

theorem perm_moveMarks {catalog : Catalog} {marks : List α}
    (h : marks.length = catalog.games.length) (operation : Operation) :
    (moveMarks catalog marks operation).Perm marks := by
  cases operation with
  | sort =>
      by_cases ho : inNameOrder catalog.games
      · simp [moveMarks, ho]
      · have hp := (List.mergeSort_perm (catalog.games.zip marks) fun a b =>
          a.1.nameLe b.1).map (·.2)
        rw [List.map_snd_zip (Nat.le_of_eq h)] at hp
        simpa [moveMarks, ho] using hp
  | _ => exact .refl _

end Operation

end GameCatalog
