import GameCatalog.Command.Script
import GameCatalog.Proofs.Paths
import Mathlib.Data.List.Nodup

/-!
# Well-formed trees

What every file system keeps to, and runs keep. In a well-formed tree a directory lists each of its
names once, every name leads to its entry, and every file is there.
-/

namespace GameCatalog

namespace FileTree

/-- What every file system keeps to: a place has one entry, no name has a slash in it, and what
stands for a file stands for one that is there. -/
structure WellFormed (tree : FileTree) : Prop where
  nodup : (tree.entries.map Prod.fst).Nodup
  names : ∀ held ∈ tree.entries, ∀ name ∈ held.1, Path.slash ∉ name
  here : ∀ name ∈ tree.here, Path.slash ∉ name
  files : ∀ place number, (place, .file number) ∈ tree.entries → number < tree.files.length

variable {tree : FileTree} {path : Path} {name : Name} {directory place : Place}
  {listed : List Name} {entries : List (Place × Entry)}

/-! ## Listing -/

def Holds (tree : FileTree) (path : Path) (name : Name) : Prop :=
  ∃ directory, tree.resolve false path = .ok (.directory directory) ∧
    (tree.entries.lookup (directory ++ [name])).isSome

theorem nameIn?_eq_some_iff :
    nameIn? directory place = some name ↔ place = directory ++ [name] := by
  unfold nameIn?
  constructor
  · intro h
    split at h
    next parent => rw [← parent, List.dropLast_append_getLast? name h]
    next => cases h
  · rintro rfl
    simp

theorem list_eq_ok_iff :
    tree.list path = .ok listed ↔
      ∃ directory, tree.resolve false path = .ok (.directory directory) ∧
        (tree.entries.map Prod.fst).filterMap (nameIn? directory) = listed := by
  unfold list
  cases tree.resolve false path with
  | error fault => simp
  | ok arrival => cases arrival <;> simp

theorem mem_of_lookup {entry : Entry} (h : entries.lookup place = some entry) :
    (place, entry) ∈ entries := by
  obtain ⟨before, after, rfl, -⟩ := List.lookup_eq_some_iff.mp h
  exact List.mem_append_right _ List.mem_cons_self

theorem isSome_lookup_iff : (entries.lookup place).isSome ↔ place ∈ entries.map Prod.fst := by
  rw [List.lookup_isSome_iff, List.mem_map]
  exact exists_congr fun held => and_congr_right fun _ => by rw [beq_iff_eq, eq_comm]

theorem mem_list_iff (h : tree.list path = .ok listed) : name ∈ listed ↔ tree.Holds path name := by
  obtain ⟨directory, resolved, rfl⟩ := list_eq_ok_iff.mp h
  simp [Holds, resolved, List.mem_filterMap, nameIn?_eq_some_iff]

theorem WellFormed.nodup_list (wellFormed : tree.WellFormed) (h : tree.list path = .ok listed) :
    listed.Nodup := by
  obtain ⟨directory, -, rfl⟩ := list_eq_ok_iff.mp h
  refine wellFormed.nodup.filterMap fun place other name hplace hother => ?_
  rw [nameIn?_eq_some_iff.mp hplace, nameIn?_eq_some_iff.mp hother]

theorem WellFormed.slash_not_mem (wellFormed : tree.WellFormed) (h : tree.Holds path name) :
    Path.slash ∉ name := by
  obtain ⟨directory, -, found⟩ := h
  obtain ⟨held, hm, he⟩ := List.mem_map.mp (isSome_lookup_iff.mp found)
  exact wellFormed.names held hm name (he ▸ by simp)

theorem exists_list_of_holds (h : tree.Holds path name) :
    ∃ listed, tree.list path = .ok listed := by
  obtain ⟨directory, resolved, -⟩ := h
  exact ⟨_, list_eq_ok_iff.mpr ⟨directory, resolved, rfl⟩⟩

/-! ## Changes -/

theorem WellFormed.setText (wellFormed : tree.WellFormed) (number : Nat) (text : String) :
    (tree.setText number text).WellFormed where
  nodup := wellFormed.nodup
  names := wellFormed.names
  here := wellFormed.here
  files place other hm := by
    rw [FileTree.setText, List.length_set]
    exact wellFormed.files place other hm

theorem WellFormed.create (wellFormed : tree.WellFormed) (fresh : tree.entries.lookup place = none)
    (free : ∀ name ∈ place, Path.slash ∉ name) (file : File) :
    (tree.create place file).WellFormed where
  nodup := by
    have absent : place ∉ tree.entries.map Prod.fst := by
      rw [← isSome_lookup_iff, fresh]
      exact Bool.false_ne_true
    rw [FileTree.create, List.map_append, List.map_singleton]
    exact wellFormed.nodup.append (List.nodup_singleton place) (List.disjoint_singleton.mpr absent)
  names held hm := by
    rcases List.mem_append.mp hm with hm | hm
    · exact wellFormed.names held hm
    · rw [List.mem_singleton.mp hm]
      exact free
  here := wellFormed.here
  files other number hm := by
    rw [FileTree.create, List.length_append, List.length_singleton]
    rcases List.mem_append.mp hm with hm | hm
    · exact Nat.lt_succ_of_lt (wellFormed.files other number hm)
    · cases List.mem_singleton.mp hm
      exact Nat.lt_succ_self _

/-- A free place is new, and the names that lead there have no slash in them. -/
theorem Leads.free_place {writing : Bool} {links : Nat} {parts : List Name}
    (h : Leads entries writing links directory parts (.free place))
    (names : ∀ name ∈ directory, Path.slash ∉ name) (free : ∀ name ∈ parts, Path.slash ∉ name) :
    entries.lookup place = none ∧ ∀ name ∈ place, Path.slash ∉ name := by
  generalize reached : Arrival.free place = arrival at h
  induction h with
  | done | file => cases reached
  | stay _ _ ih => exact ih names (List.forall_mem_cons.mp free).2 reached
  | up _ ih =>
      exact ih (fun name hm => names name (List.mem_of_mem_dropLast hm))
        (List.forall_mem_cons.mp free).2 reached
  | @enter _ place part rest _ _ _ _ ih =>
      obtain ⟨first, others⟩ := List.forall_mem_cons.mp free
      refine ih (fun name hm => ?_) others reached
      rcases List.mem_append.mp hm with hm | hm
      · exact names name hm
      · rwa [List.mem_singleton.mp hm]
  | @free _ place part named =>
      obtain rfl := Arrival.free.inj reached
      refine ⟨named.found, fun name hm => ?_⟩
      rcases List.mem_append.mp hm with hm | hm
      · exact names name hm
      · exact free name hm
  | @link _ place part rest target _ _ _ _ ih =>
      refine ih (fun name hm => ?_) (fun name hm => ?_) reached
      · unfold startAt at hm
        split at hm
        · cases hm
        · exact names name hm
      · rcases List.mem_append.mp hm with hm | hm
        · exact Path.slash_not_mem hm
        · exact (List.forall_mem_cons.mp free).2 name hm

theorem WellFormed.write {after : FileTree} {text : String} (wellFormed : tree.WellFormed)
    (h : tree.write path text = .ok after) : after.WellFormed := by
  unfold FileTree.write at h
  obtain ⟨arrival, resolved, h⟩ := bind_eq_ok_iff.mp h
  cases arrival with
  | directory place => cases h
  | free place =>
      cases h
      obtain ⟨-, leads⟩ := leads_of_resolve resolved
      have start : ∀ name ∈ startAt tree.here path, Path.slash ∉ name := by
        unfold startAt
        split
        · exact List.forall_mem_nil _
        · exact wellFormed.here
      obtain ⟨fresh, names⟩ := leads.free_place start fun name hm => Path.slash_not_mem hm
      exact wellFormed.create fresh names _
  | file number =>
      simp only at h
      split at h
      · cases h
      · split at h
        · cases h
        · cases h
          exact wellFormed.setText number text

end FileTree

/-- A run leaves a well-formed tree well-formed, whatever it writes. -/
theorem Script.wellFormed_run {files : FileTree} (script : Script α)
    (wellFormed : files.WellFormed) : (script.run files).files.WellFormed := by
  induction script generalizing files with
  | done | fail => exact wellFormed
  | note notice next ih | print text next ih => exact ih wellFormed
  | read path next ih | list path next ih => exact ih _ wellFormed
  | write path text next ih =>
      simp only [run]
      cases hw : files.write path text with
      | error fault => exact ih _ wellFormed
      | ok after => exact ih _ (wellFormed.write hw)

end GameCatalog
