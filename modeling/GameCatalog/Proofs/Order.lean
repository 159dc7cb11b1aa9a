import GameCatalog.Catalog.Order
import Mathlib.Data.List.Basic

/-!
# What sorting does

The order of names is total, so sorting puts the records in order, and there is nothing left to do
for another sort. Sorting is stable: the records of each name keep their order. It goes through an
edit of the records that keeps their names.
-/

namespace GameCatalog

theorem nameLe_total (a b : Option String) : (nameLe a b || nameLe b a) = true := by
  cases a with
  | none => rfl
  | some a =>
      cases b with
      | none => rfl
      | some b => simpa [nameLe] using String.le_total a b

theorem nameLe_trans (a b c : Option String) (hab : nameLe a b = true) (hbc : nameLe b c = true) :
    nameLe a c = true := by
  cases a with
  | none => rfl
  | some a =>
      cases b with
      | none => cases hab
      | some b =>
          cases c with
          | none => cases hbc
          | some c =>
              simp only [nameLe, decide_eq_true_eq] at hab hbc ⊢
              exact String.le_trans hab hbc

theorem nameLe_refl (name : Option String) : nameLe name name = true := by
  simpa using nameLe_total name name

/-- A stable sort: the items of each name keep their order. -/
theorem filter_mergeSort (key : α → Option String) (items : List α) (name : Option String) :
    (items.mergeSort fun a b => nameLe (key a) (key b)).filter (key · = name) =
      items.filter (key · = name) := by
  have named : ∀ item ∈ items.filter (key · = name), key item = name := by
    intro item hm
    simpa using (List.mem_filter.mp hm).2
  have in_order : (items.filter (key · = name)).Pairwise fun a b =>
      nameLe (key a) (key b) = true := by
    refine List.pairwise_of_forall_mem_list fun a ha b hb => ?_
    rw [named a ha, named b hb]
    exact nameLe_refl name
  have kept := List.sublist_mergeSort (fun a b c => nameLe_trans (key a) (key b) (key c))
    (fun a b => nameLe_total (key a) (key b)) in_order List.filter_sublist
  have kept_named := kept.filter (key · = name)
  simp only [List.filter_filter, Bool.and_self] at kept_named
  have sorted_perm := List.mergeSort_perm items fun a b => nameLe (key a) (key b)
  have length_eq := (sorted_perm.filter (key · = name)).length_eq
  exact (kept_named.eq_of_length length_eq.symm).symm

/-- Sorting goes through a map to records, when the items are sorted by the names of these. -/
theorem map_mergeSort_nameLe {f : α → Record} {key : α → Option String}
    (name_eq : ∀ item, (f item).name? = key item) (items : List α) :
    (items.mergeSort fun a b => nameLe (key a) (key b)).map f =
      (items.map f).mergeSort Record.nameLe := by
  refine List.map_mergeSort fun a _ b _ => ?_
  rw [Record.nameLe, name_eq, name_eq]

theorem inNameOrder_of_pairwise {records : List Record}
    (h : records.Pairwise fun a b => a.nameLe b = true) : inNameOrder records = true := by
  induction records with
  | nil => rfl
  | cons first rest ih =>
      obtain ⟨hfirst, hrest⟩ := List.pairwise_cons.mp h
      cases rest with
      | nil => rfl
      | cons second others =>
          simp [inNameOrder, hfirst second List.mem_cons_self, ih hrest]

/-- It is enough to compare neighbours. -/
theorem pairwise_of_inNameOrder {records : List Record} (h : inNameOrder records = true) :
    records.Pairwise fun a b => a.nameLe b = true := by
  induction records with
  | nil => exact .nil
  | cons first rest ih =>
      cases rest with
      | nil => exact List.pairwise_singleton _ _
      | cons second others =>
          rw [inNameOrder, Bool.and_eq_true] at h
          obtain ⟨neighbours, ordered⟩ := h
          have later := ih ordered
          refine List.pairwise_cons.mpr ⟨fun record hm => ?_, later⟩
          rcases List.mem_cons.mp hm with rfl | hm
          · exact neighbours
          · exact nameLe_trans _ _ _ neighbours ((List.pairwise_cons.mp later).1 record hm)

theorem inNameOrder_mergeSort (records : List Record) :
    inNameOrder (records.mergeSort Record.nameLe) = true := by
  apply inNameOrder_of_pairwise
  apply List.pairwise_mergeSort
  · exact fun a b c => nameLe_trans a.name? b.name? c.name?
  · exact fun a b => nameLe_total a.name? b.name?

namespace Catalog

theorem sortByName_of_unchanged {catalog : Catalog} (h : catalog.sortByName.2 = false) :
    catalog.sortByName.1 = catalog := by
  unfold sortByName at h ⊢
  split
  · rfl
  next unordered => simp [unordered] at h

theorem sortByName_sortByName (catalog : Catalog) :
    catalog.sortByName.1.sortByName = (catalog.sortByName.1, false) := by
  have ordered : inNameOrder catalog.sortByName.1.games = true := by
    unfold sortByName
    split
    next h => exact h
    next => exact inNameOrder_mergeSort catalog.games
  rw [sortByName, if_pos ordered]

/-- Leaving records alone that are in order is sorting them. -/
theorem sortByName_fst (catalog : Catalog) :
    catalog.sortByName.1 = { catalog with games := catalog.games.mergeSort Record.nameLe } := by
  unfold sortByName
  split
  next ordered => rw [List.mergeSort_of_pairwise (pairwise_of_inNameOrder ordered)]
  next => rfl

theorem perm_sortByName (catalog : Catalog) : catalog.sortByName.1.games.Perm catalog.games := by
  rw [sortByName_fst]
  exact List.mergeSort_perm _ _

/-- Sorting goes through an edit that keeps names. -/
theorem sortByName_map {rewrite : Record → Record}
    (name_kept : ∀ record, (rewrite record).name? = record.name?) (catalog : Catalog) :
    { catalog.sortByName.1 with games := catalog.sortByName.1.games.map rewrite } =
      (sortByName { catalog with games := catalog.games.map rewrite }).1 := by
  rw [sortByName_fst, sortByName_fst, ← map_mergeSort_nameLe name_kept]
  rfl

end Catalog

end GameCatalog
