import GameCatalog.Proofs.AssignmentReport
import GameCatalog.Proofs.Order
import GameCatalog.Proofs.TextOrder

/-!
# The canonical order

Sorting puts the records without a name first and the others by the scalar values of their names,
and leaves records of one name in the order they had. There is one such arrangement of the records
of a catalog, so a catalog is changed exactly when it is not arranged like that already.
-/

namespace GameCatalog

open Json

/-- No name comes before every name; of two names the one comes first whose scalar values do. -/
inductive NameBefore : Option String → Option String → Prop where
  | unnamed (name : String) : NameBefore none (some name)
  | smaller {name other : String}
      (lex : List.Lex (· < ·) (Text.scalars name) (Text.scalars other)) :
      NameBefore (some name) (some other)

/-- The records of a list in canonical order. -/
structure Canonical (before after : List Record) : Prop where
  perm : after.Perm before
  in_order : after.Pairwise fun a b => a.name? = b.name? ∨ NameBefore a.name? b.name?
  stable : ∀ name, after.filter (·.name? = name) = before.filter (·.name? = name)

/-! ## Names -/

theorem nameLe_iff {name other : Option String} :
    nameLe name other = true ↔ name = other ∨ NameBefore name other := by
  constructor
  · intro le
    cases name with
    | none =>
        cases other with
        | none => exact .inl rfl
        | some b => exact .inr (.unnamed b)
    | some a =>
        cases other with
        | none => cases le
        | some b =>
            rw [nameLe, decide_eq_true_eq] at le
            rcases Std.le_iff_lt_or_eq.mp le with lt | rfl
            · exact .inr (.smaller (Text.lt_iff_scalars.mp lt))
            · exact .inl rfl
  · rintro (rfl | before)
    · exact nameLe_refl name
    · cases before with
      | unnamed b => rfl
      | smaller lex =>
          rw [nameLe, decide_eq_true_eq]
          exact Std.le_of_lt (Text.lt_iff_scalars.mpr lex)

theorem nameBefore_iff_utf8 {name other : String} :
    NameBefore (some name) (some other) ↔
      List.Lex (· < ·) (Text.utf8 name) (Text.utf8 other) := by
  rw [← Text.lt_iff_utf8, Text.lt_iff_scalars]
  constructor
  · intro before
    cases before with
    | smaller lex => exact lex
  · exact .smaller

theorem nameLe_antisymm {name other : Option String} (h : nameLe name other = true)
    (h' : nameLe other name = true) : name = other := by
  cases name with
  | none =>
      cases other with
      | none => rfl
      | some b => cases h'
  | some a =>
      cases other with
      | none => cases h
      | some b =>
          rw [nameLe, decide_eq_true_eq] at h h'
          rw [String.le_antisymm h h']

/-! ## One arrangement -/

section Arrangement

variable {records others : List Record} {first : Record}

theorem nameLe_of_mem (ordered : (first :: records).Pairwise fun a b => a.nameLe b = true)
    {record : Record} (hm : record ∈ first :: records) : first.nameLe record = true := by
  rcases List.mem_cons.mp hm with rfl | hm
  · exact nameLe_refl record.name?
  · exact (List.pairwise_cons.mp ordered).1 record hm

/-- The first record of a list in order has a name before those of a list with the same names. -/
theorem nameLe_of_filter (ordered : (first :: records).Pairwise fun a b => a.nameLe b = true)
    {other : Record} (hm : other ∈ others)
    (same : ∀ name, (first :: records).filter (·.name? = name) = others.filter (·.name? = name)) :
    first.nameLe other = true := by
  have found : other ∈ (first :: records).filter (·.name? = other.name?) := by
    rw [same]
    exact List.mem_filter.mpr ⟨hm, by simp⟩
  exact nameLe_of_mem ordered (List.mem_of_mem_filter found)

/-- Two lists in order are equal when they agree on the records of each name. -/
theorem eq_of_filter (ordered : records.Pairwise fun a b => a.nameLe b = true)
    (ordered' : others.Pairwise fun a b => a.nameLe b = true)
    (same : ∀ name, records.filter (·.name? = name) = others.filter (·.name? = name)) :
    records = others := by
  induction records generalizing others with
  | nil =>
      cases others with
      | nil => rfl
      | cons other later =>
          have missing := same other.name?
          rw [List.filter_cons_of_pos (by simp)] at missing
          cases missing
  | cons first rest ih =>
      cases others with
      | nil =>
          have missing := same first.name?
          rw [List.filter_cons_of_pos (by simp)] at missing
          cases missing
      | cons other later =>
          have names_eq : first.name? = other.name? :=
            nameLe_antisymm (nameLe_of_filter ordered List.mem_cons_self same)
              (nameLe_of_filter ordered' List.mem_cons_self fun name => (same name).symm)
          have of_name := same first.name?
          rw [List.filter_cons_of_pos (by simp), List.filter_cons_of_pos (by simp [names_eq])]
            at of_name
          obtain ⟨rfl, tail_eq⟩ := List.cons.inj of_name
          rw [ih (List.pairwise_cons.mp ordered).2 (List.pairwise_cons.mp ordered').2
            fun name => ?_]
          by_cases named : first.name? = name
          · exact named ▸ tail_eq
          · have others_of_name := same name
            rwa [List.filter_cons_of_neg (by simpa using named),
              List.filter_cons_of_neg (by simpa using named)] at others_of_name

end Arrangement

namespace Catalog

variable {catalog : Catalog}

theorem canonical_sortByName (catalog : Catalog) :
    Canonical catalog.games catalog.sortByName.1.games where
  perm := catalog.perm_sortByName
  in_order := by
    rw [sortByName_fst]
    refine (pairwise_of_inNameOrder (inNameOrder_mergeSort catalog.games)).imp fun le => ?_
    exact nameLe_iff.mp le
  stable name := by
    rw [sortByName_fst]
    exact filter_mergeSort Record.name? catalog.games name

theorem canonical_iff {games : List Record} :
    Canonical catalog.games games ↔ games = catalog.sortByName.1.games := by
  constructor
  · intro canonical
    have sorted := catalog.canonical_sortByName
    refine eq_of_filter ?_ ?_ fun name => (canonical.stable name).trans (sorted.stable name).symm
    · exact canonical.in_order.imp nameLe_iff.mpr
    · exact sorted.in_order.imp nameLe_iff.mpr
  · rintro rfl
    exact catalog.canonical_sortByName

theorem sortByName_of_names_eq
    (h : catalog.sortByName.1.games.map Record.name? = catalog.games.map Record.name?) :
    catalog.sortByName.2 = false := by
  have ordered : (catalog.sortByName.1.games.map Record.name?).Pairwise fun a b =>
      nameLe a b = true :=
    List.pairwise_map.mpr (catalog.canonical_sortByName.in_order.imp fun le => nameLe_iff.mpr le)
  rw [h, List.pairwise_map] at ordered
  rw [sortByName, if_pos (inNameOrder_of_pairwise ordered)]

theorem sortByName_changed_iff :
    catalog.sortByName.2 = true ↔ catalog.sortByName.1.games ≠ catalog.games := by
  constructor
  · intro changed unchanged
    rw [sortByName_of_names_eq (congrArg _ unchanged)] at changed
    cases changed
  · intro differs
    by_contra unchanged
    rw [sortByName_of_unchanged (Bool.eq_false_iff.mpr unchanged)] at differs
    exact differs rfl

end Catalog

/-! ## What can be seen -/

theorem Record.name?_of_same {record other : Record} (h : record.same other = true)
    {name : String} (named : record.name? = some name) : other.name? = some name := by
  obtain ⟨held, found, alike⟩ := (same_fields h).2 "name" _ (get?_of_name? named)
  cases held with
  | str text =>
      rw [Value.same, beq_iff_eq] at alike
      rw [name?, found, alike]
  | _ => cases alike

/-- Where no name is lost there are as many names at least, and not more only if they are the
same. -/
theorem names_eq_of_kept {records others : List Record}
    (kept : List.Forall₂ (fun a b => ∀ name, a.name? = some name → b.name? = some name)
      records others) :
    records.countP (·.name?.isSome) ≤ others.countP (·.name?.isSome) ∧
      (others.countP (·.name?.isSome) ≤ records.countP (·.name?.isSome) →
        others.map Record.name? = records.map Record.name?) := by
  induction kept with
  | nil => simp
  | @cons record other rest later first _ ih =>
      obtain ⟨at_least, same⟩ := ih
      cases named : record.name? with
      | some name =>
          simpa [List.countP_cons, named, first name named] using And.intro at_least same
      | none =>
          cases named' : other.name? with
          | none => simpa [List.countP_cons, named, named'] using And.intro at_least same
          | some name =>
              simp only [List.countP_cons, named, named', Option.isSome_some, Option.isSome_none,
                if_true, Bool.false_eq_true, if_false]
              exact ⟨by omega, fun at_most => by omega⟩

namespace Catalog

variable {catalog : Catalog}

theorem sortByName_visible (changed : catalog.sortByName.2 = true) :
    catalog.same catalog.sortByName.1 = false := by
  rw [Bool.eq_false_iff]
  intro equal
  simp only [same, Bool.and_eq_true, beq_iff_eq, List.all_eq_true] at equal
  have kept : List.Forall₂ (fun a b => ∀ name, a.name? = some name → b.name? = some name)
      catalog.games catalog.sortByName.1.games :=
    List.forall₂_iff_zip.mpr ⟨equal.1.1.2, fun paired _ named =>
      Record.name?_of_same (equal.1.2 _ paired) named⟩
  have as_many := (catalog.perm_sortByName.countP_eq (·.name?.isSome)).le
  rw [sortByName_of_names_eq ((names_eq_of_kept kept).2 as_many)] at changed
  cases changed

/-- Sorting gives the one canonical arrangement of the records and leaves the rest of the catalog.
It reports a change exactly when there is one, which everyone can see, and then there is nothing
left to sort. The bytes of the names are in the same order as their characters. -/
theorem sortByName_isCanonical (catalog : Catalog) :
    (∀ games, Canonical catalog.games games ↔ games = catalog.sortByName.1.games) ∧
    catalog.sortByName.1.version = catalog.version ∧
    catalog.sortByName.1.extra = catalog.extra ∧
    (catalog.sortByName.2 = true ↔ catalog.sortByName.1.games ≠ catalog.games) ∧
    (catalog.sortByName.2 = true → catalog.same catalog.sortByName.1 = false) ∧
    catalog.sortByName.1.sortByName = (catalog.sortByName.1, false) ∧
    ∀ name other, NameBefore (some name) (some other) ↔
      List.Lex (· < ·) (Text.utf8 name) (Text.utf8 other) := by
  refine ⟨fun _ => canonical_iff, ?_, ?_, sortByName_changed_iff, sortByName_visible,
    catalog.sortByName_sortByName, fun name other => nameBefore_iff_utf8⟩
  · rw [sortByName_fst]
  · rw [sortByName_fst]

/-- A name of a character that takes four bytes, two records of one that takes three, a record with
null as its name, one without a name, and one with an empty name. -/
def wideNames : List Record :=
  [⟨[("name", .str "😀")]⟩, ⟨[("uid", .null), ("name", .str "～")]⟩, ⟨[("name", .null)]⟩,
    ⟨[("name", .str "～")]⟩, ⟨[("rules", .arr [])]⟩, ⟨[("name", .str "")]⟩]

/-- The records without a name come first, and those of one name stay as they were. -/
theorem sortByName_isCanonical_wideNames :
    let catalog := Catalog.new ⟨2024, 1, 0⟩ wideNames
    let sorted : List Record :=
      [⟨[("name", .null)]⟩, ⟨[("rules", .arr [])]⟩, ⟨[("name", .str "")]⟩,
        ⟨[("uid", .null), ("name", .str "～")]⟩, ⟨[("name", .str "～")]⟩, ⟨[("name", .str "😀")]⟩]
    catalog.sortByName.2 = true ∧ catalog.sortByName.1.games = sorted ∧
      Canonical wideNames sorted ∧ catalog.same catalog.sortByName.1 = false := by
  intro catalog sorted
  obtain ⟨canonical_iff, -, -, -, visible, -⟩ := sortByName_isCanonical catalog
  have changed : catalog.sortByName.2 = true := by rfl
  have games_eq : catalog.sortByName.1.games = sorted := by
    simp [catalog, sorted, wideNames, Catalog.new, sortByName_fst, List.mergeSort, Record.nameLe,
      nameLe, Record.name?, Record.get?, Members.get?]
  exact ⟨changed, games_eq, (canonical_iff sorted).mpr games_eq.symm, visible changed⟩

end Catalog

end GameCatalog
