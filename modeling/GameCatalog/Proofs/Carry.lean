import GameCatalog.Catalog.Carry
import GameCatalog.Proofs.Except
import GameCatalog.Proofs.UidTable

/-!
# Carrying a field as a rewriting of records

Where both catalogs can be indexed, carrying a field rewrites each record of the new catalog by
itself: a record whose uid the old catalog has takes the old value, unless that is null. Anything
else leaves the new catalog as it was.
-/

namespace GameCatalog

open Json

namespace Transfer

def of (old : UidTable) (field : String) (record : Record) : Transfer :=
  match record.resolved? with
  | none => .unkeyed
  | some uid =>
      match old.find? uid with
      | none => .unmatched
      | some source =>
          match source.get? field with
          | some value => if value.isNull then .nothing else .carried uid value
          | none => .nothing

theorem of_eq_carried_iff {old : UidTable} {field : String} {record : Record} {uid : Uid}
    {value : Value} :
    of old field record = .carried uid value ↔
      record.resolved? = some uid ∧ ∃ source, old.find? uid = some source ∧
        source.get? field = some value ∧ value.isNull = false := by
  grind [of]

theorem of_eq_unmatched_iff {old : UidTable} {field : String} {record : Record} :
    of old field record = .unmatched ↔
      ∃ uid, record.resolved? = some uid ∧ old.find? uid = none := by
  grind [of]

theorem decide_of_uid_ok {record : Record} {state : UidField} (h : record.uid = .ok state)
    (old : UidTable) (field : String) : decide old field record = .ok (of old field record) := by
  have hr := Record.resolved?_of_uid h
  cases state with
  | resolved uid =>
      simp only [decide, of, h, hr, UidField.resolved?]
      cases old.find? uid with
      | none => rfl
      | some source =>
          cases hg : source.get? field <;> simp [hg]
  | _ => simp [decide, of, h, hr, UidField.resolved?]

theorem decideAll_of_uids_ok {records : List Record}
    (h : ∀ record ∈ records, ∃ state, record.uid = .ok state) (old : UidTable)
    (field : String) : decideAll old field records = .ok (records.map (of old field)) := by
  induction records with
  | nil => rfl
  | cons record rest ih =>
      obtain ⟨state, hs⟩ := h record List.mem_cons_self
      have hrest := ih fun other hm => h other (List.mem_cons_of_mem _ hm)
      simp [decideAll, decide_of_uid_ok hs, hrest]

end Transfer

namespace Record

/-- The record after it took its value from the old records. -/
def carriedFrom (old : UidTable) (field : String) (record : Record) : Record :=
  (Transfer.of old field record).apply field record

/-- A record is either left as it is or takes the value that the old record of its uid holds. -/
theorem carriedFrom_cases (old : UidTable) (field : String) (record : Record) :
    record.carriedFrom old field = record ∨
    ∃ uid source value, record.resolved? = some uid ∧ old.find? uid = some source ∧
      source.get? field = some value ∧ value.isNull = false ∧
      record.carriedFrom old field = record.set field value := by
  unfold carriedFrom
  cases decided : Transfer.of old field record with
  | carried uid value =>
      obtain ⟨hr, source, hf, hg, hn⟩ := Transfer.of_eq_carried_iff.mp decided
      exact .inr ⟨uid, source, value, hr, hf, hg, hn, rfl⟩
  | unkeyed | unmatched | nothing => exact .inl rfl

theorem resolved?_carriedFrom {old : Catalog} {coverage : Coverage} {table : UidTable}
    (h : old.uidTable coverage = .ok table) (field : String) (record : Record) :
    (record.carriedFrom table field).resolved? = record.resolved? := by
  rcases carriedFrom_cases table field record with hc | ⟨uid, source, value, hr, hf, hg, -, hc⟩
  · rw [hc]
  · rw [hc]
    by_cases hu : field = "uid"
    · subst hu
      obtain ⟨-, hs⟩ := Catalog.mem_of_find?_uidTable h hf
      rw [resolved?_eq_bind source, hg] at hs
      rw [resolved?_set_uid, hr]
      exact hs
    · rw [resolved?_set_of_ne hu]

theorem name?_carriedFrom {field : String} (h : field ≠ "name") (table : UidTable)
    (record : Record) : (record.carriedFrom table field).name? = record.name? := by
  rcases carriedFrom_cases table field record with hc | ⟨_, _, value, -, -, -, -, hc⟩
  · rw [hc]
  · rw [hc]
    exact name?_congr (get?_set_of_ne h.symm record value)

/-- Carrying keeps what a valid `uid` field says. -/
theorem uid_carriedFrom {old : Catalog} {coverage : Coverage} {table : UidTable}
    (h : old.uidTable coverage = .ok table) (field : String) {record : Record} {state : UidField}
    (hu : record.uid = .ok state) : (record.carriedFrom table field).uid = .ok state := by
  have hr := resolved?_of_uid hu
  cases state with
  | resolved uid =>
      rw [uid_eq_resolved_iff, resolved?_carriedFrom h, hr]
      rfl
  | _ =>
      rcases carriedFrom_cases table field record with hc | ⟨uid, -, -, hs, -⟩
      · rw [hc, hu]
      · rw [hr] at hs
        cases hs

end Record

namespace Catalog

/-- Carrying succeeds where both catalogs can be indexed. -/
theorem carry_of_tables {old new : Catalog} {table newTable : UidTable}
    (ho : old.uidTable .resolved = .ok table) (hn : new.uidTable .resolved = .ok newTable)
    (field : String) :
    old.carry new field =
      { catalog := { new with games := new.games.map (·.carriedFrom table field) }
        answer := .ok (.ofTransfers (new.games.map (Transfer.of table field)))
        events := (new.games.map (Transfer.of table field)).filterMap
          (Transfer.event? field) } := by
  have hd := Transfer.decideAll_of_uids_ok (uid_ok_of_tabulate hn) table field
  simp only [carry, ho, hn, hd, List.zipWith_map_right, List.zipWith_self]
  rfl

/-- Carrying either is refused and changes nothing, or rewrites each record by itself. -/
theorem carry_cases (old new : Catalog) (field : String) :
    (∃ fault, old.carry new field = .refuse new fault) ∨
    ∃ table newTable, old.uidTable .resolved = .ok table ∧
      new.uidTable .resolved = .ok newTable ∧
      old.carry new field =
        { catalog := { new with games := new.games.map (·.carriedFrom table field) }
          answer := .ok (.ofTransfers (new.games.map (Transfer.of table field)))
          events := (new.games.map (Transfer.of table field)).filterMap
            (Transfer.event? field) } := by
  cases ho : old.uidTable .resolved with
  | error fault => exact .inl ⟨fault, by simp [carry, ho]⟩
  | ok table =>
      cases hn : new.uidTable .resolved with
      | error fault => exact .inl ⟨fault, by simp [carry, ho, hn]⟩
      | ok newTable => exact .inr ⟨table, newTable, rfl, rfl, carry_of_tables ho hn field⟩

end Catalog

/-! ## Carrying again -/

namespace Record

/-- What a record takes depends on its resolved uid, which carrying keeps, so it takes the same
value again. -/
theorem transfer_carriedFrom {old : Catalog} {coverage : Coverage} {table : UidTable}
    (h : old.uidTable coverage = .ok table) (field : String) (record : Record) :
    Transfer.of table field (record.carriedFrom table field) = Transfer.of table field record := by
  unfold Transfer.of
  rw [resolved?_carriedFrom h]

theorem carriedFrom_carriedFrom {old : Catalog} {coverage : Coverage} {table : UidTable}
    (h : old.uidTable coverage = .ok table) (field : String) (record : Record) :
    (record.carriedFrom table field).carriedFrom table field = record.carriedFrom table field := by
  rw [carriedFrom, transfer_carriedFrom h, carriedFrom]
  cases Transfer.of table field record with
  | carried uid value => exact record.set_set field value value
  | _ => rfl

end Record

namespace Catalog

/-- Carrying twice is carrying once, with the same report. -/
theorem carry_carry (old new : Catalog) (field : String) :
    old.carry (old.carry new field).catalog field = old.carry new field := by
  rcases old.carry_cases new field with ⟨fault, h⟩ | ⟨table, newTable, ho, hn, h⟩
  · rw [h]
    exact h
  · have hn' : uidTable .resolved { new with games := new.games.map (·.carriedFrom table field) } =
        .ok (newTable.mapRecords (·.carriedFrom table field)) :=
      tabulate_map hn fun record _ state hu => Record.uid_carriedFrom ho field hu
    rw [h, carry_of_tables ho hn' field]
    simp only [List.map_map, Function.comp_def, Record.carriedFrom_carriedFrom ho,
      Record.transfer_carriedFrom ho]

/-- From itself a catalog takes only values that it has. -/
theorem catalog_carry_self (catalog : Catalog) (field : String) :
    (catalog.carry catalog field).catalog = catalog := by
  rcases catalog.carry_cases catalog field with ⟨fault, h⟩ | ⟨table, _, ho, -, h⟩
  · rw [h]
    rfl
  · have unchanged : ∀ record ∈ catalog.games, record.carriedFrom table field = record := by
      intro record hm
      rcases Record.carriedFrom_cases table field record with
        he | ⟨uid, source, value, hr, hf, hg, -, he⟩
      · exact he
      · have found := (ascending_uidTable ho).find?_eq_some_iff.mpr
          ((mem_uidTable_iff ho).mpr ⟨hm, hr⟩)
        obtain rfl : source = record := Option.some.inj (hf.symm.trans found)
        rw [he, Record.set_of_get? hg]
    rw [h]
    simp [List.map_congr_left unchanged]

end Catalog

end GameCatalog
