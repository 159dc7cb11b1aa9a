import GameCatalog.Proofs.Agreement

/-!
# Revisions by way of another catalog

Whatever a revision reports shows in one of its two steps when a third catalog is put in between,
except for records that the third catalog lacks: these go in the first step and come back in the
second.
-/

namespace GameCatalog

open Json

namespace Revision

/-- The record of a uid is updated with a change of the field; a renaming is about `name`. -/
def Describes (revision : Revision) (uid : Uid) (field : String) : Prop :=
  ∃ update ∈ revision.updated, update.uid = uid ∧
    ∃ change ∈ update.changes, change.field = field

section Tables

variable {first middle last : Catalog} {firstTable middleTable lastTable : UidTable}
  {uid : Uid} {field : String}

/-- A field is described where both tables have the uid and the two records do not agree there. -/
theorem describes_ofTables_iff (last_distinct : last.Distinct)
    (hlast : last.uidTable .every = .ok lastTable) :
    (ofTables firstTable lastTable).Describes uid field ↔
      ∃ old new, firstTable.find? uid = some old ∧ lastTable.find? uid = some new ∧
        old.agreesAt new field = false := by
  have ascending := Catalog.ascending_uidTable hlast
  constructor
  · rintro ⟨update, hm, rfl, hchange⟩
    obtain ⟨hold, hnew, hchanges, -⟩ := (mem_updated_iff ascending).mp hm
    have names_nodup := (last_distinct.of_find? hlast hnew).names_nodup
    rw [hchanges, Record.exists_change_iff names_nodup] at hchange
    exact ⟨update.old, update.new, hold, hnew, hchange⟩
  · rintro ⟨old, new, hold, hnew, differs⟩
    have names_nodup := (last_distinct.of_find? hlast hnew).names_nodup
    have hchange := (Record.exists_change_iff names_nodup).mpr differs
    have nonempty : old.changes new ≠ [] := by
      obtain ⟨change, hc, -⟩ := hchange
      exact List.ne_nil_of_mem hc
    exact ⟨⟨uid, old, new, old.changes new⟩,
      (mem_updated_iff ascending).mpr ⟨hold, hnew, rfl, nonempty⟩, rfl, hchange⟩

/-- A field that is described across two steps is described in one of them, unless the record is
not there in between. -/
theorem describes_step (first_distinct : first.Distinct) (middle_distinct : middle.Distinct)
    (last_distinct : last.Distinct) (hfirst : first.uidTable .every = .ok firstTable)
    (hmiddle : middle.uidTable .every = .ok middleTable)
    (hlast : last.uidTable .every = .ok lastTable)
    (h : (ofTables firstTable lastTable).Describes uid field) :
    uid ∈ (ofTables firstTable middleTable).removed.uids ∧
        uid ∈ (ofTables middleTable lastTable).added.uids ∨
      (ofTables firstTable middleTable).Describes uid field ∨
      (ofTables middleTable lastTable).Describes uid field := by
  obtain ⟨old, new, hold, hnew, differs⟩ := (describes_ofTables_iff last_distinct hlast).mp h
  cases hm : middleTable.find? uid with
  | none =>
      have missing := UidTable.find?_eq_none_iff.mp hm
      have gone := uids_missingFrom.mpr ⟨UidTable.mem_uids_of_find? hold, missing⟩
      have back := uids_missingFrom.mpr ⟨UidTable.mem_uids_of_find? hnew, missing⟩
      exact .inl ⟨gone, back⟩
  | some between =>
      right
      rw [describes_ofTables_iff middle_distinct hmiddle,
        describes_ofTables_iff last_distinct hlast]
      cases earlier : old.agreesAt between field with
      | false => exact .inl ⟨old, between, hold, hm, earlier⟩
      | true =>
          cases later : between.agreesAt new field with
          | false => exact .inr ⟨between, new, hm, hnew, later⟩
          | true =>
              have whole := Record.agreesAt_trans (first_distinct.of_find? hfirst hold)
                (middle_distinct.of_find? hmiddle hm) (last_distinct.of_find? hlast hnew)
                earlier later
              rw [whole] at differs
              cases differs

end Tables

/-- No change is lost when a revision is taken in two steps. -/
theorem between_through {first middle last : Catalog} (first_distinct : first.Distinct)
    (middle_distinct : middle.Distinct) (last_distinct : last.Distinct)
    (first_keyed : first.Keyed) (middle_keyed : middle.Keyed) (last_keyed : last.Keyed) :
    ∃ earlier later whole, between first middle = .ok earlier ∧ between middle last = .ok later ∧
      between first last = .ok whole ∧
      (∀ uid ∈ whole.added.uids, uid ∈ earlier.added.uids ∨ uid ∈ later.added.uids) ∧
      (∀ uid ∈ whole.removed.uids, uid ∈ earlier.removed.uids ∨ uid ∈ later.removed.uids) ∧
      ∀ uid field, whole.Describes uid field →
        uid ∈ earlier.removed.uids ∧ uid ∈ later.added.uids ∨
          earlier.Describes uid field ∨ later.Describes uid field := by
  obtain ⟨firstTable, hfirst⟩ := first_keyed
  obtain ⟨middleTable, hmiddle⟩ := middle_keyed
  obtain ⟨lastTable, hlast⟩ := last_keyed
  refine ⟨ofTables firstTable middleTable, ofTables middleTable lastTable,
    ofTables firstTable lastTable,
    between_eq_ok_iff.mpr ⟨_, _, hfirst, hmiddle, rfl⟩,
    between_eq_ok_iff.mpr ⟨_, _, hmiddle, hlast, rfl⟩,
    between_eq_ok_iff.mpr ⟨_, _, hfirst, hlast, rfl⟩, ?_, ?_, ?_⟩
  · intro uid hm
    simp only [ofTables, uids_missingFrom] at hm ⊢
    by_cases held : uid ∈ middleTable.uids
    · exact .inl ⟨held, hm.2⟩
    · exact .inr ⟨hm.1, held⟩
  · intro uid hm
    simp only [ofTables, uids_missingFrom] at hm ⊢
    by_cases held : uid ∈ middleTable.uids
    · exact .inr ⟨held, hm.2⟩
    · exact .inl ⟨hm.1, held⟩
  · intro uid field h
    exact describes_step first_distinct middle_distinct last_distinct hfirst hmiddle hlast h

def sized (uid : Uid) (name : String) (size : Value) : Record :=
  ⟨[("uid", .num uid.toNumber), ("name", .str name), ("size", size)]⟩

theorem distinct_sized (uid : Uid) (name : String) {size : Value} (h : size.Distinct) :
    (sized uid name size).Distinct := by
  simp [sized, Record.Distinct, h]

/-- In the middle Go has another size and Hex is missing; in the end Go keeps that size, Hex is back
under another name, and Chess is new. -/
theorem between_through_hexComesBack :
    let go : Uid := ⟨7, by decide⟩
    let hex : Uid := ⟨9, by decide⟩
    let chess : Uid := ⟨8, by decide⟩
    let first := Catalog.new ⟨2024, 1, 0⟩ [sized hex "Hex" .null, sized go "Go" (.bool false)]
    let middle := Catalog.new ⟨2024, 2, 0⟩ [sized go "Go" (.bool true)]
    let last := Catalog.new ⟨2024, 3, 0⟩
      [sized chess "Chess" .null, sized go "Go" (.bool true), sized hex "Con-tac-tix" .null]
    first.Distinct ∧ middle.Distinct ∧ last.Distinct ∧ first.Keyed ∧ middle.Keyed ∧ last.Keyed ∧
      ∃ earlier later whole, between first middle = .ok earlier ∧
        between middle last = .ok later ∧ between first last = .ok whole ∧
        chess ∈ whole.added.uids ∧ (chess ∈ earlier.added.uids ∨ chess ∈ later.added.uids) ∧
        whole.Describes go "size" ∧ whole.Describes hex "name" ∧
        ∀ uid field, whole.Describes uid field →
          uid ∈ earlier.removed.uids ∧ uid ∈ later.added.uids ∨
            earlier.Describes uid field ∨ later.Describes uid field := by
  intro go hex chess first middle last
  have first_distinct : first.Distinct := List.forall_mem_cons.mpr
    ⟨distinct_sized _ _ .null, List.forall_mem_singleton.mpr (distinct_sized _ _ (.bool _))⟩
  have middle_distinct : middle.Distinct :=
    List.forall_mem_singleton.mpr (distinct_sized _ _ (.bool _))
  have last_distinct : last.Distinct := List.forall_mem_cons.mpr
    ⟨distinct_sized _ _ .null, List.forall_mem_cons.mpr
      ⟨distinct_sized _ _ (.bool _), List.forall_mem_singleton.mpr (distinct_sized _ _ .null)⟩⟩
  have first_keyed : first.Keyed := ⟨_, rfl⟩
  have middle_keyed : middle.Keyed := ⟨_, rfl⟩
  have last_keyed : last.Keyed := ⟨_, rfl⟩
  obtain ⟨earlier, later, whole, hearlier, hlater, hwhole, added, -, described⟩ :=
    between_through first_distinct middle_distinct last_distinct first_keyed middle_keyed last_keyed
  have whole_eq : whole = ⟨[(chess, sized chess "Chess" .null)], [],
      [⟨go, sized go "Go" (.bool false), sized go "Go" (.bool true), [.changed "size"]⟩,
        ⟨hex, sized hex "Hex" .null, sized hex "Con-tac-tix" .null,
          [.renamed "Hex" "Con-tac-tix"]⟩]⟩ :=
    (Except.ok.inj (hwhole.symm.trans rfl))
  subst whole_eq
  have chess_added : chess ∈ UidTable.uids [(chess, sized chess "Chess" .null)] :=
    List.mem_cons_self
  refine ⟨first_distinct, middle_distinct, last_distinct, first_keyed, middle_keyed, last_keyed,
    earlier, later, _, hearlier, hlater, hwhole, chess_added, added chess chess_added, ?_, ?_,
    described⟩
  · exact ⟨_, List.mem_cons_self, rfl, _, List.mem_cons_self, rfl⟩
  · exact ⟨_, List.mem_cons_of_mem _ List.mem_cons_self, rfl, _, List.mem_cons_self, rfl⟩

end Revision

end GameCatalog
