import GameCatalog.Proofs.Carry
import GameCatalog.Proofs.ReorderedGames
import GameCatalog.Proofs.TableFaults

/-!
# Which values are carried

Carrying a field fails where one of the catalogs has no table of its resolved uids, and the fault of
the old catalog comes first. Otherwise a record whose uid the old catalog has takes the value that
the field has there, unless that is null, and nothing else changes. The order of the old records
makes no difference.
-/

namespace GameCatalog

open Json

theorem Json.Value.isNull_eq_false_iff {value : Value} : value.isNull = false ↔ value ≠ .null := by
  cases value <;> simp [Value.isNull]

namespace Catalog

/-- The old catalog has a record of the same uid with that value in the field, which is not null. -/
def Offers (old : Catalog) (field : String) (record : Record) (value : Value) : Prop :=
  ∃ uid source, record.uid = .ok (.resolved uid) ∧ old.Holds uid source ∧
    source.get? field = some value ∧ value ≠ .null

def Lacks (old : Catalog) (record : Record) : Prop :=
  ∃ uid, record.uid = .ok (.resolved uid) ∧ ∀ source, ¬old.Holds uid source

/-- What becomes of a record: it takes the value that the old catalog offers, if there is one. -/
inductive Gives (old : Catalog) (field : String) : Record → Record → Prop where
  | taken {record later : Record} {value : Value} (offered : old.Offers field record value)
      (stored : record.Stores field value later) : Gives old field record later
  | kept {record : Record} (unoffered : ∀ value, ¬old.Offers field record value) :
      Gives old field record record

open Classical in
/-- What carrying a field from the old catalog makes of the new one, and what is counted. -/
structure CarriesTo (old : Catalog) (field : String) (new result : Catalog)
    (report : CarryReport) : Prop where
  version : result.version = new.version
  extra : result.extra = new.extra
  games : List.Forall₂ (old.Gives field) new.games result.games
  carried : report.carried = new.games.countP fun record => ∃ value, old.Offers field record value
  unmatched : report.unmatched = new.games.countP fun record => old.Lacks record

variable {old new other : Catalog} {table : UidTable} {field : String} {record : Record}

/-! ## One record -/

theorem offers_iff (h : old.uidTable .resolved = .ok table) {value : Value} :
    old.Offers field record value ↔
      ∃ uid, Transfer.of table field record = .carried uid value := by
  simp only [Offers, Transfer.of_eq_carried_iff, ← (lists_uidTable h).finds,
    Record.uid_eq_resolved_iff, Value.isNull_eq_false_iff, exists_and_left]

theorem lacks_iff (h : old.uidTable .resolved = .ok table) (field : String) :
    old.Lacks record ↔ Transfer.of table field record = .unmatched := by
  simp only [Lacks, Transfer.of_eq_unmatched_iff, ← (lists_uidTable h).finds,
    Record.uid_eq_resolved_iff, Option.eq_none_iff_forall_ne_some, ne_eq]

theorem gives_carriedFrom (h : old.uidTable .resolved = .ok table) (field : String)
    (record : Record) : old.Gives field record (record.carriedFrom table field) := by
  unfold Record.carriedFrom
  cases decided : Transfer.of table field record with
  | carried uid value =>
      exact .taken ((offers_iff h).mpr ⟨uid, decided⟩) (record.stores_set field value)
  | unkeyed | unmatched | nothing =>
      refine .kept fun value offered => ?_
      obtain ⟨uid, taken⟩ := (offers_iff h).mp offered
      rw [decided] at taken
      cases taken

theorem isCarried_iff (h : old.uidTable .resolved = .ok table) :
    (Transfer.of table field record).isCarried = true ↔
      ∃ value, old.Offers field record value := by
  simp only [offers_iff h]
  cases Transfer.of table field record <;> simp [Transfer.isCarried]

theorem isUnmatched_iff (h : old.uidTable .resolved = .ok table) :
    (Transfer.of table field record).isUnmatched = true ↔ old.Lacks record := by
  rw [lacks_iff h field]
  cases Transfer.of table field record <;> simp [Transfer.isUnmatched]

/-! ## The catalog -/

theorem answer_carry_eq_error_iff {fault : RecordFault} :
    (old.carry new field).answer = .error fault ↔
      old.uidTable .resolved = .error fault ∨
        (∃ table, old.uidTable .resolved = .ok table) ∧
          new.uidTable .resolved = .error fault := by
  cases ho : old.uidTable .resolved with
  | error found => simp [carry, ho, Edit.refuse]
  | ok table =>
      cases hn : new.uidTable .resolved with
      | error found => simp [carry, ho, hn, Edit.refuse]
      | ok newTable => simp [carry_of_tables ho hn]

theorem catalog_carry_of_error {fault : RecordFault}
    (failed : (old.carry new field).answer = .error fault) :
    (old.carry new field).catalog = new := by
  rcases old.carry_cases new field with ⟨found, refused⟩ | ⟨_, _, -, -, carried⟩
  · rw [refused]
    rfl
  · rw [carried] at failed
    cases failed

theorem carriesTo_carry {report : CarryReport}
    (h : (old.carry new field).answer = .ok report) :
    old.CarriesTo field new (old.carry new field).catalog report := by
  rcases old.carry_cases new field with ⟨found, refused⟩ | ⟨table, _, ho, -, carried⟩
  · rw [refused] at h
    cases h
  · rw [carried] at h ⊢
    obtain rfl := Except.ok.inj h
    refine ⟨rfl, rfl, ?_, ?_, ?_⟩
    · exact List.forall₂_map_right_iff.mpr
        (List.forall₂_same.mpr fun record _ => gives_carriedFrom ho field record)
    · simp only [CarryReport.ofTransfers, List.countP_map]
      exact List.countP_congr fun record _ => by simp [isCarried_iff ho]
    · simp only [CarryReport.ofTransfers, List.countP_map]
      exact List.countP_congr fun record _ => by simp [isUnmatched_iff ho]

/-- The old catalog is looked at through its table only. -/
theorem carry_congr (h : old.uidTable .resolved = other.uidTable .resolved) (new : Catalog)
    (field : String) : old.carry new field = other.carry new field := by
  unfold carry
  rw [h]

theorem carry_of_perm (h : old.games.Perm other.games) {report : CarryReport}
    (succeeds : (old.carry new field).answer = .ok report) :
    other.carry new field = old.carry new field := by
  rcases old.carry_cases new field with ⟨fault, refused⟩ | ⟨table, _, ho, -, -⟩
  · rw [refused] at succeeds
    cases succeeds
  · exact carry_congr ((uidTable_of_perm h ho).trans ho.symm) new field

theorem carry_reordered (h : old.games.Perm other.games) (new : Catalog) (field : String) :
    (other.carry new field).catalog = (old.carry new field).catalog ∧
      ∀ report, (other.carry new field).answer = .ok report ↔
        (old.carry new field).answer = .ok report := by
  have same_report : ∀ report, (other.carry new field).answer = .ok report ↔
      (old.carry new field).answer = .ok report := by
    intro report
    constructor
    · intro succeeds
      rwa [carry_of_perm h.symm succeeds]
    · intro succeeds
      rwa [carry_of_perm h succeeds]
  refine ⟨?_, same_report⟩
  cases answered : (old.carry new field).answer with
  | ok report => rw [carry_of_perm h answered]
  | error fault =>
      cases answered' : (other.carry new field).answer with
      | ok report =>
          rw [(same_report report).mp answered'] at answered
          cases answered
      | error fault' => rw [catalog_carry_of_error answered, catalog_carry_of_error answered']

/-- Carrying a field fails exactly with the fault of the old catalog or else of the new one, which
then stays as it was. Otherwise the records that are offered a value take it and all else is kept,
and both counts are exact. The order of the old records is of no account. -/
theorem carry_isExact (old new : Catalog) (field : String) :
    (∀ fault, (old.carry new field).answer = .error fault ↔
      old.uidTable .resolved = .error fault ∨
        (∃ table, old.uidTable .resolved = .ok table) ∧
          new.uidTable .resolved = .error fault) ∧
    (∀ fault, (old.carry new field).answer = .error fault →
      (old.carry new field).catalog = new) ∧
    (∀ report, (old.carry new field).answer = .ok report →
      old.CarriesTo field new (old.carry new field).catalog report) ∧
    ∀ other : Catalog, old.games.Perm other.games →
      (other.carry new field).catalog = (old.carry new field).catalog ∧
        ∀ report, (other.carry new field).answer = .ok report ↔
          (old.carry new field).answer = .ok report :=
  ⟨fun _ => answer_carry_eq_error_iff, fun _ => catalog_carry_of_error,
    fun _ => carriesTo_carry, fun _ h => carry_reordered h new field⟩

/-- Go and Hex have a komi, and that of Chess is null. -/
def curatedKomi : Catalog :=
  .new ⟨2024, 1, 0⟩
    [⟨[("uid", .num (.int 31 (by decide))), ("name", .str "Go"), ("komi", .str "6.5")]⟩,
      ⟨[("uid", .num (.int 32 (by decide))), ("name", .str "Chess"), ("komi", .null)]⟩,
      ⟨[("uid", .num (.int 33 (by decide))), ("name", .str "Hex"), ("komi", .arr [])]⟩]

/-- The same games under other names, one of them with a komi, and two games that are not there. -/
def regenerated : Catalog :=
  .new ⟨2024, 2, 0⟩
    [⟨[("name", .str "Nash"), ("uid", .num (.int 33 (by decide)))]⟩,
      ⟨[("komi", .bool true), ("uid", .num (.int 32 (by decide)))]⟩,
      ⟨[("uid", .num (.int 31 (by decide))), ("komi", .null), ("name", .str "Weiqi")]⟩,
      ⟨[("uid", .num (.int 34 (by decide)))]⟩, ⟨[("name", .str "Go")]⟩]

/-- Nash gets the komi behind its fields and Weiqi in place of null, from the old records in either
order. With a uid that is a text at the end of the new records nothing is carried. -/
theorem carry_isExact_regenerated :
    let carried := curatedKomi.carry regenerated "komi"
    let turned := Catalog.new ⟨2023, 1, 0⟩ curatedKomi.games.reverse
    let textual : Record := ⟨[("uid", .str "five")]⟩
    let faulty := Catalog.new ⟨2024, 3, 0⟩ (regenerated.games ++ [textual])
    carried.answer = .ok ⟨2, 1⟩ ∧
      curatedKomi.CarriesTo "komi" regenerated carried.catalog ⟨2, 1⟩ ∧
      carried.catalog.games.map (·.fields.names) = [["name", "uid", "komi"], ["komi", "uid"],
        ["uid", "komi", "name"], ["uid"], ["name"]] ∧
      curatedKomi.games.Perm turned.games ∧
      (turned.carry regenerated "komi").catalog = carried.catalog ∧
      (turned.carry regenerated "komi").answer = .ok ⟨2, 1⟩ ∧
      (curatedKomi.carry faulty "komi").answer =
        .error (.invalidUid "<unnamed>" (.str "five")) ∧
      (curatedKomi.carry faulty "komi").catalog = faulty := by
  intro carried turned textual faulty
  obtain ⟨-, -, carries, reordered⟩ := carry_isExact curatedKomi regenerated "komi"
  obtain ⟨fails, unchanged, -, -⟩ := carry_isExact curatedKomi faulty "komi"
  have succeeds : carried.answer = .ok ⟨2, 1⟩ := by rfl
  have turned_perm : curatedKomi.games.Perm turned.games := curatedKomi.games.reverse_perm.symm
  obtain ⟨same_catalog, same_report⟩ := reordered turned turned_perm
  have failed : (curatedKomi.carry faulty "komi").answer =
      .error (.invalidUid "<unnamed>" (.str "five")) := (fails _).mpr (.inr ⟨⟨_, rfl⟩, rfl⟩)
  exact ⟨succeeds, carries _ succeeds, by rfl, turned_perm, same_catalog,
    (same_report _).mpr succeeds, failed, unchanged _ failed⟩

end Catalog

end GameCatalog
