import GameCatalog.Proofs.Except
import GameCatalog.Proofs.InvalidUid
import GameCatalog.Proofs.Registry
import Mathlib.Data.Finset.Card

/-!
# What an authority binds

A catalog gives a registry unless one of its named records has an invalid uid. The registry binds a
name to the uid of the first record that has the name and a uid, and nothing else, so records that
are added behind the others take no name from them.
-/

namespace GameCatalog

open Json

namespace Record

variable {record : Record} {records : List Record} {name : String} {uid : Uid}

structure Bears (record : Record) (name : String) : Prop where
  held : record.get? "name" = some (.str name)
  nonempty : name ≠ ""

structure Binds (record : Record) (name : String) (uid : Uid) : Prop where
  named : record.Bears name
  keyed : record.uid = .ok (.resolved uid)

/-- Of the records that have the name and a uid the first one has that uid. -/
def FirstBinds (records : List Record) (name : String) (uid : Uid) : Prop :=
  ∃ before record after, records = before ++ record :: after ∧ record.Binds name uid ∧
    ∀ other ∈ before, ∀ found, ¬other.Binds name found

theorem bears_iff : record.Bears name ↔ record.usableName? = some name := by
  constructor
  · rintro ⟨held, nonempty⟩
    exact usableName?_of_name (by rw [name?, held]) nonempty
  · intro usable
    refine ⟨get?_of_name? (name?_of_usableName? usable), ?_⟩
    simpa using (Option.filter_eq_some_iff.mp usable).2

theorem binds_iff : record.Binds name uid ↔ record.uidFor? name = some uid := by
  rw [uidFor?_eq_some_iff, ← bears_iff, ← uid_eq_resolved_iff]
  exact ⟨fun ⟨named, keyed⟩ => ⟨named, keyed⟩, fun ⟨named, keyed⟩ => ⟨named, keyed⟩⟩

theorem firstBinds_iff :
    FirstBinds records name uid ↔ (records.findSome? (·.uidFor? name)) = some uid := by
  simp only [List.findSome?_eq_some_iff, FirstBinds, binds_iff, Option.eq_none_iff_forall_ne_some,
    ne_eq]

end Record

namespace Registry

variable {registry result : Registry} {records more : List Record} {record : Record}
  {name : String} {uid : Uid} {fault : RecordFault}

/-! ## Faults -/

theorem exists_learn {field : UidField} (state : record.uid = .ok field) (registry : Registry) :
    ∃ next events, registry.learn record = .ok (next, events) := by
  unfold learn
  rw [state]
  split
  next => exact ⟨_, _, rfl⟩
  next known _ =>
    cases field with
    | absent | unresolved => exact ⟨_, _, rfl⟩
    | resolved uid => cases registry.lookup known <;> exact ⟨_, _, rfl⟩

/-- What is known already has no part in the fault. -/
theorem learnAll_eq_error_iff :
    (registry.learnAll records).1 = .error fault ↔
      Record.FirstInvalid (records.filter (·.usableName?.isSome)) fault := by
  induction records generalizing registry with
  | nil => simp [learnAll, Record.FirstInvalid]
  | cons record rest ih =>
      cases named : record.usableName? with
      | none =>
          rw [List.filter_cons_of_neg (by simp [named]), ← @ih registry]
          simp [learnAll, learn, named]
      | some known =>
          rw [List.filter_cons_of_pos (by simp [named]), Record.firstInvalid_cons_iff]
          cases state : record.uid with
          | error found => simp [learnAll, learn, named, state]
          | ok field =>
              obtain ⟨next, events, learnt⟩ := exists_learn state registry
              simp [learnAll, learnt, ih]

theorem exists_ofCatalog_error_iff {authority : Catalog} :
    (∃ fault, (ofCatalog authority).1 = .error fault) ↔
      ∃ record ∈ authority.games, (∃ name, record.Bears name) ∧
        ∃ value, record.HoldsInvalid value := by
  simp only [ofCatalog, learnAll_eq_error_iff, Record.exists_firstInvalid_iff, List.mem_filter,
    Option.isSome_iff_exists, ← Record.bears_iff, and_assoc]

/-! ## Bindings -/

def names (registry : Registry) : List String := registry.bindings.map (·.1)

theorem mem_names_iff : name ∈ registry.names ↔ ∃ uid, registry.lookup name = some uid := by
  rw [← Option.isSome_iff_exists, ← Option.ne_none_iff_isSome, lookup, ne_eq,
    List.lookup_eq_none_iff, names]
  simp

theorem nodup_names_learn {next : Registry} {events : List Event}
    (h : registry.learn record = .ok (next, events)) (nodup : registry.names.Nodup) :
    next.names.Nodup := by
  rcases learn_cases h with ⟨rfl, -⟩ | ⟨name, uid, -, unbound, rfl⟩
  · exact nodup
  · have new : name ∉ registry.names := by simp [mem_names_iff, unbound]
    have names_eq : (registry.bind name uid).names = registry.names.concat name := by
      simp [names, bind]
    rw [names_eq]
    exact nodup.concat new

theorem nodup_names_learnAll (h : (registry.learnAll records).1 = .ok result)
    (nodup : registry.names.Nodup) : result.names.Nodup := by
  induction records generalizing registry with
  | nil =>
      simp only [learnAll, Except.ok.injEq] at h
      exact h ▸ nodup
  | cons record rest ih =>
      obtain ⟨next, events, learnt, hrest⟩ := learnAll_cons_ok h
      exact ih hrest (nodup_names_learn learnt nodup)

theorem learnAll_append_ok (h : (registry.learnAll (records ++ more)).1 = .ok result) :
    ∃ middle, (registry.learnAll records).1 = .ok middle ∧
      (middle.learnAll more).1 = .ok result := by
  induction records generalizing registry with
  | nil => exact ⟨registry, rfl, h⟩
  | cons record rest ih =>
      obtain ⟨next, events, learnt, hrest⟩ := learnAll_cons_ok h
      obtain ⟨middle, learntRest, hmore⟩ := ih hrest
      exact ⟨middle, by simp [learnAll, learnt, learntRest], hmore⟩

/-- The registry binds the names of the records, each as the first record does that has the name and
a uid. -/
structure BindsFirst (registry : Registry) (records : List Record) : Prop where
  bound : ∀ name uid, registry.lookup name = some uid ↔ Record.FirstBinds records name uid
  unbound : ∀ name, registry.lookup name = none ↔
    ∀ record ∈ records, ∀ uid, ¬record.Binds name uid
  unnamed : registry.lookup "" = none
  size : ∃ names : Finset String, registry.size = names.card ∧
    ∀ name, name ∈ names ↔ ∃ record ∈ records, ∃ uid, record.Binds name uid

theorem bindsFirst_ofCatalog {authority : Catalog}
    (h : (ofCatalog authority).1 = .ok registry) : registry.BindsFirst authority.games := by
  have lookup_eq := lookup_ofCatalog h
  have unbound : ∀ name, registry.lookup name = none ↔
      ∀ record ∈ authority.games, ∀ uid, ¬record.Binds name uid := by
    intro name
    rw [lookup_eq, Catalog.uidOfName?, List.findSome?_eq_none_iff]
    simp only [Record.binds_iff, Option.eq_none_iff_forall_ne_some, ne_eq]
  refine
    { bound := fun name uid => ?_
      unbound := unbound
      unnamed := ?_
      size := ⟨registry.names.toFinset, ?_, fun name => ?_⟩ }
  · rw [lookup_eq, Record.firstBinds_iff]
    rfl
  · exact (unbound "").mpr fun record _ uid binds => binds.named.nonempty rfl
  · have nodup : registry.names.Nodup := nodup_names_learnAll h List.nodup_nil
    rw [List.toFinset_card_of_nodup nodup, names, List.length_map]
    rfl
  · rw [List.mem_toFinset, mem_names_iff, ← not_iff_not]
    simpa [Option.eq_none_iff_forall_ne_some] using unbound name

/-- What is learnt later does not touch what is bound. -/
theorem lookup_of_append {authority : Catalog}
    (h : (ofCatalog { authority with games := authority.games ++ more }).1 = .ok result) :
    ∃ registry, (ofCatalog authority).1 = .ok registry ∧
      ∀ name uid, registry.lookup name = some uid → result.lookup name = some uid := by
  obtain ⟨registry, learnt, hmore⟩ := learnAll_append_ok h
  refine ⟨registry, learnt, fun name uid bound => ?_⟩
  rw [lookup_learnAll hmore, bound, Option.some_or]

/-- A catalog gives no registry exactly when a named record has an invalid uid, with the fault of
the first such record. Otherwise each name is bound as the first record does that has the name and a
uid, and a catalog with more records behind binds these names alike. -/
theorem ofCatalog_isExact (authority : Catalog) :
    ((∃ fault, (ofCatalog authority).1 = .error fault) ↔
      ∃ record ∈ authority.games, (∃ name, record.Bears name) ∧
        ∃ value, record.HoldsInvalid value) ∧
    (∀ fault, (ofCatalog authority).1 = .error fault ↔
      Record.FirstInvalid (authority.games.filter (·.usableName?.isSome)) fault) ∧
    (∀ registry, (ofCatalog authority).1 = .ok registry → registry.BindsFirst authority.games) ∧
    ∀ more result,
      (ofCatalog { authority with games := authority.games ++ more }).1 = .ok result →
        ∃ registry, (ofCatalog authority).1 = .ok registry ∧
          ∀ name uid, registry.lookup name = some uid → result.lookup name = some uid :=
  ⟨exists_ofCatalog_error_iff, fun _ => learnAll_eq_error_iff, fun _ => bindsFirst_ofCatalog,
    fun _ _ => lookup_of_append⟩

/-- Go without a uid and then with two, Chess with null, and two unnamed records, one of which has a
text as its uid. -/
def repeatedGo : Catalog :=
  .new ⟨2024, 1, 0⟩ [.named "Chess" none, ⟨[("uid", .str "seven")]⟩, ⟨[("name", .str "Go")]⟩,
    .named "Go" (some ⟨21, by decide⟩), .named "" (some ⟨22, by decide⟩),
    .named "Go" (some ⟨23, by decide⟩)]

/-- Go is bound to the first of its uids, also where Chess gets a uid and Go another one later. A
text as the uid of a fourth Go is a fault. -/
theorem ofCatalog_isExact_repeatedGo :
    let registry : Registry := ⟨[("Go", ⟨21, by decide⟩)]⟩
    let more : List Record :=
      [.named "Go" (some ⟨24, by decide⟩), .named "Chess" (some ⟨25, by decide⟩)]
    let textual : Record := ⟨[("name", .str "Go"), ("uid", .str "ten")]⟩
    let faulty := Catalog.new ⟨2024, 2, 0⟩ (repeatedGo.games ++ [textual])
    (ofCatalog repeatedGo).1 = .ok registry ∧ registry.BindsFirst repeatedGo.games ∧
      (∃ result,
        (ofCatalog { repeatedGo with games := repeatedGo.games ++ more }).1 = .ok result ∧
          result.lookup "Go" = some ⟨21, by decide⟩ ∧
          result.lookup "Chess" = some ⟨25, by decide⟩) ∧
      (ofCatalog faulty).1 = .error (.invalidUid "Go" (.str "ten")) ∧
      ∃ record ∈ faulty.games, (∃ name, record.Bears name) ∧
        ∃ value, record.HoldsInvalid value := by
  intro registry more textual faulty
  obtain ⟨-, -, binds, appended⟩ := ofCatalog_isExact repeatedGo
  obtain ⟨fails, -, -, -⟩ := ofCatalog_isExact faulty
  have learnt : (ofCatalog repeatedGo).1 = .ok registry := by rfl
  have extended : (ofCatalog { repeatedGo with games := repeatedGo.games ++ more }).1 =
      .ok ⟨[("Go", ⟨21, by decide⟩), ("Chess", ⟨25, by decide⟩)]⟩ := by rfl
  obtain ⟨earlier, learnt', kept⟩ := appended more _ extended
  obtain rfl : registry = earlier := Except.ok.inj (learnt.symm.trans learnt')
  have failed : (ofCatalog faulty).1 = .error (.invalidUid "Go" (.str "ten")) := by rfl
  exact ⟨learnt, binds _ learnt, ⟨_, extended, kept "Go" _ rfl, rfl⟩, failed,
    fails.mp ⟨_, failed⟩⟩

end Registry

end GameCatalog
