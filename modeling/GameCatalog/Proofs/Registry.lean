import GameCatalog.Proofs.Record
import GameCatalog.Registry.Basic
import Mathlib.Data.List.Nodup

/-!
# What a registry binds

A registry that is built from a catalog binds a name to the uid of the first record that has the
name and a resolved uid, and to none where there is no such record.
-/

namespace GameCatalog

/-- The uid that a record has for a name: its own, if the name is its own. -/
def Record.uidFor? (record : Record) (name : String) : Option Uid :=
  if record.usableName? = some name then record.resolved? else none

theorem Record.uidFor?_eq_some_iff {record : Record} {name : String} {uid : Uid} :
    record.uidFor? name = some uid ↔
      record.usableName? = some name ∧ record.resolved? = some uid := by
  unfold uidFor?
  split <;> simp_all

def Catalog.uidOfName? (catalog : Catalog) (name : String) : Option Uid :=
  catalog.games.findSome? fun record => record.uidFor? name

theorem Catalog.exists_uidOfName?_iff {catalog : Catalog} {name : String} :
    (∃ uid, catalog.uidOfName? name = some uid) ↔
      ∃ record ∈ catalog.games, record.usableName? = some name ∧
        ∃ uid, record.uid = .ok (.resolved uid) := by
  rw [← Option.isSome_iff_exists, uidOfName?, List.findSome?_isSome_iff]
  refine exists_congr fun record => and_congr_right fun _ => ?_
  rw [Option.isSome_iff_exists]
  simp only [Record.uidFor?_eq_some_iff, Record.uid_eq_resolved_iff, exists_and_left]

namespace Registry

/-- Distinct names are bound to distinct uids. -/
def Injective (registry : Registry) : Prop :=
  ∀ {name other : String} {uid : Uid}, registry.lookup name = some uid →
    registry.lookup other = some uid → name = other

theorem mem_of_lookup {registry : Registry} {name : String} {uid : Uid}
    (h : registry.lookup name = some uid) : (name, uid) ∈ registry.bindings := by
  obtain ⟨before, after, he, -⟩ := List.lookup_eq_some_iff.mp h
  rw [he]
  exact List.mem_append_right _ List.mem_cons_self

theorem injective_of_nodup {registry : Registry}
    (h : (registry.bindings.map Prod.snd).Nodup) : registry.Injective := by
  intro name other uid hname hother
  have he := List.inj_on_of_nodup_map h (mem_of_lookup hname) (mem_of_lookup hother) rfl
  exact congrArg Prod.fst he

def uidOf? (registry : Registry) (record : Record) : Option Uid :=
  record.usableName?.bind registry.lookup

theorem uidOf?_of_usableName? {record : Record} {name : String}
    (named : record.usableName? = some name) (registry : Registry) :
    registry.uidOf? record = registry.lookup name := by
  rw [uidOf?, named, Option.bind_some]

theorem name?_eq_of_uidOf? {registry : Registry} (injective : registry.Injective) {a b : Record}
    {uid : Uid} (ha : registry.uidOf? a = some uid) (hb : registry.uidOf? b = some uid) :
    a.name? = b.name? := by
  obtain ⟨name, named, bound⟩ := Option.bind_eq_some_iff.mp ha
  obtain ⟨other, named', bound'⟩ := Option.bind_eq_some_iff.mp hb
  rw [Record.name?_of_usableName? named, Record.name?_of_usableName? named',
    injective bound bound']

/-! ## Learning records -/

/-- A record adds no binding, for it has no uid for a name or its name is bound, or it adds one. -/
theorem learn_cases {registry next : Registry} {record : Record} {events : List Event}
    (h : registry.learn record = .ok (next, events)) :
    (next = registry ∧ ∀ name uid, record.uidFor? name = some uid →
      ∃ kept, registry.lookup name = some kept) ∨
    ∃ name uid, record.uidFor? name = some uid ∧ registry.lookup name = none ∧
      next = registry.bind name uid := by
  simp only [Record.uidFor?_eq_some_iff, ← Record.uid_eq_resolved_iff]
  unfold learn at h
  split at h
  next unnamed =>
    cases h
    refine .inl ⟨rfl, fun name uid binds => ?_⟩
    rw [unnamed] at binds
    cases binds.1
  next known named =>
    split at h
    next => cases h
    next uid keyed =>
      split at h
      next kept bound =>
        cases h
        refine .inl ⟨rfl, fun name other binds => ⟨kept, ?_⟩⟩
        obtain rfl : known = name := Option.some.inj (named.symm.trans binds.1)
        exact bound
      next new =>
        cases h
        exact .inr ⟨known, uid, ⟨named, keyed⟩, new, rfl⟩
    next state unkeyed held =>
      cases h
      refine .inl ⟨rfl, fun name uid binds => ?_⟩
      exact absurd (Except.ok.inj (held.symm.trans binds.2)) (unkeyed uid)

/-- A record binds its name to its uid, unless the registry binds the name already. -/
theorem lookup_learn {registry next : Registry} {record : Record} {events : List Event}
    (h : registry.learn record = .ok (next, events)) (name : String) :
    next.lookup name = (registry.lookup name).or (record.uidFor? name) := by
  rcases learn_cases h with ⟨rfl, known⟩ | ⟨new, uid, binds, unbound, rfl⟩
  · cases found : record.uidFor? name with
    | none => rw [Option.or_none]
    | some uid =>
        obtain ⟨kept, bound⟩ := known name uid found
        rw [bound, Option.some_or]
  · by_cases same : name = new
    · rw [same, lookup_bind_self unbound, unbound, binds, Option.none_or]
    · have named := (Record.uidFor?_eq_some_iff.mp binds).1
      have other : record.uidFor? name = none := by
        rw [Record.uidFor?, if_neg (by simp [named, Ne.symm same])]
      rw [lookup_bind_of_ne same, other, Option.or_none]

theorem learnAll_cons_ok {registry result : Registry} {record : Record} {rest : List Record}
    (h : (registry.learnAll (record :: rest)).1 = .ok result) :
    ∃ next events, registry.learn record = .ok (next, events) ∧
      (next.learnAll rest).1 = .ok result := by
  unfold learnAll at h
  cases hl : registry.learn record with
  | error fault => simp [hl] at h
  | ok learnt => exact ⟨learnt.1, learnt.2, rfl, by simpa [hl] using h⟩

theorem lookup_learnAll {registry result : Registry} {records : List Record}
    (h : (registry.learnAll records).1 = .ok result) (name : String) :
    result.lookup name =
      (registry.lookup name).or (records.findSome? fun record => record.uidFor? name) := by
  induction records generalizing registry with
  | nil =>
      simp only [learnAll, Except.ok.injEq] at h
      simp [h]
  | cons record rest ih =>
      obtain ⟨next, events, learnt, hrest⟩ := learnAll_cons_ok h
      rw [ih hrest, lookup_learn learnt, Option.or_assoc, List.findSome?_cons]
      cases record.uidFor? name <;> rfl

/-- A registry binds each name as the first record does that has the name and a resolved uid. -/
theorem lookup_ofCatalog {authority : Catalog} {registry : Registry}
    (h : (ofCatalog authority).1 = .ok registry) : registry.lookup = authority.uidOfName? := by
  funext name
  rw [lookup_learnAll h, lookup_empty, Option.none_or, Catalog.uidOfName?]

/-- What a registry binds, a record of its authority has. -/
theorem exists_of_lookup {authority : Catalog} {registry : Registry}
    (h : (ofCatalog authority).1 = .ok registry) {name : String} {uid : Uid}
    (bound : registry.lookup name = some uid) :
    ∃ record ∈ authority.games, record.usableName? = some name ∧
      record.resolved? = some uid := by
  rw [lookup_ofCatalog h] at bound
  obtain ⟨record, hm, hu⟩ := List.exists_of_findSome?_eq_some bound
  exact ⟨record, hm, Record.uidFor?_eq_some_iff.mp hu⟩

theorem mem_resolved_of_lookup {authority : Catalog} {registry : Registry}
    (h : (ofCatalog authority).1 = .ok registry) {name : String} {uid : Uid}
    (bound : registry.lookup name = some uid) :
    uid ∈ authority.games.filterMap Record.resolved? := by
  obtain ⟨record, hm, -, holds⟩ := exists_of_lookup h bound
  exact List.mem_filterMap.mpr ⟨record, hm, holds⟩

end Registry

end GameCatalog
