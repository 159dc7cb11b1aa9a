import GameCatalog.Proofs.Decisions

/-!
# Who gets a uid

What an assignment does to a record can be told from the catalog as it was: of the records that claim
a uid the first one gets it, unless some record of the catalog has it, wherever that record stands.
All others are marked as unresolved.
-/

namespace GameCatalog

open Json

namespace Registry

variable {registry : Registry} {games : List Record} {position : Nat} {name : String} {uid : Uid}

/-- A record of that name at that position may have the uid: it is bound to the name, no record has
it, and no record further ahead that has no uid has a name that it is bound to. -/
structure Entitles (registry : Registry) (games : List Record) (position : Nat) (name : String)
    (uid : Uid) : Prop where
  bound : registry.lookup name = some uid
  unheld : ∀ record ∈ games, record.uid ≠ .ok (.resolved uid)
  first : ∀ earlier < position, ∀ record, games[earlier]? = some record →
    record.resolved? = none → ∀ other, record.usableName? = some other →
      registry.lookup other ≠ some uid

/-- What an assignment makes of the record at a position. Records without a usable name and those
with a resolved uid stay as they are; of the others each gets the uid it may have, or the mark that
there is none. -/
structure Settles (registry : Registry) (games : List Record) (position : Nat)
    (before after : Record) : Prop where
  untouched : before.usableName? = none ∨ (∃ uid, before.uid = .ok (.resolved uid)) →
    after = before
  given : ∀ {name uid}, before.usableName? = some name → before.resolved? = none →
    registry.Entitles games position name uid → before.Stores "uid" (.num uid.toNumber) after
  marked : ∀ {name}, before.usableName? = some name → before.resolved? = none →
    (∀ uid, ¬registry.Entitles games position name uid) → before.Stores "uid" .null after

theorem mem_claims_iff :
    uid ∈ (games.take position).filterMap registry.claim? ↔
      ∃ earlier < position, ∃ record, games[earlier]? = some record ∧ record.resolved? = none ∧
        ∃ other, record.usableName? = some other ∧ registry.lookup other = some uid := by
  have mem_take_iff : ∀ record, record ∈ games.take position ↔
      ∃ earlier < position, games[earlier]? = some record := by
    intro record
    simp only [List.mem_iff_getElem?, List.getElem?_take, Option.ite_none_right_eq_some]
  simp only [List.mem_filterMap, mem_take_iff, claim?_eq_some_iff, uidOf?, Option.bind_eq_some_iff]
  constructor
  · rintro ⟨record, ⟨earlier, lt, found⟩, claims⟩
    exact ⟨earlier, lt, record, found, claims⟩
  · rintro ⟨earlier, lt, record, found, claims⟩
    exact ⟨record, ⟨earlier, lt, found⟩, claims⟩

/-- A record may have the uid of its name where that is neither held nor claimed further ahead. -/
theorem entitles_iff :
    registry.Entitles games position name uid ↔ registry.lookup name = some uid ∧
      uid ∉ (games.take position).filterMap registry.claim? ++
        games.filterMap Record.resolved? := by
  rw [List.mem_append, not_or, mem_claims_iff]
  have held_iff : uid ∈ games.filterMap Record.resolved? ↔
      ∃ record ∈ games, record.uid = .ok (.resolved uid) := by
    simp only [List.mem_filterMap, Record.uid_eq_resolved_iff]
  rw [held_iff]
  constructor
  · rintro ⟨bound, unheld, first⟩
    refine ⟨bound, ?_, ?_⟩
    · rintro ⟨earlier, lt, record, found, unkeyed, other, named, claims⟩
      exact first earlier lt record found unkeyed other named claims
    · rintro ⟨record, hm, holds⟩
      exact unheld record hm holds
  · rintro ⟨bound, unclaimed, unheld⟩
    refine ⟨bound, fun record hm holds => unheld ⟨record, hm, holds⟩, ?_⟩
    intro earlier lt record found unkeyed other named claims
    exact unclaimed ⟨earlier, lt, record, found, unkeyed, other, named, claims⟩

/-! ## One record -/

section Record

variable {before after : Record}

theorem Settles.of_kept (h : before.usableName? = none ∨ ∃ uid, before.resolved? = some uid) :
    registry.Settles games position before before where
  untouched _ := rfl
  given named unkeyed _ := by
    rcases h with unnamed | ⟨uid, keyed⟩
    · rw [unnamed] at named
      cases named
    · rw [keyed] at unkeyed
      cases unkeyed
  marked named unkeyed _ := by
    rcases h with unnamed | ⟨uid, keyed⟩
    · rw [unnamed] at named
      cases named
    · rw [keyed] at unkeyed
      cases unkeyed

theorem Settles.of_unkeyed (named : before.usableName? = some name)
    (unkeyed : before.resolved? = none)
    (given : ∀ uid, registry.Entitles games position name uid →
      before.Stores "uid" (.num uid.toNumber) after)
    (marked : (∀ uid, ¬registry.Entitles games position name uid) →
      before.Stores "uid" .null after) : registry.Settles games position before after where
  untouched h := by
    rcases h with unnamed | ⟨uid, state⟩
    · rw [named] at unnamed
      cases unnamed
    · rw [Record.uid_eq_resolved_iff, unkeyed] at state
      cases state
  given named' _ entitled := by
    rw [named, Option.some.injEq] at named'
    exact given _ (named' ▸ entitled)
  marked named' _ unentitled := by
    rw [named, Option.some.injEq] at named'
    exact marked (named' ▸ unentitled)

theorem settles_of_judged {verdict : Verdict}
    (h : Judged registry ((games.take position).filterMap registry.claim? ++
      games.filterMap Record.resolved?) before verdict) :
    registry.Settles games position before (verdict.apply before) := by
  cases h with
  | unnamed named => exact .of_kept (.inl named)
  | kept named state | contradicted named state =>
      exact .of_kept (.inr ⟨_, Record.resolved?_of_uid state⟩)
  | @granted name uid field named state unkeyed bound free =>
      have entitled : registry.Entitles games position name uid := entitles_iff.mpr ⟨bound, free⟩
      refine .of_unkeyed named ((Record.resolved?_of_uid state).trans unkeyed) ?_ ?_
      · intro other entitled'
        obtain rfl : uid = other := Option.some.inj (bound.symm.trans entitled'.bound)
        exact before.stores_set _ _
      · intro unentitled
        exact absurd entitled (unentitled uid)
  | @refused name uid field named state unkeyed bound taken =>
      have unentitled : ∀ other, ¬registry.Entitles games position name other := by
        intro other entitled
        obtain rfl : uid = other := Option.some.inj (bound.symm.trans entitled.bound)
        exact (entitles_iff.mp entitled).2 taken
      rw [Verdict.apply_marked state unkeyed (.inl ⟨name, uid, rfl⟩)]
      exact .of_unkeyed named ((Record.resolved?_of_uid state).trans unkeyed)
        (fun other entitled => absurd entitled (unentitled other))
        fun _ => before.stores_set _ _
  | @unknown name field named state unkeyed unbound =>
      have unentitled : ∀ other, ¬registry.Entitles games position name other := by
        intro other entitled
        rw [entitled.bound] at unbound
        cases unbound
      rw [Verdict.apply_marked state unkeyed (.inr ⟨name, rfl⟩)]
      exact .of_unkeyed named ((Record.resolved?_of_uid state).trans unkeyed)
        (fun other entitled => absurd entitled (unentitled other))
        fun _ => before.stores_set _ _

end Record

/-! ## Assignments -/

/-- Where all uids of a catalog are valid, assigning keeps the stamp, the further fields and the
places of the records, and settles each record by what the catalog was before. -/
theorem assign_settles {catalog : Catalog} (valid : catalog.ValidUids) (registry : Registry)
    (document : String) :
    ∃ games report, (registry.assign document catalog).answer = .ok report ∧
      (registry.assign document catalog).catalog = { catalog with games } ∧
      games.length = catalog.games.length ∧
      ∀ position before after, catalog.games[position]? = some before →
        games[position]? = some after → registry.Settles catalog.games position before after := by
  obtain ⟨decisions, games_eq, decided⟩ :=
    registry.exists_decides (catalog.games.filterMap Record.resolved?) valid
  rw [assign_of_decides valid games_eq decided]
  refine ⟨_, _, rfl, rfl, ?_, fun position before after hb ha => ?_⟩
  · rw [← games_eq, List.length_map, List.length_map]
  · rw [← games_eq, List.getElem?_map, Option.map_eq_some_iff] at hb
    obtain ⟨⟨record, verdict⟩, found, rfl⟩ := hb
    rw [List.getElem?_map, found] at ha
    obtain rfl := Option.some.inj ha
    have judged := decided.judged_at found
    rw [List.map_take, games_eq] at judged
    exact settles_of_judged judged

/-- Go and Weiqi are two names of one game, and so are Schach and Chess, of which the latter has the
uid. One record has no name. -/
def namesOfGames : Catalog :=
  .new ⟨2024, 1, 0⟩ [⟨[("name", .str "Go")]⟩, ⟨[("uid", .null), ("name", .str "Weiqi")]⟩,
    ⟨[("name", .str ""), ("board", .bool true)]⟩, ⟨[("name", .str "Schach")]⟩,
    ⟨[("name", .str "Chess"), ("uid", .num (.int 12 (by decide)))]⟩]

/-- Go comes before Weiqi and gets the uid of both; Schach gets none, though Chess comes later. -/
theorem assign_settles_namesOfGames :
    let registry : Registry :=
      ⟨[("Go", ⟨7, by decide⟩), ("Weiqi", ⟨7, by decide⟩), ("Schach", ⟨12, by decide⟩)]⟩
    let assigned := registry.assign "old.json" namesOfGames
    namesOfGames.ValidUids ∧
      registry.Entitles namesOfGames.games 0 "Go" ⟨7, by decide⟩ ∧
      (∀ uid, ¬registry.Entitles namesOfGames.games 1 "Weiqi" uid) ∧
      (∀ uid, ¬registry.Entitles namesOfGames.games 3 "Schach" uid) ∧
      assigned.catalog.games.map (·.fields.names) = [["name", "uid"], ["uid", "name"],
        ["name", "board"], ["name", "uid"], ["name", "uid"]] ∧
      assigned.catalog.games.map (·.resolved?) =
        [some ⟨7, by decide⟩, none, none, none, some ⟨12, by decide⟩] ∧
      ∀ position before after, namesOfGames.games[position]? = some before →
        assigned.catalog.games[position]? = some after →
          registry.Settles namesOfGames.games position before after := by
  intro registry assigned
  have valid : namesOfGames.ValidUids :=
    List.forall_mem_cons.mpr ⟨⟨_, rfl⟩, List.forall_mem_cons.mpr ⟨⟨_, rfl⟩,
      List.forall_mem_cons.mpr ⟨⟨_, rfl⟩, List.forall_mem_cons.mpr ⟨⟨_, rfl⟩,
        List.forall_mem_singleton.mpr ⟨_, rfl⟩⟩⟩⟩⟩
  have claimed : ∀ uid, ¬registry.Entitles namesOfGames.games 1 "Weiqi" uid := by
    intro uid entitled
    obtain ⟨bound, free⟩ := entitles_iff.mp entitled
    obtain rfl := Option.some.inj (bound.symm.trans rfl)
    exact free (by decide)
  have held : ∀ uid, ¬registry.Entitles namesOfGames.games 3 "Schach" uid := by
    intro uid entitled
    obtain ⟨bound, free⟩ := entitles_iff.mp entitled
    obtain rfl := Option.some.inj (bound.symm.trans rfl)
    exact free (by decide)
  obtain ⟨games, _, -, catalog_eq, -, settles⟩ := assign_settles valid registry "old.json"
  have games_eq : assigned.catalog.games = games := congrArg Catalog.games catalog_eq
  refine ⟨valid, entitles_iff.mpr ⟨rfl, by decide⟩, claimed, held, by rfl, by rfl, ?_⟩
  exact fun position before after hb ha => settles position before after hb (games_eq ▸ ha)

end Registry

end GameCatalog
