import GameCatalog.Proofs.Operation

/-!
# Uids are stable keys

Assigning, sorting, carrying and unwrapping never take a resolved uid from a record, never change
one, and never give one uid to a second record. One lemma says so of a single operation; runs
follow by induction, with marks that tell the records apart.
-/

namespace GameCatalog

open Json

/-- Whether an operation is none that writes uids on its own: storing a uid is one, and so is
unwrapping the `uid` field. -/
def Operation.SparesUids : Operation → Prop
  | .setUid _ _ => False
  | .unwrap fields => "uid" ∉ fields
  | _ => True

def Catalog.Shares (catalog : Catalog) (uid : Uid) : Prop :=
  2 ≤ catalog.games.countP (·.resolved? = some uid)

/-- How a later state of a catalog keeps the uids of an earlier one; `origins` lists, for each
later position, the earlier position of the record there. -/
structure KeepsUids (earlier later : Catalog) (origins : List Nat) : Prop where
  count : later.games.length = earlier.games.length
  followed : origins.Perm (List.range earlier.games.length)
  kept : ∀ {position origin : Nat} {before : Record} {uid : Uid},
    origins[position]? = some origin → earlier.games[origin]? = some before →
    before.uid = .ok (.resolved uid) →
    ∃ after, later.games[position]? = some after ∧ after.uid = .ok (.resolved uid)
  shared : ∀ uid, later.Shares uid → earlier.Shares uid

/-! ## One operation -/

namespace Operation

/-- What a sparing operation does to the records: it rewrites each by itself and keeps its resolved
uid, or judges them, or sorts them. -/
theorem games_apply_cases {operation : Operation} (spares : operation.SparesUids)
    (catalog : Catalog) :
    operation = .sort ∨ operation ≠ .sort ∧
      ((∃ rewrite : Record → Record,
          (apply catalog operation).games = catalog.games.map rewrite ∧
          ∀ record, (rewrite record).resolved? = record.resolved?) ∨
        ∃ registry held, Registry.heldUids catalog.games = .ok held ∧
          (apply catalog operation).games = (Registry.judge registry held catalog.games).1) := by
  cases operation with
  | assign registry document =>
      refine .inr ⟨by simp, ?_⟩
      rcases registry.assign_cases document catalog with ⟨fault, h⟩ | ⟨held, hh, h⟩
      · exact .inl ⟨id, by simp [apply, h, Edit.refuse], fun _ => rfl⟩
      · exact .inr ⟨registry, held, hh, by simp [apply, h]⟩
  | setUid position uid => exact spares.elim
  | sort => exact .inl rfl
  | carry old field =>
      refine .inr ⟨by simp, .inl ?_⟩
      rcases old.carry_cases catalog field with ⟨fault, h⟩ | ⟨table, newTable, ho, -, h⟩
      · exact ⟨id, by simp [apply, h, Edit.refuse], fun _ => rfl⟩
      · exact ⟨(·.carriedFrom table field), by simp [apply, h],
          Record.resolved?_carriedFrom ho field⟩
  | unwrap fields =>
      exact .inr ⟨by simp, .inl ⟨fun record => (record.unwrapAll fields).1,
        by simp [apply, Catalog.unwrap_catalog], Record.resolved?_unwrapAll spares⟩⟩

/-- Every record after an operation is one from before, with the resolved uid that it had. -/
theorem apply_keeps {catalog : Catalog} {operation : Operation} (spares : operation.SparesUids)
    {marks : List α} (hm : marks.length = catalog.games.length) {position : Nat} {mark : α}
    {after : Record} (ha : (apply catalog operation).games[position]? = some after)
    (hmark : (moveMarks catalog marks operation)[position]? = some mark) :
    ∃ (origin : Nat) (before : Record), marks[origin]? = some mark ∧
      catalog.games[origin]? = some before ∧
      ∀ uid, before.resolved? = some uid → after.resolved? = some uid := by
  rcases games_apply_cases spares catalog with rfl | ⟨hne, hcases⟩
  · have hz : ((apply catalog .sort).games.zip (moveMarks catalog marks .sort))[position]? =
        some (after, mark) := List.getElem?_zip_eq_some.mpr ⟨ha, hmark⟩
    have hmem := (zip_sortByName hm).mem_iff.mp (List.mem_of_getElem? hz)
    obtain ⟨origin, ho⟩ := List.mem_iff_getElem?.mp hmem
    obtain ⟨hb, hk⟩ := List.getElem?_zip_eq_some.mp ho
    exact ⟨origin, after, hk, hb, fun _ hu => hu⟩
  · rw [moveMarks_of_ne_sort hne] at hmark
    rcases hcases with ⟨rewrite, hg, hr⟩ | ⟨registry, held, -, hg⟩
    · rw [hg, List.getElem?_map, Option.map_eq_some_iff] at ha
      obtain ⟨before, hb, rfl⟩ := ha
      exact ⟨position, before, hmark, hb, fun uid hu => by rw [hr, hu]⟩
    · rw [hg] at ha
      have hlt : position < catalog.games.length := by
        simpa using (List.getElem?_eq_some_iff.mp ha).1
      have hb := List.getElem?_eq_getElem hlt
      exact ⟨position, _, hmark, hb, fun uid hu => Registry.resolved?_judge hb ha hu⟩

theorem shares_of_shares_apply {catalog : Catalog} {operation : Operation}
    (spares : operation.SparesUids) {uid : Uid} (h : (apply catalog operation).Shares uid) :
    catalog.Shares uid := by
  unfold Catalog.Shares at h ⊢
  rcases games_apply_cases spares catalog with rfl | ⟨-, ⟨rewrite, hg, hr⟩ | ⟨registry, held, hh, hg⟩⟩
  · rwa [apply, catalog.perm_sortByName.countP_eq] at h
  · rw [hg, List.countP_map] at h
    simpa [Function.comp_def, hr] using h
  · have known : ∀ record ∈ catalog.games, ∀ found, record.resolved? = some found →
        found ∈ held := fun record hm found hf => (Registry.mem_heldUids hh).mpr ⟨record, hm, hf⟩
    have hle := Registry.countP_judge_le known registry uid
    rw [hg] at h
    split at hle <;> omega

/-! ## Runs -/

variable {catalog : Catalog} {operations : List Operation}

theorem run_keeps (spares : ∀ operation ∈ operations, operation.SparesUids) {marks : List α}
    (hm : marks.length = catalog.games.length) {position : Nat} {mark : α} {after : Record}
    (ha : (run catalog operations).games[position]? = some after)
    (hmark : (moveMarksAlong catalog marks operations)[position]? = some mark) :
    ∃ (origin : Nat) (before : Record), marks[origin]? = some mark ∧
      catalog.games[origin]? = some before ∧
      ∀ uid, before.resolved? = some uid → after.resolved? = some uid := by
  induction operations generalizing catalog marks with
  | nil => exact ⟨position, after, hmark, ha, fun _ hu => hu⟩
  | cons operation rest ih =>
      have hlen : (moveMarks catalog marks operation).length =
          (apply catalog operation).games.length := by
        rw [(perm_moveMarks hm operation).length_eq, length_games_apply, hm]
      obtain ⟨middle, between, hmiddle, hbetween, hkept⟩ :=
        ih (fun other ho => spares other (List.mem_cons_of_mem _ ho)) hlen ha hmark
      obtain ⟨origin, before, horigin, hbefore, hkeptFirst⟩ :=
        apply_keeps (spares operation List.mem_cons_self) hm hbetween hmiddle
      exact ⟨origin, before, horigin, hbefore, fun uid hu => hkept uid (hkeptFirst uid hu)⟩

theorem perm_moveMarksAlong {marks : List α} (hm : marks.length = catalog.games.length) :
    (moveMarksAlong catalog marks operations).Perm marks := by
  induction operations generalizing catalog marks with
  | nil => exact .refl _
  | cons operation rest ih =>
      have hp := perm_moveMarks hm operation
      refine (ih ?_).trans hp
      rw [hp.length_eq, length_games_apply, hm]

theorem shares_of_shares_run (spares : ∀ operation ∈ operations, operation.SparesUids) {uid : Uid}
    (h : (run catalog operations).Shares uid) : catalog.Shares uid := by
  induction operations generalizing catalog with
  | nil => exact h
  | cons operation rest ih =>
      have hrest := ih (fun other ho => spares other (List.mem_cons_of_mem _ ho)) h
      exact shares_of_shares_apply (spares operation List.mem_cons_self) hrest

/-- Whatever is done to a catalog, and whenever one looks: from then on every record keeps the uid
that it has resolved, and no further uid comes to be shared. -/
theorem run_keepsUids (catalog : Catalog) (earlier later : List Operation)
    (spares : ∀ operation ∈ earlier ++ later, operation.SparesUids) :
    KeepsUids (run catalog earlier) (run catalog (earlier ++ later))
      (origins (run catalog earlier) later) := by
  have sparesLater : ∀ operation ∈ later, operation.SparesUids := fun operation ho =>
    spares operation (List.mem_append_right _ ho)
  have hlen := List.length_range (n := (run catalog earlier).games.length)
  have hperm : (origins (run catalog earlier) later).Perm _ := perm_moveMarksAlong hlen
  rw [run_append]
  refine ⟨length_games_run _ _, hperm, ?_, fun uid h => shares_of_shares_run sparesLater h⟩
  intro position origin before uid horigin hbefore huid
  have hlt : position < (run (run catalog earlier) later).games.length := by
    rw [length_games_run, ← hlen, ← hperm.length_eq]
    exact (List.getElem?_eq_some_iff.mp horigin).1
  have hafter := List.getElem?_eq_getElem hlt
  obtain ⟨found, other, hfound, hother, hkept⟩ := run_keeps sparesLater hlen hafter horigin
  have he : found = origin := by
    obtain ⟨_, h⟩ := List.getElem?_eq_some_iff.mp hfound
    simpa using h
  subst he
  rw [hbefore, Option.some.injEq] at hother
  subst hother
  rw [Record.uid_eq_resolved_iff] at huid
  exact ⟨_, hafter, Record.uid_eq_resolved_iff.mpr (hkept uid huid)⟩

def goBeforeChess : Catalog :=
  .new ⟨2024, 1, 0⟩ [⟨[("name", .str "Go")]⟩,
    ⟨[("name", .str "Chess"), ("uid", .num (.int 8 (by decide)))]⟩]

/-- Once Go has a uid, sorting swaps the two records and carrying may rewrite the uids. -/
theorem run_keepsUids_goBeforeChess :
    let assigned : List Operation := [.assign ⟨[("Go", ⟨7, by decide⟩)]⟩ "games.json"]
    let sorted : List Operation := [.sort, .carry goBeforeChess "uid", .unwrap ["name"]]
    (∀ operation ∈ assigned ++ sorted, operation.SparesUids) ∧
      (run goBeforeChess assigned).games.map (·.resolved?) =
        [some ⟨7, by decide⟩, some ⟨8, by decide⟩] ∧
      origins (run goBeforeChess assigned) sorted = [1, 0] ∧
      KeepsUids (run goBeforeChess assigned) (run goBeforeChess (assigned ++ sorted))
        (origins (run goBeforeChess assigned) sorted) := by
  intro assigned sorted
  have spares : ∀ operation ∈ assigned ++ sorted, operation.SparesUids := by
    simp [assigned, sorted, SparesUids]
  let go : Record := .named "Go" (Uid.ofInt? 7)
  let chess : Record := .named "Chess" (Uid.ofInt? 8)
  have games : (run goBeforeChess assigned).games = [go, chess] := by rfl
  have later : Record.nameLe go chess = false := by rfl
  have moved : origins (run goBeforeChess assigned) sorted = [1, 0] := by
    have merged : ([go, chess].zip [0, 1]).mergeSort (fun a b => a.1.nameLe b.1) =
        [(chess, 1), (go, 0)] := by simp [List.mergeSort, later]
    calc origins (run goBeforeChess assigned) sorted
        = (([go, chess].zip [0, 1]).mergeSort (fun a b => a.1.nameLe b.1)).map (·.2) := by
          simp [origins, sorted, moveMarksAlong, moveMarks, games, inNameOrder, later,
            List.range_succ]
      _ = [1, 0] := by rw [merged]; rfl
  exact ⟨spares, by rw [games]; rfl, moved, run_keepsUids goBeforeChess assigned sorted spares⟩

end Operation

end GameCatalog
