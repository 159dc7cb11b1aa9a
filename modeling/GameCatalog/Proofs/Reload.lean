import GameCatalog.Files.CatalogFile
import GameCatalog.Proofs.CatalogText
import GameCatalog.Proofs.Operation

/-!
# Saving and loading again

Every operation keeps a catalog readable, so whatever was made of loaded catalogs can be saved and
loaded again without a change.
-/

namespace GameCatalog

open Json

/-- The catalogs that were loaded, and what operations make of them with other such catalogs. -/
inductive Catalog.Reachable : Catalog → Prop where
  | loaded {path : Path} {contents : Except FileFault String} {catalog : Catalog}
      (loads : Catalog.ofFile path contents = .ok catalog) : Reachable catalog
  | applied {catalog : Catalog} {operation : Operation} (start : Reachable catalog)
      (sources : ∀ old ∈ operation.sources, Reachable old) :
      Reachable (Operation.apply catalog operation)

namespace Catalog

theorem exists_ofText_of_ofFile {path : Path} {contents : Except FileFault String}
    {catalog : Catalog} (h : ofFile path contents = .ok catalog) :
    ∃ text, contents = .ok text ∧ ofText text = .ok catalog := by
  unfold ofFile at h
  split at h
  · cases h
  next text =>
    split at h
    · cases h
    next found hr =>
      cases h
      exact ⟨text, rfl, hr⟩

theorem ofFile_of_ofText {text : String} {catalog : Catalog} (h : ofText text = .ok catalog)
    (path : Path) : ofFile path (.ok text) = .ok catalog := by
  simp [ofFile, h]

theorem readable_of_ofFile {path : Path} {contents : Except FileFault String}
    {catalog : Catalog} (h : ofFile path contents = .ok catalog) : catalog.Readable := by
  obtain ⟨text, -, hr⟩ := exists_ofText_of_ofFile h
  exact readable_of_ofText hr

theorem Readable.apply {catalog : Catalog} (h : catalog.Readable) {operation : Operation}
    (sources : ∀ old ∈ operation.sources, old.Readable) :
    (Operation.apply catalog operation).Readable := by
  rw [Operation.apply_eq]
  refine ⟨?_, h.extra, h.version_free, h.games_free⟩
  refine Operation.forall_games_apply
    (P := fun record => (Value.obj record.fields).Readable (nestingLimit - 2)) ?_ ?_ ?_ h.games
    fun old hm => (sources old hm).games
  · intro record hr uid
    cases uid with
    | none => exact hr.set "uid" (.null _)
    | some uid => exact hr.set "uid" (.num _ _)
  · intro record hr field
    rcases record.unwrap_cases field with hu | ⟨item, hg, hu⟩
    · rw [hu]
      exact hr
    · rw [hu]
      have harr := Value.Readable.of_get? hr hg
      have hitem := Value.readable_arr_iff.mp harr item List.mem_cons_self
      exact hr.set field (hitem.mono (Nat.le_succ _))
  · intro record source field value hr hs hg
    exact hr.set field (Value.Readable.of_get? hs hg)

theorem forall_floats_set {P : Binary64 → Prop} {record : Record}
    (h : ∀ x ∈ (Value.obj record.fields).floats, P x) (field : String) {value : Value}
    (hv : ∀ x ∈ value.floats, P x) :
    ∀ x ∈ (Value.obj (record.set field value).fields).floats, P x := by
  intro x hx
  obtain ⟨member, hm, hx⟩ := Value.mem_floats_obj.mp hx
  rcases Members.mem_set hm with rfl | hm
  · exact hv x hx
  · exact h x (Value.mem_floats_obj.mpr ⟨member, hm, hx⟩)

/-- Operations make no new doubles. -/
theorem forall_floats_apply {P : Binary64 → Prop} {catalog : Catalog} {operation : Operation}
    (h : ∀ x ∈ catalog.floats, P x)
    (sources : ∀ old ∈ operation.sources, ∀ x ∈ old.floats, P x) :
    ∀ x ∈ (Operation.apply catalog operation).floats, P x := by
  have games : ∀ {catalog : Catalog}, (∀ x ∈ catalog.floats, P x) →
      ∀ record ∈ catalog.games, ∀ x ∈ (Value.obj record.fields).floats, P x :=
    fun h record hm x hx => h x (List.mem_append_left _ (List.mem_flatMap.mpr ⟨record, hm, hx⟩))
  have held : ∀ {record : Record} {field value}, record.get? field = some value →
      (∀ x ∈ (Value.obj record.fields).floats, P x) → ∀ x ∈ value.floats, P x :=
    fun hg h x hx => h x (Value.mem_floats_obj.mpr ⟨_, Members.mem_of_get? hg, hx⟩)
  rw [Operation.apply_eq]
  intro x hx
  rcases List.mem_append.mp hx with hx | hx
  · obtain ⟨record, hm, hx⟩ := List.mem_flatMap.mp hx
    refine Operation.forall_games_apply
      (P := fun record => ∀ x ∈ (Value.obj record.fields).floats, P x) ?_ ?_ ?_ (games h)
      (fun old ho => games (sources old ho)) record hm x hx
    · intro record hr uid
      cases uid with
      | none => exact forall_floats_set hr "uid" (by simp [Value.floats])
      | some uid => exact forall_floats_set hr "uid" (by simp [Value.floats, Uid.toNumber])
    · intro record hr field
      rcases record.unwrap_cases field with hu | ⟨item, hg, hu⟩
      · rw [hu]
        exact hr
      · rw [hu]
        exact forall_floats_set hr field fun x hx =>
          held hg hr x (Value.mem_floats_arr.mpr ⟨item, List.mem_cons_self, hx⟩)
    · intro record source field value hr hs hg
      exact forall_floats_set hr field (held hg hs)
  · exact h x (List.mem_append_right _ hx)

/-- What comes back as it was when it is saved and loaded again. -/
structure Restorable (catalog : Catalog) : Prop where
  readable : catalog.Readable
  floats : ∀ x ∈ catalog.floats, ReadsBack x

theorem Restorable.ofText_text {catalog : Catalog} (h : catalog.Restorable) (indent : Nat) :
    ofText (catalog.text indent) = .ok catalog :=
  Catalog.ofText_text h.readable h.floats indent

theorem restorable_new {version : Version} {games : List Record}
    (readable : ∀ record ∈ games, (Value.obj record.fields).Readable (nestingLimit - 2))
    (floats : ∀ record ∈ games, (Value.obj record.fields).floats = []) :
    (new version games).Restorable where
  readable := ⟨readable, .obj (by simp [new]) (by simp [new]), by simp [new], by simp [new]⟩
  floats x hx := by
    have none_listed : (new version games).floats = [] :=
      List.append_eq_nil_iff.mpr ⟨List.flatMap_eq_nil_iff.mpr floats, rfl⟩
    rw [none_listed] at hx
    cases hx

theorem Restorable.apply {catalog : Catalog} (h : catalog.Restorable) {operation : Operation}
    (sources : ∀ old ∈ operation.sources, old.Restorable) :
    (Operation.apply catalog operation).Restorable where
  readable := h.readable.apply fun old hm => (sources old hm).readable
  floats := forall_floats_apply h.floats fun old hm => (sources old hm).floats

theorem Reachable.readable {catalog : Catalog} (h : catalog.Reachable) : catalog.Readable := by
  induction h with
  | loaded loads => exact readable_of_ofFile loads
  | applied _ _ start sources => exact start.apply sources

/-- A reachable catalog, once saved, loads as it was, whatever the indent, when each of its doubles
reads back from its spelling. -/
theorem Reachable.ofFile_text {catalog : Catalog} (h : catalog.Reachable)
    (floats : ∀ x ∈ catalog.floats, ReadsBack x) (path : Path) (indent : Nat) :
    ofFile path (.ok (catalog.text indent)) = .ok catalog := by
  simp [ofFile, ofText_text h.readable floats indent]

/-- A catalog with a name to unwrap and a minus zero, which is a double. -/
def wrappedGo : Catalog :=
  ⟨⟨2024, 1, 0⟩, [⟨[("name", .arr [.str "Go"]), ("rating", .num (.float (.zero true)))]⟩],
    [("tags", .arr [])]⟩

theorem readable_wrappedGo : wrappedGo.Readable where
  games := by simp [wrappedGo, nestingLimit, -Prod.forall]
  extra := by simp [wrappedGo, nestingLimit, -Prod.forall]
  version_free := by simp [wrappedGo]
  games_free := by simp [wrappedGo]

/-- Saved, loaded and unwrapped, the catalog reloads from a text in another layout. -/
theorem Reachable.ofFile_text_wrappedGo :
    let unwrapped := Operation.apply wrappedGo (.unwrap ["name"])
    Catalog.ofFile "games.json" (.ok (wrappedGo.text 2)) = .ok wrappedGo ∧
      unwrapped.Reachable ∧ unwrapped.floats = [.zero true] ∧
      (∀ x ∈ unwrapped.floats, ReadsBack x) ∧
      Catalog.ofFile "copy.json" (.ok (unwrapped.text 0)) = .ok unwrapped := by
  intro unwrapped
  have source : ∀ x ∈ wrappedGo.floats, ReadsBack x := by
    simpa [show wrappedGo.floats = [.zero true] from rfl] using readsBack_zero true
  have loads : Catalog.ofFile "games.json" (.ok (wrappedGo.text 2)) = .ok wrappedGo := by
    simp [ofFile, ofText_text readable_wrappedGo source 2]
  have reachable : unwrapped.Reachable := .applied (.loaded loads) nofun
  have listed : unwrapped.floats = [.zero true] := rfl
  have floats : ∀ x ∈ unwrapped.floats, ReadsBack x := by simpa [listed] using readsBack_zero true
  exact ⟨loads, reachable, listed, floats, reachable.ofFile_text floats "copy.json" 0⟩

end Catalog

end GameCatalog
