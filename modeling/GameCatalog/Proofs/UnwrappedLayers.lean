import GameCatalog.Proofs.AssignmentReport
import GameCatalog.Proofs.Json.Equality
import GameCatalog.Proofs.Unwrap
import Mathlib.Algebra.BigOperators.Group.Finset.Piecewise
import Mathlib.Algebra.GroupWithZero.Nat
import Mathlib.Algebra.Order.BigOperators.Group.Finset

/-!
# The layers that are taken off

A field that is named `k` times and holds a value inside `s` one-element arrays loses `min k s` of
them, whatever other fields are named and in which order. The number that is reported counts these
layers, so it is zero exactly when nothing changed.
-/

namespace GameCatalog

open Json

namespace Json.Value

/-- In how many one-element arrays a value is nested, from the outside. -/
def layers : Value → Nat
  | .arr [item] => item.layers + 1
  | _ => 0

def peel : Nat → Value → Value
  | count + 1, .arr [item] => peel count item
  | _, value => value

@[simp] theorem layers_layer (item : Value) : layers (.arr [item]) = item.layers + 1 := by
  rw [layers]

@[simp] theorem peel_layer (count : Nat) (item : Value) :
    peel (count + 1) (.arr [item]) = item.peel count := by
  rw [peel]

@[simp] theorem peel_zero (value : Value) : value.peel 0 = value := by
  simp [peel]

theorem layers_cases (value : Value) :
    value.layers = 0 ∧ value.only? = none ∨ ∃ item, value = .arr [item] := by
  unfold layers
  split
  next item => exact .inr ⟨item, rfl⟩
  next other =>
    refine .inl ⟨rfl, ?_⟩
    unfold only?
    split
    next item => exact absurd rfl (other item)
    next => rfl

theorem peel_of_bare {value : Value} (bare : value.layers = 0) (count : Nat) :
    value.peel count = value := by
  unfold peel
  split
  · simp at bare
  · rfl

theorem layers_peel (count : Nat) (value : Value) :
    (value.peel count).layers = value.layers - count := by
  induction count generalizing value with
  | zero => simp
  | succ count ih =>
      rcases value.layers_cases with ⟨bare, -⟩ | ⟨item, rfl⟩
      · rw [peel_of_bare bare, bare, Nat.zero_sub]
      · rw [peel_layer, ih, layers_layer, Nat.add_sub_add_right]

/-- Mentions beyond the layers of a value are idle. -/
theorem peel_min (count : Nat) (value : Value) :
    value.peel (min count value.layers) = value.peel count := by
  induction count generalizing value with
  | zero => simp
  | succ count ih =>
      rcases value.layers_cases with ⟨bare, -⟩ | ⟨item, rfl⟩
      · rw [bare, Nat.min_zero, peel_zero, peel_of_bare bare]
      · rw [layers_layer, Nat.add_min_add_right, peel_layer, peel_layer, ih]

theorem peel_peel (count more : Nat) (value : Value) :
    (value.peel count).peel more = value.peel (count + more) := by
  induction count generalizing value with
  | zero => simp
  | succ count ih =>
      rcases value.layers_cases with ⟨bare, -⟩ | ⟨item, rfl⟩
      · rw [peel_of_bare bare, peel_of_bare bare, peel_of_bare bare]
      · rw [peel_layer, ih, Nat.add_right_comm, peel_layer]

/-- Who compares values finds no layer missing in an equal one. -/
theorem layers_le_of_same {value other : Value} (h : value.same other = true) :
    value.layers ≤ other.layers := by
  induction value using layers.induct generalizing other with
  | case1 item ih =>
      obtain ⟨others, rfl⟩ := exists_arr_of_same h
      rw [same, sameItems_iff] at h
      cases h with
      | cons first rest =>
          cases rest
          rw [layers_layer, layers_layer]
          exact Nat.succ_le_succ (ih first)
  | case2 value bare =>
      rcases value.layers_cases with ⟨none, -⟩ | ⟨item, rfl⟩
      · rw [none]
        exact Nat.zero_le _
      · exact absurd rfl (bare item)

end Json.Value

theorem Json.Members.set_comm {name other : String} {members : Members}
    (present : name ∈ members.names) (apart : name ≠ other) (value held : Value) :
    (members.set name value).set other held = (members.set other held).set name value := by
  induction members with
  | nil => cases present
  | cons member rest ih =>
      obtain ⟨key, found⟩ := member
      by_cases hname : key = name
      · subst hname
        simp [set, apart]
      · have later : name ∈ names rest := by simpa [Ne.symm hname] using present
        by_cases hother : key = other
        · subst hother
          simp [set, hname]
        · simp [set, hname, hother, ih later]

namespace Record

variable {record before middle after : Record} {field : String} {fields more : List String}

def layersAt (record : Record) (field : String) : Nat := (record.get? field).elim 0 Value.layers

/-- How many layers fields lose that are named, some of them perhaps often. -/
def lost (record : Record) (fields : List String) : Nat :=
  ∑ field ∈ fields.toFinset, min (fields.count field) (record.layersAt field)

/-- The fields stay where they are, and each that is named loses a layer for every mention as long
as there is one. -/
structure Unwrapped (fields : List String) (before after : Record) : Prop where
  names : after.fields.names = before.fields.names
  values : ∀ field, after.get? field = (before.get? field).map fun value =>
    value.peel (min (fields.count field) value.layers)

namespace Unwrapped

theorem of_peel (names : after.fields.names = before.fields.names)
    (values : ∀ field, after.get? field =
      (before.get? field).map fun value => value.peel (fields.count field)) :
    Unwrapped fields before after where
  names := names
  values := by simpa only [Value.peel_min] using values

theorem get?_eq (h : Unwrapped fields before after) (field : String) :
    after.get? field = (before.get? field).map fun value => value.peel (fields.count field) := by
  simpa only [Value.peel_min] using h.values field

theorem refl (record : Record) : Unwrapped [] record record :=
  of_peel rfl fun field => by simp

theorem trans (h : Unwrapped fields before middle) (h' : Unwrapped more middle after) :
    Unwrapped (fields ++ more) before after := by
  refine of_peel (h'.names.trans h.names) fun field => ?_
  rw [h'.get?_eq, h.get?_eq, Option.map_map, List.count_append]
  simp only [Function.comp_def, Value.peel_peel]

theorem layersAt_eq (h : Unwrapped fields before after) (field : String) :
    after.layersAt field = before.layersAt field - fields.count field := by
  rw [layersAt, layersAt, h.get?_eq]
  cases before.get? field with
  | none => simp
  | some value => simp [Value.layers_peel]

end Unwrapped

/-! ## One mention -/

theorem layer_cases (record : Record) (field : String) :
    record.layersAt field = 0 ∨ ∃ item, record.get? field = some (.arr [item]) := by
  unfold layersAt
  cases record.get? field with
  | none => exact .inl rfl
  | some value =>
      rcases value.layers_cases with ⟨bare, -⟩ | ⟨item, rfl⟩
      · exact .inl bare
      · exact .inr ⟨item, rfl⟩

theorem unwrap_of_bare (bare : record.layersAt field = 0) : record.unwrap field = (record, 0) := by
  unfold unwrap
  unfold layersAt at bare
  cases held : record.get? field with
  | none => rfl
  | some value =>
      rcases value.layers_cases with ⟨-, none⟩ | ⟨item, rfl⟩
      · simp [none]
      · simp [held] at bare

theorem unwrap_of_layer {item : Value} (held : record.get? field = some (.arr [item])) :
    record.unwrap field = (record.set field item, 1) := by
  simp [unwrap, held, Value.only?]

theorem name_mem_of_get? {value : Value} (held : record.get? field = some value) :
    field ∈ record.fields.names :=
  Members.name_mem_of_mem (Members.mem_of_get? held)

theorem snd_unwrap (record : Record) (field : String) :
    (record.unwrap field).2 = min 1 (record.layersAt field) := by
  rcases record.layer_cases field with bare | ⟨item, held⟩
  · rw [unwrap_of_bare bare, bare, Nat.min_zero]
  · rw [unwrap_of_layer held, layersAt, held]
    simp

theorem unwrapped_unwrap (record : Record) (field : String) :
    Unwrapped [field] record (record.unwrap field).1 := by
  rcases record.layer_cases field with bare | ⟨item, held⟩
  · rw [unwrap_of_bare bare]
    refine .of_peel rfl fun other => ?_
    cases found : record.get? other with
    | none => rfl
    | some value =>
        by_cases same : other = field
        · subst same
          rw [layersAt, found, Option.elim_some] at bare
          rw [Option.map_some, Value.peel_of_bare bare]
        · simp [Ne.symm same]
  · rw [unwrap_of_layer held]
    refine .of_peel ?_ fun other => ?_
    · rw [set, Members.names_set, if_pos (name_mem_of_get? held)]
    · by_cases same : other = field
      · subst same
        simp [held]
      · rw [get?_set_of_ne same]
        simp [Ne.symm same]

theorem unwrap_comm (record : Record) (field other : String) :
    ((record.unwrap field).1.unwrap other).1 = ((record.unwrap other).1.unwrap field).1 := by
  have of_bare : ∀ {field other : String}, record.layersAt field = 0 →
      ((record.unwrap field).1.unwrap other).1 = ((record.unwrap other).1.unwrap field).1 := by
    intro field other bare
    have bare' : (record.unwrap other).1.layersAt field = 0 := by
      rw [(record.unwrapped_unwrap other).layersAt_eq, bare, Nat.zero_sub]
    rw [unwrap_of_bare bare, unwrap_of_bare bare']
  rcases record.layer_cases field with bare | ⟨item, held⟩
  · exact of_bare bare
  · rcases record.layer_cases other with bare | ⟨item', held'⟩
    · exact (of_bare bare).symm
    · by_cases same : field = other
      · rw [same]
      · have held_later : (record.set other item').get? field = some (.arr [item]) := by
          rw [get?_set_of_ne same, held]
        have held_later' : (record.set field item).get? other = some (.arr [item']) := by
          rw [get?_set_of_ne (Ne.symm same), held']
        rw [unwrap_of_layer held, unwrap_of_layer held', unwrap_of_layer held_later,
          unwrap_of_layer held_later']
        exact congrArg Record.mk (Members.set_comm (name_mem_of_get? held) same item item')

/-! ## All mentions -/

theorem unwrapAll_append (record : Record) (fields more : List String) :
    record.unwrapAll (fields ++ more) =
      (((record.unwrapAll fields).1.unwrapAll more).1,
        (record.unwrapAll fields).2 + ((record.unwrapAll fields).1.unwrapAll more).2) := by
  induction fields generalizing record with
  | nil => simp [unwrapAll]
  | cons field rest ih => simp [unwrapAll, ih, Nat.add_assoc]

theorem unwrapped_unwrapAll (record : Record) (fields : List String) :
    Unwrapped fields record (record.unwrapAll fields).1 := by
  induction fields generalizing record with
  | nil => exact .refl record
  | cons field rest ih => exact (record.unwrapped_unwrap field).trans (ih (record.unwrap field).1)

theorem unwrapAll_of_perm (h : fields.Perm more) (record : Record) :
    (record.unwrapAll fields).1 = (record.unwrapAll more).1 := by
  induction h generalizing record with
  | nil => rfl
  | cons field _ ih => exact ih (record.unwrap field).1
  | swap field other rest =>
      simp only [unwrapAll_cons]
      rw [unwrap_comm]
  | trans _ _ ih ih' => exact (ih record).trans (ih' record)

/-- The names may be more than are mentioned, so they need not change where a mention is dropped. -/
theorem snd_unwrapAll_of_subset {named : Finset String} (h : ∀ field ∈ fields, field ∈ named)
    (record : Record) : (record.unwrapAll fields).2 =
      ∑ field ∈ named, min (fields.count field) (record.layersAt field) := by
  induction fields generalizing record with
  | nil => simp [unwrapAll]
  | cons field rest ih =>
      obtain ⟨hfield, hrest⟩ := List.forall_mem_cons.mp h
      have first : (record.unwrap field).2 =
          ∑ other ∈ named, if field = other then min 1 (record.layersAt field) else 0 := by
        rw [Finset.sum_ite_eq, if_pos hfield, snd_unwrap]
      have step : (record.unwrapAll (field :: rest)).2 =
          (record.unwrap field).2 + ((record.unwrap field).1.unwrapAll rest).2 := rfl
      rw [step, first, ih hrest, ← Finset.sum_add_distrib]
      refine Finset.sum_congr rfl fun other _ => ?_
      rw [(record.unwrapped_unwrap field).layersAt_eq]
      by_cases same : field = other
      · subst same
        rw [if_pos rfl, List.count_cons_self, List.count_cons_self, List.count_nil]
        omega
      · simp [same]

theorem snd_unwrapAll (record : Record) (fields : List String) :
    (record.unwrapAll fields).2 = record.lost fields :=
  snd_unwrapAll_of_subset (fun _ hm => List.mem_toFinset.mpr hm) record

theorem lost_of_perm (h : fields.Perm more) (record : Record) :
    record.lost fields = record.lost more := by
  rw [lost, lost, List.toFinset_eq_of_perm _ _ h]
  exact Finset.sum_congr rfl fun field _ => by rw [h.count_eq]

theorem lost_eq_zero_iff :
    record.lost fields = 0 ↔ ∀ field ∈ fields, record.layersAt field = 0 := by
  rw [lost, Finset.sum_eq_zero_iff]
  refine forall_congr' fun field => ?_
  rw [List.mem_toFinset]
  refine imp_congr_right fun hm => ?_
  have mentioned := List.count_pos_iff.mpr hm
  omega

theorem unwrapAll_of_bare (bare : ∀ field ∈ fields, record.layersAt field = 0) :
    (record.unwrapAll fields).1 = record := by
  induction fields with
  | nil => rfl
  | cons field rest ih =>
      obtain ⟨hfield, hrest⟩ := List.forall_mem_cons.mp bare
      rw [unwrapAll_cons, unwrap_of_bare hfield, ih hrest]

theorem lost_of_layersAt_le
    (kept : ∀ field, record.layersAt field ≤ (record.unwrapAll fields).1.layersAt field) :
    record.lost fields = 0 := by
  refine lost_eq_zero_iff.mpr fun field hm => ?_
  have mentioned := List.count_pos_iff.mpr hm
  have left := (record.unwrapped_unwrapAll fields).layersAt_eq field
  have kept := kept field
  omega

theorem unwrapAll_eq_self_iff : (record.unwrapAll fields).1 = record ↔ record.lost fields = 0 := by
  constructor
  · intro unchanged
    refine lost_of_layersAt_le fun field => ?_
    rw [unchanged]
  · intro none_lost
    exact unwrapAll_of_bare (lost_eq_zero_iff.mp none_lost)

theorem layersAt_le_of_same {other : Record} (h : record.same other = true) (field : String) :
    record.layersAt field ≤ other.layersAt field := by
  cases held : record.get? field with
  | none =>
      rw [layersAt, held, Option.elim_none]
      exact Nat.zero_le _
  | some value =>
      obtain ⟨later, held', alike⟩ := (same_fields h).2 field value held
      rw [layersAt, layersAt, held, held', Option.elim_some, Option.elim_some]
      exact Value.layers_le_of_same alike

end Record

namespace Catalog

variable {catalog : Catalog} {fields more : List String}

/-- What unwrapping fields makes of a catalog, and what it counts. -/
structure Unwrapped (fields : List String) (before after : Catalog) (count : Nat) : Prop where
  version : after.version = before.version
  extra : after.extra = before.extra
  games : List.Forall₂ (Record.Unwrapped fields) before.games after.games
  count_eq : count = (before.games.map fun record => record.lost fields).sum
  unchanged_iff : count = 0 ↔ after = before
  visible : count ≠ 0 → before.same after = false

theorem snd_unwrap (catalog : Catalog) (fields : List String) :
    (catalog.unwrap fields).2 = (catalog.games.map fun record => record.lost fields).sum := by
  rw [List.sum_eq_foldr]
  simp [unwrap, Function.comp_def, Record.snd_unwrapAll]

theorem snd_unwrap_eq_zero_iff :
    (catalog.unwrap fields).2 = 0 ↔ ∀ record ∈ catalog.games, record.lost fields = 0 := by
  simp [snd_unwrap, List.sum_eq_zero_iff]

theorem unwrap_eq_self_iff :
    (catalog.unwrap fields).2 = 0 ↔ (catalog.unwrap fields).1 = catalog := by
  rw [snd_unwrap_eq_zero_iff, unwrap_catalog]
  simp only [← Record.unwrapAll_eq_self_iff]
  constructor
  · intro unchanged
    rw [List.map_congr_left unchanged, List.map_id']
  · intro unchanged
    have games_eq := congrArg Catalog.games unchanged
    exact List.map_inj_left.mp (games_eq.trans (List.map_id' _).symm)

theorem unwrap_visible (changed : (catalog.unwrap fields).2 ≠ 0) :
    catalog.same (catalog.unwrap fields).1 = false := by
  simp only [ne_eq, snd_unwrap_eq_zero_iff, not_forall, exists_prop] at changed
  obtain ⟨record, hm, lost⟩ := changed
  refine same_eq_false (x := record) (y := (record.unwrapAll fields).1) ?_ ?_
  · have paired : catalog.games.zip (catalog.unwrap fields).1.games =
        catalog.games.map fun record => (record, (record.unwrapAll fields).1) := by
      rw [unwrap_catalog, ← List.zip_map', List.map_id']
    rw [paired]
    exact List.mem_map_of_mem (f := fun record => (record, (record.unwrapAll fields).1)) hm
  · rw [Bool.eq_false_iff]
    intro same
    exact lost (Record.lost_of_layersAt_le (Record.layersAt_le_of_same same))

theorem unwrapped_unwrap (catalog : Catalog) (fields : List String) :
    Unwrapped fields catalog (catalog.unwrap fields).1 (catalog.unwrap fields).2 where
  version := rfl
  extra := rfl
  games := by
    rw [unwrap_catalog, List.forall₂_map_right_iff]
    exact List.forall₂_same.mpr fun record _ => record.unwrapped_unwrapAll fields
  count_eq := snd_unwrap catalog fields
  unchanged_iff := unwrap_eq_self_iff
  visible := unwrap_visible

theorem unwrap_of_perm (h : fields.Perm more) (catalog : Catalog) :
    catalog.unwrap fields = catalog.unwrap more := by
  refine Prod.ext ?_ ?_
  · simp only [unwrap_catalog, Record.unwrapAll_of_perm h]
  · simp only [snd_unwrap, Record.lost_of_perm h]

theorem unwrap_append (catalog : Catalog) (fields more : List String) :
    catalog.unwrap (fields ++ more) =
      (((catalog.unwrap fields).1.unwrap more).1,
        (catalog.unwrap fields).2 + ((catalog.unwrap fields).1.unwrap more).2) := by
  refine Prod.ext ?_ ?_
  · simp [unwrap_catalog, Record.unwrapAll_append]
  · simp only [unwrap, ← List.sum_eq_foldr, List.map_map, Function.comp_def,
      Record.unwrapAll_append, List.sum_map_add]

/-- Unwrapping takes off as many layers of a field as there are and as it is named, and counts them
all: none exactly when nothing changes, which everyone can see. It does not matter in which order
the fields are named, nor whether they are named at once. -/
theorem unwrap_isExact (catalog : Catalog) (fields : List String) :
    Unwrapped fields catalog (catalog.unwrap fields).1 (catalog.unwrap fields).2 ∧
    (∀ other, fields.Perm other → catalog.unwrap other = catalog.unwrap fields) ∧
    ∀ more, catalog.unwrap (fields ++ more) =
      (((catalog.unwrap fields).1.unwrap more).1,
        (catalog.unwrap fields).2 + ((catalog.unwrap fields).1.unwrap more).2) :=
  ⟨catalog.unwrapped_unwrap fields, fun _ h => unwrap_of_perm h.symm catalog,
    catalog.unwrap_append fields⟩

/-- The title of Go is in three arrays and its board in one; the title of Hex has two items, and the
board is in one array with nothing in it. -/
def wrappedTitles : Catalog :=
  .new ⟨2024, 1, 0⟩
    [⟨[("title", .arr [.arr [.arr [.str "Go"]]]), ("uid", .null), ("board", .arr [.bool true])]⟩,
      ⟨[("board", .arr [.arr []]), ("title", .arr [.str "Hex", .str "Nash"])]⟩]

/-- Go loses two layers of its title and the one of its board, and Hex the one of its board, in
whichever order the fields are named. -/
theorem unwrap_isExact_wrappedTitles :
    let fields := ["title", "board", "title", "board", "komi"]
    let after := Catalog.new ⟨2024, 1, 0⟩
      [⟨[("title", .arr [.str "Go"]), ("uid", .null), ("board", .bool true)]⟩,
        ⟨[("board", .arr []), ("title", .arr [.str "Hex", .str "Nash"])]⟩]
    wrappedTitles.unwrap fields = (after, 4) ∧ Unwrapped fields wrappedTitles after 4 ∧
      fields.Perm fields.reverse ∧ wrappedTitles.unwrap fields.reverse = (after, 4) ∧
      wrappedTitles.same after = false := by
  intro fields after
  obtain ⟨unwrapped, reordered, -⟩ := unwrap_isExact wrappedTitles fields
  have result : wrappedTitles.unwrap fields = (after, 4) := rfl
  rw [result] at unwrapped reordered
  have turned_perm : fields.Perm fields.reverse := fields.reverse_perm.symm
  exact ⟨result, unwrapped, turned_perm, reordered _ turned_perm, unwrapped.visible (by decide)⟩

end Catalog

end GameCatalog
