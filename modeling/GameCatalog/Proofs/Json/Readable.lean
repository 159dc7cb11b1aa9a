import GameCatalog.Proofs.Json.Distinct
import GameCatalog.Proofs.Json.Reads

/-!
# Values that can be read

What the reader makes of a text nests no deeper than it allows and has distinct names in every
object. Each such value reads back from its text, in every layout, when its doubles do.
-/

namespace GameCatalog.Json

namespace Value

/-- The values that a reader of a depth can give. -/
inductive Readable : Nat → Value → Prop where
  | null (depth : Nat) : Readable depth .null
  | bool (depth : Nat) (b : Bool) : Readable depth (.bool b)
  | num (depth : Nat) (n : Number) : Readable depth (.num n)
  | str (depth : Nat) (text : String) : Readable depth (.str text)
  | arr {depth : Nat} {items : List Value} (items_readable : ∀ item ∈ items, Readable depth item) :
      Readable (depth + 1) (.arr items)
  | obj {depth : Nat} {members : List (String × Value)}
      (names_nodup : (Members.names members).Nodup)
      (values_readable : ∀ member ∈ members, Readable depth member.2) :
      Readable (depth + 1) (.obj members)

attribute [simp] Readable.null Readable.bool Readable.num Readable.str

theorem Readable.mono {depth more : Nat} {value : Value} (h : value.Readable depth)
    (hle : depth ≤ more) : value.Readable more := by
  induction h generalizing more with
  | null => exact .null more
  | bool _ b => exact .bool more b
  | num _ n => exact .num more n
  | str _ text => exact .str more text
  | arr _ ih =>
      obtain ⟨inner, rfl⟩ : ∃ inner, more = inner + 1 := ⟨more - 1, by omega⟩
      exact .arr fun item hm => ih item hm (by omega)
  | obj names_nodup _ ih =>
      obtain ⟨inner, rfl⟩ : ∃ inner, more = inner + 1 := ⟨more - 1, by omega⟩
      exact .obj names_nodup fun member hm => ih member hm (by omega)

theorem Readable.distinct {depth : Nat} {value : Value} (h : value.Readable depth) :
    value.Distinct := by
  induction h with
  | null => exact .null
  | bool _ b => exact .bool b
  | num _ n => exact .num n
  | str _ text => exact .str text
  | arr _ ih => exact .arr ih
  | obj names_nodup _ ih => exact .obj names_nodup ih

@[simp] theorem readable_arr_iff {depth : Nat} {items : List Value} :
    Readable (depth + 1) (.arr items) ↔ ∀ item ∈ items, item.Readable depth :=
  ⟨fun h => by cases h; assumption, .arr⟩

@[simp] theorem readable_obj_iff {depth : Nat} {members : Members} :
    Readable (depth + 1) (.obj members) ↔
      members.names.Nodup ∧ ∀ member ∈ members, member.2.Readable depth :=
  ⟨fun h => by cases h; exact ⟨‹_›, ‹_›⟩, fun h => .obj h.1 h.2⟩

theorem Readable.of_get? {depth : Nat} {members : Members}
    (h : Readable (depth + 1) (.obj members)) {name : String} {value : Value}
    (hg : members.get? name = some value) : value.Readable depth :=
  (readable_obj_iff.mp h).2 _ (Members.mem_of_get? hg)

theorem Readable.set {depth : Nat} {members : Members}
    (h : Readable (depth + 1) (.obj members)) (name : String) {value : Value}
    (hv : value.Readable depth) : Readable (depth + 1) (.obj (members.set name value)) := by
  rw [readable_obj_iff] at h ⊢
  refine ⟨Members.nodup_names_set h.1 name value, fun member hm => ?_⟩
  rcases Members.mem_set hm with rfl | hm
  · exact hv
  · exact h.2 member hm

end Value

/-! ## What readers give -/

section Series

variable {last : Char} {step : σ → Reader σ} {P : σ → Prop}
  (step_keeps : ∀ {state text next rest}, P state → step state text = .ok (next, rest) → P next)

include step_keeps

theorem items_keeps {bound : List Char} {state final : σ} {text rest : List Char} (hp : P state)
    (h : items last step bound state text = .ok (final, rest)) : P final := by
  induction bound generalizing state text with
  | nil => simp [items] at h
  | cons b bound ih =>
      obtain ⟨⟨next, tail⟩, hs, h⟩ := bind_eq_ok_iff.mp h
      have hnext := step_keeps hp hs
      simp only at h
      split at h
      · cases h
      · split at h
        · exact ih hnext h
        · split at h
          · cases h
            exact hnext
          · cases h

/-- What every step keeps holds of a whole container. -/
theorem series_keeps {start final : σ} {text rest : List Char} (hp : P start)
    (h : series last step start text = .ok (final, rest)) : P final := by
  unfold series at h
  split at h
  · cases h
  · split at h
    · cases h
      exact hp
    · exact items_keeps step_keeps hp h

end Series

section Containers

variable {text rest : List Char}

theorem forall_of_array {reader : Reader α} {P : α → Prop}
    (hr : ∀ {text value rest}, reader text = .ok (value, rest) → P value) {values : List α}
    (h : array reader text = .ok (values, rest)) : ∀ value ∈ values, P value := by
  obtain ⟨⟨reversed, tail⟩, hs, h⟩ := bind_eq_ok_iff.mp h
  cases h
  have hkeeps := series_keeps (P := fun held => ∀ value ∈ held, P value) ?_ (by simp) hs
  · simpa using hkeeps
  · intro held text next tail hp hstep
    obtain ⟨⟨item, left⟩, hitem, hstep⟩ := bind_eq_ok_iff.mp hstep
    cases hstep
    simpa using ⟨hr hitem, hp⟩

theorem readable_of_object {depth : Nat} {reader : Reader Value}
    (hr : ∀ {text value rest}, reader text = .ok (value, rest) → value.Readable depth)
    {members : Members} (h : object reader text = .ok (members, rest)) :
    (Value.obj members).Readable (depth + 1) := by
  refine series_keeps (P := fun held => (Value.obj held).Readable (depth + 1)) ?_
    (.obj (by simp) (by simp)) h
  intro held text next tail hp hstep
  obtain ⟨⟨⟨name, value⟩, left⟩, hm, hstep⟩ := bind_eq_ok_iff.mp hstep
  cases hstep
  simp only [member, bind_eq_ok_iff, Except.ok.injEq, Prod.mk.injEq] at hm
  obtain ⟨_, -, _, -, ⟨item, after⟩, hv, ⟨-, rfl⟩, -⟩ := hm
  exact hp.set name (hr hv)

end Containers

theorem readable_of_valueWith_none {text rest : List Char} {v : Value}
    (h : valueWith none text = .ok (v, rest)) (depth : Nat) : v.Readable depth := by
  obtain ⟨⟨start, tail⟩, -, h⟩ := bind_eq_ok_iff.mp h
  cases start with
  | null => cases h; exact .null depth
  | bool b => cases h; exact .bool depth b
  | num n => cases h; exact .num depth n
  | str text => cases h; exact .str depth text
  | array => cases h
  | object => cases h

theorem readable_of_valueWith_some {depth : Nat} {inner : Reader Value}
    (hr : ∀ {text value rest}, inner text = .ok (value, rest) → value.Readable depth)
    {text rest : List Char} {v : Value} (h : valueWith (some inner) text = .ok (v, rest)) :
    v.Readable (depth + 1) := by
  obtain ⟨⟨start, tail⟩, -, h⟩ := bind_eq_ok_iff.mp h
  cases start with
  | null => cases h; exact .null _
  | bool b => cases h; exact .bool _ b
  | num n => cases h; exact .num _ n
  | str text => cases h; exact .str _ text
  | array =>
      obtain ⟨⟨items, left⟩, hi, h⟩ := bind_eq_ok_iff.mp h
      cases h
      exact .arr (forall_of_array hr hi)
  | object =>
      obtain ⟨⟨members, left⟩, hm, h⟩ := bind_eq_ok_iff.mp h
      cases h
      exact readable_of_object hr hm

/-- The reader of a depth gives the values that are readable at that depth. -/
theorem readable_of_value {depth : Nat} {text rest : List Char} {v : Value}
    (h : value depth text = .ok (v, rest)) : v.Readable depth := by
  induction depth generalizing text v rest with
  | zero => exact readable_of_valueWith_none h 0
  | succ depth ih => exact readable_of_valueWith_some ih h

/-! ## Reading back -/

namespace Value

mutual

def floats : Value → List Binary64
  | .num (.float x) => [x]
  | .arr items => itemFloats items
  | .obj members => memberFloats members
  | _ => []

def itemFloats : List Value → List Binary64
  | [] => []
  | item :: rest => item.floats ++ itemFloats rest

def memberFloats : List (String × Value) → List Binary64
  | [] => []
  | (_, value) :: rest => value.floats ++ memberFloats rest

end

theorem itemFloats_eq_flatMap (items : List Value) : itemFloats items = items.flatMap floats := by
  induction items with
  | nil => rfl
  | cons item rest ih => simp [itemFloats, ih]

theorem memberFloats_eq_flatMap (members : Members) :
    memberFloats members = members.flatMap fun member => member.2.floats := by
  induction members with
  | nil => rfl
  | cons member rest ih => simp [memberFloats, ih]

theorem mem_floats_arr {x : Binary64} {items : List Value} :
    x ∈ (Value.arr items).floats ↔ ∃ item ∈ items, x ∈ item.floats := by
  rw [floats, itemFloats_eq_flatMap, List.mem_flatMap]

theorem mem_floats_obj {x : Binary64} {members : Members} :
    x ∈ (Value.obj members).floats ↔ ∃ member ∈ members, x ∈ member.2.floats := by
  rw [floats, memberFloats_eq_flatMap, List.mem_flatMap]

end Value

theorem itemTexts_eq_map (layout : Layout) (level : Nat) (items : List Value) :
    itemTexts layout level items = items.map fun item => item.text layout level := by
  induction items with
  | nil => rfl
  | cons item rest ih => simp [itemTexts, ih]

theorem memberTexts_eq_map (layout : Layout) (level : Nat) (members : Members) :
    memberTexts layout level members =
      members.map fun member => memberText layout member.1 (member.2.text layout level) := by
  induction members with
  | nil => rfl
  | cons member rest ih => simp [memberTexts, ih]

/-- Every reader of values begins with the start of a value. -/
theorem value_eq (depth : Nat) : ∃ inner, value depth = valueWith inner := by
  cases depth with
  | zero => exact ⟨_, rfl⟩
  | succ depth => exact ⟨_, rfl⟩

theorem Reads.of_lead {inner : Option (Reader Value)} {start : Lead Number String}
    {text : List Char} {v : Value} (h : Reads lead text start)
    (made : ∀ text rest, lead text = .ok (start, rest) → valueWith inner text = .ok (v, rest)) :
    Reads (valueWith inner) text v where
  opens := h.opens
  read hb hs := made _ _ (h.read hb hs)

/-- A readable value reads back from its text when its doubles read back from theirs. -/
theorem reads_value {layout : Layout} (spaced : layout.Spaced) {depth : Nat} {v : Value}
    (readable : v.Readable depth) (floats : ∀ x ∈ v.floats, ReadsBack x) (level : Nat) :
    Reads (value depth) (v.text layout level) v := by
  induction readable generalizing level with
  | null depth =>
      obtain ⟨inner, hv⟩ := value_eq depth
      rw [hv, Value.text]
      exact reads_null.of_lead fun _ _ h => by simp [valueWith, h]
  | bool depth b =>
      obtain ⟨inner, hv⟩ := value_eq depth
      rw [hv]
      cases b with
      | true => exact reads_true.of_lead fun _ _ h => by simp [valueWith, h]
      | false => exact reads_false.of_lead fun _ _ h => by simp [valueWith, h]
  | num depth n =>
      obtain ⟨inner, hv⟩ := value_eq depth
      rw [hv, Value.text]
      cases n with
      | int n inRange =>
          have h := reads_num (number_intText n inRange)
          exact h.of_lead fun _ _ h => by simp [valueWith, h]
      | float x =>
          have h := reads_num (floats x (by simp [Value.floats]))
          exact h.of_lead fun _ _ h => by simp [valueWith, h]
  | str depth text =>
      obtain ⟨inner, hv⟩ := value_eq depth
      rw [hv, Value.text]
      exact (reads_str text).of_lead fun _ _ h => by simp [valueWith, h]
  | @arr depth items _ ih =>
      have itemFloats : ∀ item ∈ items, ∀ x ∈ item.floats, ReadsBack x := fun item hm x hx =>
        floats x (by
          rw [Value.floats, Value.itemFloats_eq_flatMap]
          exact List.mem_flatMap.mpr ⟨item, hm, hx⟩)
      obtain ⟨inside, he, hread⟩ := array_enclose spaced
        (fun item hm => ih item hm (itemFloats item hm) (level + 1)) level
      rw [Value.text, itemTexts_eq_map, he]
      refine ⟨⟨'[', _, rfl, rfl, by simp [Closes]⟩, fun hb _ => ?_⟩
      simp [value, valueWith, lead_array hb, hread]
  | @obj depth members names_nodup _ ih =>
      have memberFloats : ∀ member ∈ members, ∀ x ∈ member.2.floats, ReadsBack x :=
        fun member hm x hx => floats x (by
          rw [Value.floats, Value.memberFloats_eq_flatMap]
          exact List.mem_flatMap.mpr ⟨member, hm, hx⟩)
      obtain ⟨inside, he, hread⟩ := object_enclose spaced
        (fun member hm => ih member hm (memberFloats member hm) (level + 1)) names_nodup level
      rw [Value.text, memberTexts_eq_map, he]
      refine ⟨⟨'\x7b', _, rfl, rfl, by simp [Closes]⟩, fun hb _ => ?_⟩
      simp [value, valueWith, lead_object hb, hread]

end GameCatalog.Json
