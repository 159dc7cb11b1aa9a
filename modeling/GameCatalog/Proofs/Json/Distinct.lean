import GameCatalog.Proofs.Json.Members

/-!
# Values with distinct names

A value that can be read has no object with two members of one name. On such values equality is
reflexive; with a repeated name it is not, since only the first member of a name is looked up.
-/

namespace GameCatalog.Json

theorem Number.same_refl (n : Number) : n.same n = true := by
  cases n with
  | int n inRange => simp [same]
  | float x => simp [same, Binary64.same]

namespace Value

/-- No object in the value has two members of one name. -/
inductive Distinct : Value → Prop where
  | null : Distinct .null
  | bool (b : Bool) : Distinct (.bool b)
  | num (n : Number) : Distinct (.num n)
  | str (text : String) : Distinct (.str text)
  | arr {items : List Value} (items_distinct : ∀ item ∈ items, Distinct item) :
      Distinct (.arr items)
  | obj {members : List (String × Value)} (names_nodup : (Members.names members).Nodup)
      (values_distinct : ∀ member ∈ members, Distinct member.2) : Distinct (.obj members)

attribute [simp] Distinct.null Distinct.bool Distinct.num Distinct.str

@[simp] theorem distinct_arr_iff {items : List Value} :
    Distinct (.arr items) ↔ ∀ item ∈ items, item.Distinct :=
  ⟨fun h => by cases h; assumption, .arr⟩

@[simp] theorem distinct_obj_iff {members : Members} :
    Distinct (.obj members) ↔
      members.names.Nodup ∧ ∀ member ∈ members, member.2.Distinct :=
  ⟨fun h => by cases h; exact ⟨‹_›, ‹_›⟩, fun h => .obj h.1 h.2⟩

theorem Distinct.of_get? {members : Members} (h : Distinct (.obj members)) {name : String}
    {value : Value} (hg : members.get? name = some value) : value.Distinct :=
  (distinct_obj_iff.mp h).2 _ (Members.mem_of_get? hg)

/-! ## Reflexivity of equality -/

theorem sameMembers_iff {members others : Members} :
    sameMembers members others = true ↔
      ∀ member ∈ members, ∃ value, others.get? member.1 = some value ∧
        member.2.same value = true := by
  induction members with
  | nil => simp [sameMembers]
  | cons member rest ih =>
      obtain ⟨name, held⟩ := member
      cases hg : Members.get? name others with
      | none => simp [sameMembers, hg]
      | some value => simp [sameMembers, hg, ih]

theorem sameItems_refl {items : List Value} (h : ∀ item ∈ items, item.same item = true) :
    sameItems items items = true := by
  induction items with
  | nil => rfl
  | cons item rest ih =>
      have hrest := ih fun other hm => h other (List.mem_cons_of_mem _ hm)
      simp [sameItems, h item List.mem_cons_self, hrest]

theorem Distinct.same_refl {value : Value} (h : value.Distinct) : value.same value = true := by
  induction h with
  | null => rfl
  | bool b => simp [same]
  | num n => exact n.same_refl
  | str text => simp [same]
  | arr items_distinct ih =>
      rw [same]
      exact sameItems_refl ih
  | obj names_nodup values_distinct ih =>
      rw [same, Bool.and_eq_true, sameMembers_iff]
      exact ⟨by simp, fun member hm =>
        ⟨member.2, Members.get?_of_mem names_nodup hm, ih member hm⟩⟩

end Value

end GameCatalog.Json
