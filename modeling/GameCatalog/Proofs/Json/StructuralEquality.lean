import GameCatalog.Proofs.Json.Equality

/-!
# What equality of values means

Two values are equal when they are the same tree but for the order of members, in the objects at the
top and in all those inside, and but for the sign of zero. Where names are distinct this is what the
comparison of values decides.
-/

namespace GameCatalog.Json.Value

/-- Equality of trees. Integers and doubles are two kinds of number, and arrays keep their order. -/
inductive Equal : Value → Value → Prop where
  | null : Equal .null .null
  | bool (b : Bool) : Equal (.bool b) (.bool b)
  | int (n : Int) (inRange : InWideRange n) :
      Equal (.num (.int n inRange)) (.num (.int n inRange))
  | float (x : Binary64) : Equal (.num (.float x)) (.num (.float x))
  | zero {x y : Binary64} (first : x.significand = 0) (second : y.significand = 0) :
      Equal (.num (.float x)) (.num (.float y))
  | str (text : String) : Equal (.str text) (.str text)
  | arr {items others : List Value} (length_eq : items.length = others.length)
      (items_equal : ∀ item other, (item, other) ∈ items.zip others → Equal item other) :
      Equal (.arr items) (.arr others)
  | obj {members others : Members} (names_perm : members.names.Perm others.names)
      (values_equal : ∀ name value other, members.get? name = some value →
        others.get? name = some other → Equal value other) :
      Equal (.obj members) (.obj others)

theorem equal_num_iff {m n : Number} : Equal (.num m) (.num n) ↔ m.same n = true := by
  constructor
  · rintro (_ | _ | _ | _ | ⟨first, second⟩)
    · exact Number.same_refl _
    · exact Number.same_refl _
    · exact (Binary64.same_iff _ _).mpr (.inr ⟨first, second⟩)
  · intro h
    cases m with
    | int a inRange =>
        cases n with
        | int b inRange' =>
            obtain rfl : a = b := by simpa [Number.same] using h
            exact .int a inRange
        | float y => cases h
    | float x =>
        cases n with
        | int b inRange' => cases h
        | float y =>
            rcases (Binary64.same_iff x y).mp h with rfl | ⟨first, second⟩
            · exact .float x
            · exact .zero first second

theorem Distinct.equal_of_same {value other : Value} (hv : value.Distinct) (ho : other.Distinct)
    (h : value.same other = true) : value.Equal other := by
  induction hv generalizing other with
  | null =>
      obtain rfl := eq_null_of_same h
      exact .null
  | bool b =>
      obtain rfl := eq_bool_of_same h
      exact .bool b
  | num n =>
      obtain ⟨m, rfl, hn⟩ := exists_num_of_same h
      exact equal_num_iff.mpr hn
  | str text =>
      obtain rfl := eq_str_of_same h
      exact .str text
  | arr items_distinct ih =>
      obtain ⟨others, rfl⟩ := exists_arr_of_same h
      rw [distinct_arr_iff] at ho
      rw [same, sameItems_iff, List.forall₂_iff_zip] at h
      refine .arr h.1 fun item other paired => ?_
      obtain ⟨hi, hother⟩ := List.of_mem_zip paired
      exact ih item hi (ho other hother) (h.2 paired)
  | @obj members names_nodup values_distinct ih =>
      obtain ⟨others, rfl⟩ := exists_obj_of_same h
      have agree := (same_obj_iff names_nodup (distinct_obj_iff.mp ho).1).mp h
      refine .obj (names_perm_of_same names_nodup h) fun name value other hg hother => ?_
      obtain ⟨found, hfound, hs⟩ := (agree name).exists_same hg
      obtain rfl : other = found := Option.some.inj (hother.symm.trans hfound)
      exact ih _ (Members.mem_of_get? hg) (ho.of_get? hother) hs

theorem Equal.same {value other : Value} (h : value.Equal other) (hv : value.Distinct)
    (ho : other.Distinct) : value.same other = true := by
  induction h with
  | null => rfl
  | bool b => exact (Distinct.bool b).same_refl
  | int | float => exact (Distinct.num _).same_refl
  | zero first second => exact equal_num_iff.mp (.zero first second)
  | str text => exact (Distinct.str text).same_refl
  | arr length_eq items_equal ih =>
      rw [distinct_arr_iff] at hv ho
      rw [Value.same, sameItems_iff, List.forall₂_iff_zip]
      refine ⟨length_eq, fun {item other} paired => ?_⟩
      obtain ⟨hi, hother⟩ := List.of_mem_zip paired
      exact ih item other paired (hv item hi) (ho other hother)
  | @obj members others names_perm values_equal ih =>
      have others_nodup := (distinct_obj_iff.mp ho).1
      rw [same_obj_iff (distinct_obj_iff.mp hv).1 others_nodup]
      intro name
      have absent_iff : members.get? name = none ↔ others.get? name = none := by
        rw [Members.get?_eq_none_iff, Members.get?_eq_none_iff, names_perm.mem_iff]
      refine Members.agreeAt_of absent_iff.mp fun value hg => ?_
      cases hother : others.get? name with
      | none =>
          rw [absent_iff.mpr hother] at hg
          cases hg
      | some other =>
          exact ⟨other, rfl, ih name value other hg hother (hv.of_get? hg) (ho.of_get? hother)⟩

/-- On values with distinct names the comparison decides equality. -/
theorem Distinct.same_iff_equal {value other : Value} (hv : value.Distinct)
    (ho : other.Distinct) : value.same other = true ↔ value.Equal other :=
  ⟨hv.equal_of_same ho, fun h => h.same hv ho⟩

end GameCatalog.Json.Value
