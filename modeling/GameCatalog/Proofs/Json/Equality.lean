import GameCatalog.Proofs.Json.Distinct
import Mathlib.Data.List.Forall2
import Mathlib.Data.List.Perm.Subperm

/-!
# Equality of values is an equivalence

On values with distinct names equality is symmetric and transitive too. Two objects are equal when
they agree at every name, and in this form both laws come down to the values of the members.
-/

namespace GameCatalog.Json

theorem Number.same_symm {m n : Number} (h : m.same n = true) : n.same m = true := by
  cases m with
  | int a inRange =>
      cases n with
      | float y => cases h
      | int b inRange' =>
          simp only [same, beq_iff_eq] at h ⊢
          exact h.symm
  | float x =>
      cases n with
      | int b inRange' => cases h
      | float y =>
          rw [same, Binary64.same_iff] at h ⊢
          exact h.imp Eq.symm And.symm

theorem Number.same_trans {l m n : Number} (h : l.same m = true) (h' : m.same n = true) :
    l.same n = true := by
  cases l with
  | int a inRange =>
      cases m with
      | float y => cases h
      | int b inRange' =>
          cases n with
          | float z => cases h'
          | int c inRange'' =>
              simp only [same, beq_iff_eq] at h h' ⊢
              exact h.trans h'
  | float x =>
      cases m with
      | int b inRange' => cases h
      | float y =>
          cases n with
          | int c inRange'' => cases h'
          | float z =>
              rw [same, Binary64.same_iff] at h h' ⊢
              rcases h with rfl | ⟨hx, hy⟩
              · exact h'
              · rcases h' with rfl | ⟨-, hz⟩
                · exact .inr ⟨hx, hy⟩
                · exact .inr ⟨hx, hz⟩

namespace Members

def AgreeAt (members others : Members) (name : String) : Prop :=
  Option.Rel (fun a b => a.same b = true) (members.get? name) (others.get? name)

variable {members others : Members} {name : String}

theorem AgreeAt.get?_eq_none_iff (h : members.AgreeAt others name) :
    members.get? name = none ↔ others.get? name = none := by
  unfold AgreeAt at h
  generalize members.get? name = value? at h ⊢
  generalize others.get? name = other? at h ⊢
  cases h <;> simp

theorem AgreeAt.exists_same (h : members.AgreeAt others name) {value : Value}
    (hg : members.get? name = some value) :
    ∃ other, others.get? name = some other ∧ value.same other = true := by
  unfold AgreeAt at h
  rw [hg] at h
  generalize others.get? name = other? at h ⊢
  cases h with
  | some hs => exact ⟨_, rfl, hs⟩

theorem agreeAt_of {members others : Members} {name : String}
    (absent : members.get? name = none → others.get? name = none)
    (present : ∀ value, members.get? name = some value →
      ∃ other, others.get? name = some other ∧ value.same other = true) :
    members.AgreeAt others name := by
  unfold AgreeAt
  cases hg : members.get? name with
  | none =>
      rw [absent hg]
      exact .none
  | some value =>
      obtain ⟨other, ho, hs⟩ := present value hg
      rw [ho]
      exact .some hs

theorem AgreeAt.symm (h : members.AgreeAt others name)
    (value_symm : ∀ value other, members.get? name = some value → others.get? name = some other →
      value.same other = true → other.same value = true) : others.AgreeAt members name := by
  refine agreeAt_of h.get?_eq_none_iff.mpr fun held hheld => ?_
  cases hg : members.get? name with
  | none =>
      rw [h.get?_eq_none_iff.mp hg] at hheld
      cases hheld
  | some value =>
      obtain ⟨found, hfound, hs⟩ := h.exists_same hg
      obtain rfl : held = found := Option.some.inj (hheld.symm.trans hfound)
      exact ⟨value, rfl, value_symm value held hg hheld hs⟩

theorem AgreeAt.trans {middle : Members} (h : members.AgreeAt middle name)
    (h' : middle.AgreeAt others name)
    (value_trans : ∀ a b c, members.get? name = some a → middle.get? name = some b →
      others.get? name = some c → a.same b = true → b.same c = true → a.same c = true) :
    members.AgreeAt others name := by
  refine agreeAt_of (fun absent => ?_) fun value hg => ?_
  · exact h'.get?_eq_none_iff.mp (h.get?_eq_none_iff.mp absent)
  · obtain ⟨between, hm, hs⟩ := h.exists_same hg
    obtain ⟨other, ho, hs'⟩ := h'.exists_same hm
    exact ⟨other, ho, value_trans value between other hg hm ho hs hs'⟩

end Members

namespace Value

theorem sameItems_iff {items others : List Value} :
    sameItems items others = true ↔ List.Forall₂ (fun a b => a.same b = true) items others := by
  induction items generalizing others with
  | nil => cases others <;> simp [sameItems]
  | cons item rest ih => cases others <;> simp [sameItems, ih]

theorem sameItems_symm {items others : List Value}
    (symm : ∀ item ∈ items, ∀ other ∈ others, item.same other = true → other.same item = true)
    (h : sameItems items others = true) : sameItems others items = true := by
  rw [sameItems_iff] at h ⊢
  induction h with
  | nil => exact .nil
  | cons first rest ih =>
      refine .cons (symm _ List.mem_cons_self _ List.mem_cons_self first) (ih ?_)
      intro item hi other ho
      exact symm item (List.mem_cons_of_mem _ hi) other (List.mem_cons_of_mem _ ho)

theorem sameItems_trans {items middle others : List Value}
    (trans : ∀ a ∈ items, ∀ b ∈ middle, ∀ c ∈ others,
      a.same b = true → b.same c = true → a.same c = true)
    (h : sameItems items middle = true) (h' : sameItems middle others = true) :
    sameItems items others = true := by
  rw [sameItems_iff] at h h' ⊢
  induction h generalizing others with
  | nil => exact h'
  | cons first rest ih =>
      obtain ⟨other, later, hfirst, hrest, rfl⟩ := List.forall₂_cons_left_iff.mp h'
      refine .cons (trans _ List.mem_cons_self _ List.mem_cons_self _ List.mem_cons_self
        first hfirst) (ih ?_ hrest)
      intro a ha b hb c hc
      exact trans a (List.mem_cons_of_mem _ ha) b (List.mem_cons_of_mem _ hb) c
        (List.mem_cons_of_mem _ hc)

theorem eq_null_of_same {value : Value} (h : same .null value = true) : value = .null := by
  cases value with
  | null => rfl
  | _ => cases h

theorem eq_bool_of_same {b : Bool} {value : Value} (h : same (.bool b) value = true) :
    value = .bool b := by
  cases value with
  | bool a =>
      rw [same, beq_iff_eq] at h
      rw [h]
  | _ => cases h

theorem eq_str_of_same {text : String} {value : Value} (h : same (.str text) value = true) :
    value = .str text := by
  cases value with
  | str other =>
      rw [same, beq_iff_eq] at h
      rw [h]
  | _ => cases h

theorem exists_num_of_same {n : Number} {value : Value} (h : same (.num n) value = true) :
    ∃ m, value = .num m ∧ n.same m = true := by
  cases value with
  | num m => exact ⟨m, rfl, h⟩
  | _ => cases h

theorem exists_arr_of_same {items : List Value} {value : Value}
    (h : same (.arr items) value = true) : ∃ others, value = .arr others := by
  cases value with
  | arr others => exact ⟨others, rfl⟩
  | _ => cases h

theorem exists_obj_of_same {members : Members} {value : Value}
    (h : same (.obj members) value = true) : ∃ others, value = .obj others := by
  cases value with
  | obj others => exact ⟨others, rfl⟩
  | _ => cases h

/-- Each name of the first object is one of the second, and there are no more names in it. -/
theorem names_perm_of_same {members others : Members} (names_nodup : members.names.Nodup)
    (h : same (.obj members) (.obj others) = true) : members.names.Perm others.names := by
  rw [same, Bool.and_eq_true, beq_iff_eq, sameMembers_iff] at h
  obtain ⟨length_eq, found⟩ := h
  have names_subset : members.names ⊆ others.names := by
    intro name hn
    obtain ⟨member, hm, rfl⟩ := List.mem_map.mp hn
    obtain ⟨value, hv, -⟩ := found member hm
    exact Members.name_mem_of_mem (Members.mem_of_get? hv)
  refine (List.subperm_of_subset names_nodup names_subset).perm_of_length_le ?_
  simp [Members.names, length_eq]

/-- Objects are equal when they agree at every name. -/
theorem same_obj_iff {members others : Members} (names_nodup : members.names.Nodup)
    (others_nodup : others.names.Nodup) :
    same (.obj members) (.obj others) = true ↔ ∀ name, members.AgreeAt others name := by
  constructor
  · intro h name
    have names_perm := names_perm_of_same names_nodup h
    rw [same, Bool.and_eq_true, sameMembers_iff] at h
    refine Members.agreeAt_of (fun absent => ?_) fun value hg => h.2 _ (Members.mem_of_get? hg)
    rw [Members.get?_eq_none_iff] at absent ⊢
    exact fun hn => absent (names_perm.mem_iff.mpr hn)
  · intro agree
    have names_perm : members.names.Perm others.names := by
      rw [List.perm_ext_iff_of_nodup names_nodup others_nodup]
      intro name
      rw [← not_iff_not, ← Members.get?_eq_none_iff, ← Members.get?_eq_none_iff]
      exact (agree name).get?_eq_none_iff
    rw [same, Bool.and_eq_true, sameMembers_iff]
    refine ⟨by simpa [Members.names] using names_perm.length_eq, fun member hm => ?_⟩
    exact (agree member.1).exists_same (Members.get?_of_mem names_nodup hm)

theorem Distinct.same_symm {value other : Value} (hv : value.Distinct) (ho : other.Distinct)
    (h : value.same other = true) : other.same value = true := by
  induction hv generalizing other with
  | null =>
      obtain rfl := eq_null_of_same h
      exact h
  | bool b =>
      obtain rfl := eq_bool_of_same h
      exact h
  | num n =>
      obtain ⟨m, rfl, hn⟩ := exists_num_of_same h
      exact Number.same_symm hn
  | str text =>
      obtain rfl := eq_str_of_same h
      exact h
  | arr items_distinct ih =>
      obtain ⟨others, rfl⟩ := exists_arr_of_same h
      rw [distinct_arr_iff] at ho
      rw [same] at h ⊢
      exact sameItems_symm (fun item hi other hm => ih item hi (ho other hm)) h
  | @obj members names_nodup values_distinct ih =>
      obtain ⟨others, rfl⟩ := exists_obj_of_same h
      have others_nodup := (distinct_obj_iff.mp ho).1
      rw [same_obj_iff names_nodup others_nodup] at h
      rw [same_obj_iff others_nodup names_nodup]
      intro name
      refine (h name).symm fun value other hg hother => ?_
      exact ih _ (Members.mem_of_get? hg) (ho.of_get? hother)

theorem Distinct.same_comm {value other : Value} (hv : value.Distinct) (ho : other.Distinct) :
    value.same other = other.same value :=
  Bool.eq_iff_iff.mpr ⟨hv.same_symm ho, ho.same_symm hv⟩

theorem Distinct.same_trans {a b c : Value} (ha : a.Distinct) (hb : b.Distinct)
    (hc : c.Distinct) (hab : a.same b = true) (hbc : b.same c = true) : a.same c = true := by
  induction ha generalizing b c with
  | null =>
      obtain rfl := eq_null_of_same hab
      exact hbc
  | bool x =>
      obtain rfl := eq_bool_of_same hab
      exact hbc
  | str x =>
      obtain rfl := eq_str_of_same hab
      exact hbc
  | num l =>
      obtain ⟨m, rfl, hlm⟩ := exists_num_of_same hab
      obtain ⟨n, rfl, hmn⟩ := exists_num_of_same hbc
      exact Number.same_trans hlm hmn
  | arr items_distinct ih =>
      obtain ⟨middle, rfl⟩ := exists_arr_of_same hab
      obtain ⟨others, rfl⟩ := exists_arr_of_same hbc
      rw [distinct_arr_iff] at hb hc
      rw [same] at hab hbc ⊢
      exact sameItems_trans (fun x hx y hy z hz => ih x hx (hb y hy) (hc z hz)) hab hbc
  | @obj members names_nodup values_distinct ih =>
      obtain ⟨middle, rfl⟩ := exists_obj_of_same hab
      obtain ⟨others, rfl⟩ := exists_obj_of_same hbc
      have middle_nodup := (distinct_obj_iff.mp hb).1
      have others_nodup := (distinct_obj_iff.mp hc).1
      rw [same_obj_iff names_nodup middle_nodup] at hab
      rw [same_obj_iff middle_nodup others_nodup] at hbc
      rw [same_obj_iff names_nodup others_nodup]
      intro name
      refine (hab name).trans (hbc name) fun x y z hx hy hz => ?_
      exact ih _ (Members.mem_of_get? hx) (hb.of_get? hy) (hc.of_get? hz)

end Value

end GameCatalog.Json
