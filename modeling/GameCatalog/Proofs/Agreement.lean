import GameCatalog.Proofs.CarriedRevision
import GameCatalog.Proofs.Json.Equality

/-!
# Records that agree

Two versions of a record agree in a field when both lack it or have equal values there. Where names
are distinct, agreement in a field carries over from one version to the next. Records are equal when
they agree in every field; there is no change between equal records, and they have one resolved uid.
-/

namespace GameCatalog

open Json

/-- Only integers are uids, and an integer is equal to itself alone. -/
theorem Uid.ofValue?_of_same {value other : Value} (h : value.same other = true) :
    ofValue? value = ofValue? other := by
  cases value with
  | num m =>
      cases other with
      | num n =>
          cases m with
          | float x =>
              cases n with
              | float y => rfl
              | int b inRange => cases h
          | int a inRange =>
              cases n with
              | float y => cases h
              | int b inRange' =>
                  have he : a = b := by simpa [Value.same, Number.same] using h
                  rw [ofValue?, ofValue?, he]
      | _ => cases h
  | _ =>
      cases other with
      | num n => cases h
      | _ => rfl

namespace Record

variable {a b c : Record} {field : String}

theorem Distinct.names_nodup (h : a.Distinct) : a.fields.names.Nodup :=
  (Value.distinct_obj_iff.mp h).1

theorem agreesAt_iff : a.agreesAt b field = true ↔ a.fields.AgreeAt b.fields field := by
  unfold agreesAt Members.AgreeAt get?
  cases Members.get? field a.fields <;> cases Members.get? field b.fields <;> simp

/-- Equal records are those that agree in every field. -/
theorem same_iff (ha : a.Distinct) (hb : b.Distinct) :
    a.same b = true ↔ ∀ field, a.agreesAt b field = true := by
  rw [same, Value.same_obj_iff ha.names_nodup hb.names_nodup]
  exact forall_congr' fun field => agreesAt_iff.symm

theorem agreesAt_trans (ha : a.Distinct) (hb : b.Distinct) (hc : c.Distinct)
    (h : a.agreesAt b field = true) (h' : b.agreesAt c field = true) :
    a.agreesAt c field = true := by
  rw [agreesAt_iff] at h h' ⊢
  exact h.trans h' fun x y z hx hy hz => (Value.Distinct.of_get? ha hx).same_trans
    (Value.Distinct.of_get? hb hy) (Value.Distinct.of_get? hc hz)

/-- There is no change between equal records, and only between these. -/
theorem changes_eq_nil_iff (ha : a.Distinct) (hb : b.Distinct) :
    a.changes b = [] ↔ a.same b = true := by
  rw [same_iff ha hb, List.eq_nil_iff_forall_not_mem]
  constructor
  · intro none_listed field
    by_contra hdiffers
    have differs : a.agreesAt b field = false := by simpa using hdiffers
    obtain ⟨change, hm, -⟩ := (exists_change_iff hb.names_nodup).mpr differs
    exact none_listed change hm
  · intro agree change hm
    have differs := (exists_change_iff hb.names_nodup).mp ⟨change, hm, rfl⟩
    rw [agree] at differs
    cases differs

theorem resolved?_of_same (ha : a.Distinct) (hb : b.Distinct) (h : a.same b = true) :
    a.resolved? = b.resolved? := by
  have agree := agreesAt_iff.mp ((same_iff ha hb).mp h "uid")
  rw [resolved?_eq_bind, resolved?_eq_bind, get?, get?]
  cases hg : Members.get? "uid" a.fields with
  | none => rw [agree.get?_eq_none_iff.mp hg]
  | some value =>
      obtain ⟨other, ho, hs⟩ := agree.exists_same hg
      rw [ho]
      exact Uid.ofValue?_of_same hs

end Record

theorem Catalog.Distinct.of_find? {catalog : Catalog} (distinct : catalog.Distinct)
    {coverage : Coverage} {table : UidTable} (h : catalog.uidTable coverage = .ok table)
    {uid : Uid} {record : Record} (hf : table.find? uid = some record) : record.Distinct :=
  distinct record (mem_of_find?_uidTable h hf).1

end GameCatalog
