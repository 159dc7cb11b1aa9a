/-!
# Answers that may be faults

How a computation that may fail comes apart: it has an answer when its first part has one and the
rest has one for it.
-/

namespace GameCatalog

@[simp] theorem ok_bind (value : α) (f : α → Except ε β) : (Except.ok value >>= f) = f value := rfl

@[simp] theorem error_bind (fault : ε) (f : α → Except ε β) :
    (Except.error fault >>= f) = .error fault := rfl

theorem bind_eq_ok_iff {first : Except ε α} {f : α → Except ε β} {result : β} :
    (first >>= f) = .ok result ↔ ∃ value, first = .ok value ∧ f value = .ok result := by
  cases first <;> simp

theorem bind_eq_error_iff {first : Except ε α} {f : α → Except ε β} {fault : ε} :
    (first >>= f) = .error fault ↔
      first = .error fault ∨ ∃ value, first = .ok value ∧ f value = .error fault := by
  cases first <;> simp

@[simp] theorem toOption_ok (value : α) :
    (Except.ok value : Except ε α).toOption = some value := rfl

@[simp] theorem toOption_error (fault : ε) :
    (Except.error fault : Except ε α).toOption = none := rfl

theorem toOption_bind (first : Except ε α) (f : α → Except ε β) :
    (first >>= f).toOption = first.toOption.bind fun value => (f value).toOption := by
  cases first <;> rfl

theorem toOption_eq_some_iff {result : Except ε α} {value : α} :
    result.toOption = some value ↔ result = .ok value := by
  cases result <;> simp

end GameCatalog
