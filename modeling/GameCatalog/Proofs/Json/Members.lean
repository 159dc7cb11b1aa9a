import GameCatalog.Json.Value

/-!
# Members with distinct names

Giving a name a value keeps names distinct: a new name goes to the end, and a present one keeps its
place. Where names are distinct, the members are exactly what looking a name up finds.
-/

namespace GameCatalog.Json.Members

@[simp] theorem names_nil : names [] = [] := rfl

@[simp] theorem names_cons (name : String) (value : Value) (rest : Members) :
    names ((name, value) :: rest) = name :: names rest := rfl

@[simp] theorem names_append (members more : Members) :
    names (members ++ more) = names members ++ names more := by
  simp [names]

theorem mem_of_get? {name : String} {value : Value} {members : Members}
    (h : members.get? name = some value) : (name, value) ∈ members := by
  induction members with
  | nil => simp [get?] at h
  | cons member rest ih =>
      obtain ⟨key, held⟩ := member
      by_cases hk : key = name
      · simp only [get?, hk, if_true, Option.some.injEq] at h
        simp [hk, h]
      · simp only [get?, hk, if_false] at h
        exact List.mem_cons_of_mem _ (ih h)

theorem name_mem_of_mem {name : String} {value : Value} {members : Members}
    (h : (name, value) ∈ members) : name ∈ members.names :=
  List.mem_map_of_mem h

theorem get?_of_mem {name : String} {value : Value} {members : Members}
    (distinct : members.names.Nodup) (h : (name, value) ∈ members) :
    members.get? name = some value := by
  induction members with
  | nil => simp at h
  | cons member rest ih =>
      obtain ⟨key, held⟩ := member
      rw [names_cons, List.nodup_cons] at distinct
      rcases List.mem_cons.mp h with he | hm
      · simp only [Prod.mk.injEq] at he
        simp [get?, he]
      · have hk : key ≠ name := fun e => distinct.1 (e ▸ name_mem_of_mem hm)
        simp [get?, hk, ih distinct.2 hm]

theorem set_of_not_mem {name : String} {members : Members} (h : name ∉ members.names)
    (value : Value) : members.set name value = members ++ [(name, value)] := by
  induction members with
  | nil => rfl
  | cons member rest ih =>
      obtain ⟨key, held⟩ := member
      rw [names_cons, List.mem_cons, not_or] at h
      simp [set, Ne.symm h.1, ih h.2]

/-- The place of a present name, and what giving it a value does there. -/
theorem set_of_mem {name : String} {members : Members} (h : name ∈ members.names)
    (value : Value) :
    ∃ before held after, members = before ++ (name, held) :: after ∧ name ∉ before.names ∧
      members.set name value = before ++ (name, value) :: after := by
  induction members with
  | nil => simp at h
  | cons member rest ih =>
      obtain ⟨key, held⟩ := member
      by_cases hk : key = name
      · subst hk
        exact ⟨[], held, rest, rfl, by simp, by simp [set]⟩
      · have hrest : name ∈ names rest := by
          simpa [Ne.symm hk] using h
        obtain ⟨before, other, after, hm, hb, hs⟩ := ih hrest
        refine ⟨(key, held) :: before, other, after, by simp [hm], ?_, by simp [set, hk, hs]⟩
        simp [hb, Ne.symm hk]

/-- The last value that a name is given counts. -/
theorem set_set (name : String) (value other : Value) (members : Members) :
    (members.set name value).set name other = members.set name other := by
  induction members with
  | nil => simp [set]
  | cons member rest ih =>
      obtain ⟨key, held⟩ := member
      by_cases hk : key = name
      · simp [set, hk]
      · simp [set, hk, ih]

/-- Giving a name the value that it has changes nothing. -/
theorem set_of_get? {name : String} {value : Value} {members : Members}
    (h : members.get? name = some value) : members.set name value = members := by
  induction members with
  | nil => simp [get?] at h
  | cons member rest ih =>
      obtain ⟨key, held⟩ := member
      by_cases hk : key = name
      · simp only [get?, hk, if_true, Option.some.injEq] at h
        simp [set, hk, h]
      · simp only [get?, hk, if_false] at h
        simp [set, hk, ih h]

theorem names_set (name : String) (value : Value) (members : Members) :
    (members.set name value).names =
      if name ∈ members.names then members.names else members.names ++ [name] := by
  by_cases h : name ∈ members.names
  · obtain ⟨before, held, after, hm, -, hs⟩ := set_of_mem h value
    rw [if_pos h, hs, hm]
    simp
  · rw [if_neg h, set_of_not_mem h]
    simp

theorem nodup_names_set {members : Members} (h : members.names.Nodup) (name : String)
    (value : Value) : (members.set name value).names.Nodup := by
  rw [names_set]
  split
  · exact h
  next hn => exact List.nodup_append.mpr ⟨h, by simp, by
      intro other ho last hl e
      simp only [List.mem_singleton] at hl
      exact hn (hl ▸ e ▸ ho)⟩

theorem mem_set {name : String} {value : Value} {members : Members} {member : String × Value}
    (h : member ∈ members.set name value) : member = (name, value) ∨ member ∈ members := by
  by_cases hn : name ∈ members.names
  · obtain ⟨before, held, after, hm, -, hs⟩ := set_of_mem hn value
    rw [hs] at h
    rw [hm]
    simp only [List.mem_append, List.mem_cons] at h ⊢
    rcases h with h | h | h
    · exact .inr (.inl h)
    · exact .inl h
    · exact .inr (.inr (.inr h))
  · rw [set_of_not_mem hn] at h
    rcases List.mem_append.mp h with h | h
    · exact .inr h
    · exact .inl (by simpa using h)

end GameCatalog.Json.Members
