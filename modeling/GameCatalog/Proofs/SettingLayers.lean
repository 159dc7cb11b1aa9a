import GameCatalog.Settings.Basic
import Mathlib.Data.List.Induction
import Mathlib.Data.List.TakeWhile

/-!
# Layers of settings

Each entry of a layer edits the one member of the table of all settings that its name leads to. So
an entry with a scalar or a list decides the member when no later entry leads there, and leaves all
other members to the entries around it.
-/

namespace GameCatalog

namespace Setting

theorem Members.lookup_edit_of_ne {name other : String} (h : other ≠ name)
    (change : Option Setting → Setting) (members : Members) :
    (members.edit name change).lookup other = members.lookup other := by
  have hb : (other == name) = false := by simpa using h
  induction members with
  | nil => simp [edit, h]
  | cons member rest ih =>
      obtain ⟨first, held⟩ := member
      by_cases hf : first = name
      · simp [edit, hf, List.lookup_cons, hb]
      · simp [edit, hf, List.lookup_cons, ih]

end Setting

namespace SettingName

/-- The member of the table of all settings that a name leads to. -/
def key? : SettingName → Option String
  | [.member name] => some (Text.lowerCase name)
  | .member name :: _ => some name
  | _ => none

theorem exists_key? (text : String) : ∃ key, (ofText text).key? = some key := by
  have whole : ∃ first steps, ofText text = .member first :: steps := by
    unfold ofText
    dsimp only
    split
    · split
      · exact ⟨_, _, rfl⟩
      · exact ⟨_, _, rfl⟩
    · exact ⟨_, _, rfl⟩
  obtain ⟨first, steps, he⟩ := whole
  rw [he]
  cases steps with
  | nil => exact ⟨_, rfl⟩
  | cons step more => exact ⟨_, rfl⟩

theorem ofText_of_isNameChar {text : String} (nonempty : text ≠ "")
    (plain : text.toList.all isNameChar) : ofText text = [.member text] := by
  have whole : text.toList.takeWhile isNameChar = text.toList :=
    List.takeWhile_eq_self_iff.mpr (List.all_eq_true.mp plain)
  have fresh : text.toList.isEmpty = false := by simpa using nonempty
  simp [ofText, whole, steps?, fresh]

end SettingName

namespace Settings

open Setting

/-! ## Edits of the table -/

theorem exists_give_eq (name : String) (value : Setting) :
    ∃ change, ∀ members, give name value members = members.edit (Text.lowerCase name) change := by
  cases value with
  | table incoming => exact ⟨_, fun members => by rw [give]⟩
  | absent | scalar value | list items =>
      exact ⟨_, fun members => by rw [give]; exact nofun⟩

/-- An entry edits the member that its name leads to, and no other one. -/
theorem exists_put_eq {name : SettingName} {key : String} (leads : name.key? = some key)
    (value : Setting) :
    ∃ change, ∀ setting, put value name setting = .table (setting.members.edit key change) := by
  cases name with
  | nil => cases leads
  | cons step steps =>
      cases step with
      | item index => cases steps <;> cases leads
      | member first =>
          cases steps with
          | nil =>
              obtain ⟨change, he⟩ := exists_give_eq first value
              obtain rfl := Option.some.inj leads
              exact ⟨change, fun setting => by rw [put, he]⟩
          | cons next more =>
              obtain rfl := Option.some.inj leads
              exact ⟨_, fun setting => by rw [put]; exact nofun⟩

/-- An entry of a layer leads to a member other than the one of a key. -/
def LeadsElsewhere (key : String) (entry : SettingName × Setting) : Prop :=
  ∃ other, entry.1.key? = some other ∧ other ≠ key

section Entry

variable {name : SettingName} {value : Setting} {key : String} {change : Option Setting → Setting}

theorem tableOf_concat
    (edits : ∀ setting, put value name setting = .table (setting.members.edit key change))
    (layer : Layer) : tableOf (layer ++ [(name, value)]) = (tableOf layer).edit key change := by
  rw [tableOf, List.foldl_append]
  exact congrArg Setting.members (edits _)

/-- What an entry edits stays as it is when the entries behind it lead elsewhere, and they see no
difference in the other members. -/
theorem lookup_tableOf {before after : Layer}
    (edits : ∀ setting, put value name setting = .table (setting.members.edit key change))
    (elsewhere : ∀ later ∈ after, LeadsElsewhere key later) (member : String) :
    (tableOf (before ++ (name, value) :: after)).lookup member =
      if member = key then some (change ((tableOf before).lookup key))
      else (tableOf (before ++ after)).lookup member := by
  induction after using List.reverseRecOn generalizing member with
  | nil =>
      rw [tableOf_concat edits, List.append_nil]
      split
      next same => rw [same, Members.lookup_edit_self]
      next other => exact Members.lookup_edit_of_ne other change _
  | append_singleton after last ih =>
      have earlier : ∀ later ∈ after, LeadsElsewhere key later :=
        fun later hm => elsewhere later (List.mem_append_left _ hm)
      obtain ⟨other, leads, hne⟩ := elsewhere last (by simp)
      obtain ⟨change', edits'⟩ := exists_put_eq leads last.2
      rw [← List.cons_append, ← List.append_assoc, ← List.append_assoc, tableOf_concat edits',
        tableOf_concat edits']
      by_cases same : member = other
      · rw [same, Members.lookup_edit_self, Members.lookup_edit_self, ih earlier, if_neg hne,
          if_neg hne]
      · rw [Members.lookup_edit_of_ne same, Members.lookup_edit_of_ne same, ih earlier]

end Entry

end Settings

end GameCatalog
