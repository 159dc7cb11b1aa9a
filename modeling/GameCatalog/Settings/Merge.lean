import GameCatalog.Settings.Value
import GameCatalog.Text.LetterCase

/-!
# Merging settings

The members of a table have distinct names. Giving a member a value keeps no trace of letter case in
its name. A table given as the value is merged: its members are given to the table that is there
already, and only what is no table is put in the place of another value.
-/

namespace GameCatalog.Setting

abbrev Members := List (String × Setting)

namespace Members

def edit (name : String) (change : Option Setting → Setting) : Members → Members
  | [] => [(name, change none)]
  | (other, held) :: rest =>
      if other = name then (other, change (some held)) :: rest
      else (other, held) :: edit name change rest

@[simp] theorem lookup_edit_self (name : String) (change : Option Setting → Setting)
    (members : Members) :
    (members.edit name change).lookup name = some (change (members.lookup name)) := by
  induction members with
  | nil => simp [edit]
  | cons member rest ih =>
      obtain ⟨other, held⟩ := member
      by_cases h : other = name
      · simp [edit, h]
      · have hb : (name == other) = false := by simpa using fun e : name = other => h e.symm
        simp [edit, h, List.lookup_cons, hb, ih]

def set (name : String) (value : Setting) (members : Members) : Members :=
  members.edit name fun _ => value

end Members

def members : Setting → Members
  | .table members => members
  | _ => []

mutual

def give (name : String) (value : Setting) (members : Members) : Members :=
  match value with
  | .table incoming =>
      members.edit (Text.lowerCase name) fun held => giveAll incoming (held.getD (.table []))
  | value => members.edit (Text.lowerCase name) fun _ => value

def giveAll : Members → Setting → Setting
  | [], target => target
  | (name, value) :: rest, target => giveAll rest (.table (give name value target.members))

end

end GameCatalog.Setting
