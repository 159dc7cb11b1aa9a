import GameCatalog.Proofs.Json.NumeralText
import GameCatalog.Proofs.Json.StringText
import Mathlib.Data.List.Basic
import Mathlib.Data.List.Induction

/-!
# Trees of written values

A tree is a value as it is written: numbers by their numerals, and objects with all their members in
order, repeated names among them. What a tree is written as is said by the rules of the format:
strings with or without escapes, parts of containers between blanks, nesting up to a depth.
-/

namespace GameCatalog.Json

/-! ## Trees -/

inductive Tree where
  | null
  | bool (b : Bool)
  | num (numeral : Numeral) (n : Number) (stands : numeral.value? = some n)
  | str (text : String)
  | arr (items : List Tree)
  | obj (members : List (String × Tree))

/-- The members that are left of a list with repeated names: each name at the place where it comes
first, with the value that it is given last. -/
def Members.ofRepeated (members : Members) : Members :=
  members.names.eraseDups.filterMap fun name => (Members.get? name members.reverse).map (name, ·)

namespace Tree

mutual

def value : Tree → Value
  | .null => .null
  | .bool b => .bool b
  | .num _ n _ => .num n
  | .str text => .str text
  | .arr items => .arr (itemValues items)
  | .obj members => .obj (Members.ofRepeated (memberValues members))

def itemValues : List Tree → List Value
  | [] => []
  | item :: rest => item.value :: itemValues rest

def memberValues : List (String × Tree) → Members
  | [] => []
  | (name, tree) :: rest => (name, tree.value) :: memberValues rest

end

theorem itemValues_eq_map (items : List Tree) : itemValues items = items.map value := by
  induction items with
  | nil => rfl
  | cons item rest ih => simp [itemValues, ih]

theorem memberValues_eq_map (members : List (String × Tree)) :
    memberValues members = members.map fun member => (member.1, member.2.value) := by
  induction members with
  | nil => rfl
  | cons member rest ih => simp [memberValues, ih]

end Tree

/-! ## Repeated names -/

namespace Members

theorem eraseDups_concat (names : List String) (name : String) :
    (names ++ [name]).eraseDups =
      if name ∈ names then names.eraseDups else names.eraseDups ++ [name] := by
  by_cases h : name ∈ names <;> simp [List.eraseDups_append, List.removeAll, h, List.eraseDups_cons]

theorem nodup_eraseDups (names : List String) : names.eraseDups.Nodup := by
  induction names using List.reverseRecOn with
  | nil => simp
  | append_singleton names name ih =>
      rw [eraseDups_concat]
      split
      · exact ih
      next new =>
        have other_ne : ∀ other ∈ names.eraseDups, other ≠ name := fun other hm same =>
          new (same ▸ List.mem_eraseDups.mp hm)
        exact List.nodup_append.mpr ⟨ih, by simp, by simpa using other_ne⟩

def ofNames (value? : String → Option Value) (names : List String) : Members :=
  names.filterMap fun name => (value? name).map (name, ·)

theorem ofNames_update_of_not_mem {name : String} {names : List String} (h : name ∉ names)
    (value? : String → Option Value) (value : Value) :
    ofNames (Function.update value? name (some value)) names = ofNames value? names :=
  List.filterMap_congr fun other hm => by
    have ne : other ≠ name := fun same => h (same ▸ hm)
    rw [Function.update_of_ne ne]

theorem mem_of_mem_names_ofNames {name : String} {value? : String → Option Value}
    {names : List String} (h : name ∈ (ofNames value? names).names) : name ∈ names := by
  obtain ⟨member, hm, rfl⟩ := List.mem_map.mp h
  obtain ⟨other, hother, hvalue⟩ := List.mem_filterMap.mp hm
  obtain ⟨value, -, rfl⟩ := Option.map_eq_some_iff.mp hvalue
  exact hother

theorem set_ofNames {name : String} {names : List String} (names_nodup : names.Nodup)
    (h : name ∈ names) {value? : String → Option Value} (held : (value? name).isSome)
    (value : Value) :
    (ofNames value? names).set name value =
      ofNames (Function.update value? name (some value)) names := by
  induction names with
  | nil => cases h
  | cons key rest ih =>
      rw [List.nodup_cons] at names_nodup
      by_cases here : key = name
      · subst here
        obtain ⟨old, hold⟩ := Option.isSome_iff_exists.mp held
        have later := ofNames_update_of_not_mem names_nodup.1 value? value
        unfold ofNames at later ⊢
        simp [hold, set, later]
      · have rest_mem : name ∈ rest := (List.mem_cons.mp h).resolve_left (Ne.symm here)
        have later := ih names_nodup.2 rest_mem
        unfold ofNames at later ⊢
        cases hk : value? key <;> simp [hk, set, here, later]

theorem get?_reverse_concat (members : Members) (name : String) (value : Value) :
    (get? · (members ++ [(name, value)]).reverse) =
      Function.update (get? · members.reverse) name (some value) := by
  funext other
  by_cases h : name = other
  · subst h
    simp [get?]
  · simp [get?, h, Ne.symm h]

theorem ofRepeated_eq (members : Members) :
    ofRepeated members = ofNames (get? · members.reverse) members.names.eraseDups := rfl

theorem ofRepeated_concat (members : Members) (name : String) (value : Value) :
    ofRepeated (members ++ [(name, value)]) = (ofRepeated members).set name value := by
  rw [ofRepeated_eq, ofRepeated_eq, get?_reverse_concat, names_append, names_cons, names_nil,
    eraseDups_concat]
  by_cases h : name ∈ members.names
  · have held : (get? name members.reverse).isSome := by
      rw [Option.isSome_iff_ne_none, ne_eq, get?_eq_none_iff]
      simpa [names] using h
    rw [if_pos h, set_ofNames (nodup_eraseDups _) (List.mem_eraseDups.mpr h) held]
  · have new : name ∉ members.names.eraseDups := fun hm => h (List.mem_eraseDups.mp hm)
    have kept := ofNames_update_of_not_mem new (get? · members.reverse) value
    rw [if_neg h, set_of_not_mem fun hm => new (mem_of_mem_names_ofNames hm), ← kept]
    simp [ofNames]

/-- Giving the members to an empty object one after another leaves each name at its first place
with its last value. -/
theorem foldl_set_eq_ofRepeated (members : Members) :
    members.foldl (fun held member => set member.1 member.2 held) [] = ofRepeated members := by
  induction members using List.reverseRecOn with
  | nil => rfl
  | append_singleton members member ih =>
      rw [List.foldl_append, ih, List.foldl_cons, List.foldl_nil, ofRepeated_concat]

end Members

/-! ## Written containers -/

/-- What follows a part of a container: further parts, each behind a comma, and the bracket. -/
inductive Following (last : Char) : List (List Char) → List Char → Prop where
  | close {gap : List Char} (blank : AllBlank gap) : Following last [] (gap ++ [last])
  | next {gap space part rest : List Char} {parts : List (List Char)} (blank : AllBlank gap)
      (space_blank : AllBlank space) (more : Following last parts rest) :
      Following last (part :: parts) (gap ++ ',' :: (space ++ (part ++ rest)))

/-- The inside of a container with the closing bracket. -/
inductive Inside (last : Char) : List (List Char) → List Char → Prop where
  | empty {gap : List Char} (blank : AllBlank gap) : Inside last [] (gap ++ [last])
  | parts {space part rest : List Char} {parts : List (List Char)} (blank : AllBlank space)
      (more : Following last parts rest) : Inside last (part :: parts) (space ++ (part ++ rest))

/-- A member with the texts of its name and of its value and the blanks around the colon. -/
structure WrittenMember where
  name : String
  tree : Tree
  quoted : List Char
  gap : List Char
  space : List Char
  text : List Char
  quoted_text : StringText name quoted
  gap_blank : AllBlank gap
  space_blank : AllBlank space

namespace WrittenMember

def member (written : WrittenMember) : String × Tree := (written.name, written.tree)

def chars (written : WrittenMember) : List Char :=
  written.quoted ++ (written.gap ++ ':' :: (written.space ++ written.text))

end WrittenMember

/-- The text is a way to write the tree with at most so many containers around any place. -/
inductive Written : Nat → Tree → List Char → Prop where
  | null {depth : Nat} : Written depth .null ['n', 'u', 'l', 'l']
  | true {depth : Nat} : Written depth (.bool true) ['t', 'r', 'u', 'e']
  | false {depth : Nat} : Written depth (.bool false) ['f', 'a', 'l', 's', 'e']
  | num {depth : Nat} {numeral : Numeral} {n : Number} {stands : numeral.value? = some n}
      {text : List Char} (written : numeral.Written text) :
      Written depth (.num numeral n stands) text
  | str {depth : Nat} {text : String} {quoted : List Char} (written : StringText text quoted) :
      Written depth (.str text) quoted
  | arr {depth : Nat} {items : List (Tree × List Char)} {inside : List Char}
      (parts : Inside ']' (items.map (·.2)) inside)
      (items_written : ∀ item ∈ items, Written depth item.1 item.2) :
      Written (depth + 1) (.arr (items.map (·.1))) ('[' :: inside)
  | obj {depth : Nat} {members : List WrittenMember} {inside : List Char}
      (parts : Inside '\x7d' (members.map (·.chars)) inside)
      (trees_written : ∀ member ∈ members, Written depth member.tree member.text) :
      Written (depth + 1) (.obj (members.map (·.member))) ('\x7b' :: inside)

/-- The text is one value between blanks, written as the tree, that nests within the limit. -/
def Tree.IsText (tree : Tree) (text : String) : Prop :=
  ∃ before inner after, AllBlank before ∧ AllBlank after ∧ Written nestingLimit tree inner ∧
    text.toList = before ++ (inner ++ after)

end GameCatalog.Json
