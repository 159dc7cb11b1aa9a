import GameCatalog.Binary64.Basic

/-!
# JSON values

A value is a tree whose objects keep their members in order. Integers of up to 64 bits and doubles
are two kinds of number. Equality of values, `Value.same`, tells the two kinds apart, compares
doubles by value and looks at the members of an object irrespective of their order.
-/

namespace GameCatalog.Json

/-- The integers that are kept as integers: those of 64 bits, signed or not, from `-2 ^ 63` up to
`2 ^ 64 - 1`. -/
def InWideRange (n : Int) : Prop := -0x8000000000000000 ≤ n ∧ n < 0x10000000000000000

instance (n : Int) : Decidable (InWideRange n) := by
  unfold InWideRange
  infer_instance

inductive Number where
  | int (n : Int) (inRange : InWideRange n)
  | float (x : Binary64)
deriving DecidableEq

namespace Number

def same : Number → Number → Bool
  | .int m _, .int n _ => m == n
  | .float x, .float y => x.same y
  | _, _ => false

end Number

inductive Value where
  | null
  | bool (b : Bool)
  | num (n : Number)
  | str (text : String)
  | arr (items : List Value)
  | obj (members : List (String × Value))

instance : Inhabited Value := ⟨.null⟩

abbrev Members := List (String × Value)

namespace Members

def get? (name : String) : Members → Option Value
  | [] => none
  | (key, value) :: rest => if key = name then some value else get? name rest

/-- Gives a name a value: in place where the name is present, else as the last member. -/
def set (name : String) (value : Value) : Members → Members
  | [] => [(name, value)]
  | (key, held) :: rest =>
      if key = name then (key, value) :: rest else (key, held) :: set name value rest

def names (members : Members) : List String := members.map (·.1)

@[simp] theorem get?_set_self (name : String) (value : Value) (members : Members) :
    (members.set name value).get? name = some value := by
  induction members with
  | nil => simp [set, get?]
  | cons member rest ih =>
      obtain ⟨key, held⟩ := member
      by_cases h : key = name <;> simp [set, get?, h, ih]

theorem get?_set_of_ne {name other : String} (h : other ≠ name) (value : Value)
    (members : Members) : (members.set name value).get? other = members.get? other := by
  induction members with
  | nil => simp [set, get?, h.symm]
  | cons member rest ih =>
      obtain ⟨key, held⟩ := member
      by_cases hk : key = name
      · subst hk
        simp [set, get?, h.symm]
      · by_cases ho : key = other
        · subst ho
          simp [set, get?, h]
        · simp [set, get?, hk, ho, ih]

theorem get?_eq_none_iff {name : String} {members : Members} :
    members.get? name = none ↔ name ∉ members.names := by
  induction members with
  | nil => simp [get?, names]
  | cons member rest ih =>
      obtain ⟨key, held⟩ := member
      by_cases h : key = name
      · simp [get?, names, h]
      · have h' : name ≠ key := fun e => h e.symm
        simpa [get?, names, h, h'] using ih

end Members

namespace Value

mutual

/-- Equality of values. Two objects are equal when they have equally many members and each member
of the first has an equal one in the second. -/
def same : Value → Value → Bool
  | .null, .null => true
  | .bool a, .bool b => a == b
  | .num a, .num b => a.same b
  | .str a, .str b => a == b
  | .arr a, .arr b => sameItems a b
  | .obj a, .obj b => a.length == b.length && sameMembers a b
  | _, _ => false

def sameItems : List Value → List Value → Bool
  | [], [] => true
  | a :: as, b :: bs => same a b && sameItems as bs
  | _, _ => false

def sameMembers : List (String × Value) → List (String × Value) → Bool
  | [], _ => true
  | (name, a) :: as, bs =>
      (match Members.get? name bs with
        | some b => same a b
        | none => false) && sameMembers as bs

end

def isNull : Value → Bool
  | .null => true
  | _ => false

end Value

end GameCatalog.Json
