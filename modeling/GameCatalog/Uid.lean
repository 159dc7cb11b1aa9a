import GameCatalog.Json.Value

/-!
# Uids

The stable key of a record is a signed 64-bit integer. A number is a uid when it is an integer of
that range; doubles and larger integers are none.
-/

namespace GameCatalog

/-- At least `-2 ^ 63` and below `2 ^ 63`. -/
def Uid.InRange (n : Int) : Prop := -0x8000000000000000 ≤ n ∧ n < 0x8000000000000000

instance (n : Int) : Decidable (Uid.InRange n) := by
  unfold Uid.InRange
  infer_instance

structure Uid where
  val : Int
  inRange : Uid.InRange val
deriving DecidableEq

namespace Uid

def ofInt? (n : Int) : Option Uid := if h : InRange n then some ⟨n, h⟩ else none

def ofValue? : Json.Value → Option Uid
  | .num (.int n _) => ofInt? n
  | _ => none

def toNumber (uid : Uid) : Json.Number :=
  .int uid.val (by
    have h := uid.inRange
    unfold InRange at h
    unfold Json.InWideRange
    omega)

instance : ToString Uid := ⟨fun uid => toString uid.val⟩

@[ext] theorem ext {u v : Uid} (h : u.val = v.val) : u = v := by
  cases u
  cases v
  simp_all

@[simp] theorem ofInt?_val (uid : Uid) : ofInt? uid.val = some uid := by
  simp [ofInt?, uid.inRange]

@[simp] theorem ofValue?_toNumber (uid : Uid) : ofValue? (.num uid.toNumber) = some uid := by
  simp [ofValue?, toNumber]

end Uid

end GameCatalog
