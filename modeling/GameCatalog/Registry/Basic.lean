import GameCatalog.Event

/-!
# The registry of names

A registry binds names to the uids that an authoritative catalog has for them. It is built in
record order: records without a usable name or without a resolved uid bind nothing, and a name that
is bound keeps its first uid. Only a named record's invalid uid stops the building.
-/

namespace GameCatalog

structure Registry where
  bindings : List (String × Uid)
deriving DecidableEq

namespace Registry

def empty : Registry := ⟨[]⟩

def lookup (registry : Registry) (name : String) : Option Uid := registry.bindings.lookup name

def size (registry : Registry) : Nat := registry.bindings.length

def bind (registry : Registry) (name : String) (uid : Uid) : Registry :=
  ⟨registry.bindings ++ [(name, uid)]⟩

@[simp] theorem lookup_empty (name : String) : empty.lookup name = none := rfl

@[simp] theorem size_bind (registry : Registry) (name : String) (uid : Uid) :
    (registry.bind name uid).size = registry.size + 1 := by
  simp [size, bind]

theorem lookup_bind_self {registry : Registry} {name : String}
    (h : registry.lookup name = none) (uid : Uid) :
    (registry.bind name uid).lookup name = some uid := by
  simp only [lookup] at h
  simp [lookup, bind, List.lookup_append, h]

theorem lookup_bind_of_ne {name other : String} (h : other ≠ name) (registry : Registry)
    (uid : Uid) : (registry.bind name uid).lookup other = registry.lookup other := by
  have hb : (other == name) = false := by simpa using h
  simp [lookup, bind, List.lookup_append, List.lookup_cons, hb]

def learn (registry : Registry) (record : Record) :
    Except RecordFault (Registry × List Event) :=
  match record.usableName? with
  | none => .ok (registry, [.authorityNameless])
  | some name =>
      match record.uid with
      | .error fault => .error fault
      | .ok (.resolved uid) =>
          match registry.lookup name with
          | some kept => .ok (registry, [.authorityRepeats name kept uid])
          | none => .ok (registry.bind name uid, [])
      | .ok _ => .ok (registry, [.authorityUidless name])

def learnAll (registry : Registry) : List Record → Except RecordFault Registry × List Event
  | [] => (.ok registry, [])
  | record :: rest =>
      match registry.learn record with
      | .error fault => (.error fault, [])
      | .ok (registry, events) =>
          let (answer, more) := registry.learnAll rest
          (answer, events ++ more)

def ofCatalog (authority : Catalog) : Except RecordFault Registry × List Event :=
  empty.learnAll authority.games

end Registry

end GameCatalog
