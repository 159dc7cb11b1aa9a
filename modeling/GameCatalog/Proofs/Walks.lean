import GameCatalog.Files.Tree

/-!
# Walks through a tree

Where parts lead from a directory, as a relation with a rule for each kind of part. What is said of
paths is shown along it, so a link is one more step with a path of its own.
-/

namespace GameCatalog

/-- A part that is the name of an entry, and no step of another kind. -/
structure IsName (part : Name) : Prop where
  nonempty : part ≠ []
  not_dot : part ≠ Path.dot
  not_dots : part ≠ Path.dots

namespace FileTree

def Admits (writing : Bool) (rest : List Name) : Prop :=
  ¬(writing ∧ rest ≠ [] ∧ rest.all (· = []))

section Relation

variable (entries : List (Place × Entry)) (writing : Bool)

/-- A part names an entry of a directory, or is a name that is free there. -/
structure Names (place : Place) (part : Name) (held : Option Entry) : Prop where
  isName : IsName part
  fits : FileFault.ofName? part = none
  found : entries.lookup (place ++ [part]) = held

/-- Where parts lead from a directory, through as many links at most. -/
inductive Leads : Nat → Place → List Name → Arrival → Prop
  | done {links : Nat} {place : Place} : Leads links place [] (.directory place)
  | stay {links : Nat} {place : Place} {part : Name} {rest : List Name} {arrival : Arrival}
      (blank : part = [] ∨ part = Path.dot) (next : Leads links place rest arrival) :
      Leads links place (part :: rest) arrival
  | up {links : Nat} {place : Place} {rest : List Name} {arrival : Arrival}
      (next : Leads links place.dropLast rest arrival) :
      Leads links place (Path.dots :: rest) arrival
  | enter {links : Nat} {place : Place} {part : Name} {rest : List Name} {arrival : Arrival}
      (admits : Admits writing rest) (named : Names entries place part (some .directory))
      (next : Leads links (place ++ [part]) rest arrival) :
      Leads links place (part :: rest) arrival
  | file {links : Nat} {place : Place} {part : Name} {number : Nat}
      (named : Names entries place part (some (.file number))) :
      Leads links place [part] (.file number)
  | free {links : Nat} {place : Place} {part : Name} (named : Names entries place part none) :
      Leads links place [part] (.free (place ++ [part]))
  | link {links : Nat} {place : Place} {part : Name} {rest : List Name} {target : Path}
      {arrival : Arrival} (admits : Admits writing rest)
      (named : Names entries place part (some (.link target)))
      (next : Leads links (startAt place target) (target.parts ++ rest) arrival) :
      Leads (links + 1) place (part :: rest) arrival

end Relation

section Walk

variable {entries : List (Place × Entry)} {writing : Bool} {links : Nat} {place : Place}
  {part : Name} {parts rest : List Name} {arrival : Arrival}

theorem admits_nil : Admits writing [] := by simp [Admits]

theorem walk_name (isName : IsName part) (fits : FileFault.ofName? part = none)
    (admits : Admits writing rest) :
    walk entries writing links place (part :: rest) =
      match entries.lookup (place ++ [part]) with
        | some .directory => walk entries writing links (place ++ [part]) rest
        | some (.file number) => if rest = [] then .ok (.file number) else .error .notDirectory
        | some (.link target) => leap entries writing links place target rest
        | none => if rest = [] then .ok (.free (place ++ [part])) else .error .notFound := by
  rw [walk, walkBy, if_neg (by simp [isName.nonempty, isName.not_dot]), if_neg isName.not_dots,
    if_neg admits, fits]
  cases entries.lookup (place ++ [part]) with
  | none => rfl
  | some entry => cases entry <;> rfl

theorem Leads.walk_eq (h : Leads entries writing links place parts arrival) :
    walk entries writing links place parts = .ok arrival := by
  induction h with
  | done => rfl
  | stay blank next ih => rwa [walk, walkBy, if_pos blank]
  | up next ih => rwa [walk, walkBy, if_neg (by decide), if_pos rfl]
  | enter admits named next ih => rwa [walk_name named.isName named.fits admits, named.found]
  | file named => rw [walk_name named.isName named.fits admits_nil, named.found]; rfl
  | free named => rw [walk_name named.isName named.fits admits_nil, named.found]; rfl
  | link admits named next ih => rwa [walk_name named.isName named.fits admits, named.found]

theorem leads_of_walkBy {leap : Place → Path → List Name → Except FileFault Arrival}
    (leaps : ∀ place target rest, leap place target rest = .ok arrival →
      ∃ fewer, links = fewer + 1 ∧
        Leads entries writing fewer (startAt place target) (target.parts ++ rest) arrival)
    (h : walkBy entries writing leap place parts = .ok arrival) :
    Leads entries writing links place parts arrival := by
  induction parts generalizing place with
  | nil =>
      cases h
      exact .done
  | cons part rest ih =>
      rw [walkBy] at h
      split at h
      next blank => exact .stay blank (ih h)
      next counts =>
        split at h
        next up => exact up ▸ .up (ih h)
        next down =>
          split at h
          next => cases h
          next admits =>
            rw [not_or] at counts
            have isName : IsName part := ⟨counts.1, counts.2, down⟩
            split at h
            next => cases h
            next fits found => exact .enter admits ⟨isName, fits, found⟩ (ih h)
            next number fits found =>
              split at h
              next last =>
                obtain rfl := Except.ok.inj h
                rw [last]
                exact .file ⟨isName, fits, found⟩
              next => cases h
            next target fits found =>
              obtain ⟨fewer, rfl, next⟩ := leaps place target rest h
              exact .link admits ⟨isName, fits, found⟩ next
            next fits found =>
              split at h
              next last =>
                obtain rfl := Except.ok.inj h
                rw [last]
                exact .free ⟨isName, fits, found⟩
              next => cases h

theorem walk_eq_ok_iff :
    walk entries writing links place parts = .ok arrival ↔
      Leads entries writing links place parts arrival := by
  refine ⟨fun h => ?_, Leads.walk_eq⟩
  induction links generalizing place parts with
  | zero =>
      refine leads_of_walkBy (fun place target rest next => ?_) h
      cases next
  | succ links ih => exact leads_of_walkBy (fun _ _ _ next => ⟨links, rfl, ih next⟩) h

/-! ## Walks to files -/

theorem eq_nil_or_ends {target front : List Name} {name : Name}
    (h : target ++ rest = front ++ [name]) : rest = [] ∨ ∃ before, rest = before ++ [name] := by
  rcases List.eq_nil_or_concat rest with hr | ⟨before, last, hr⟩
  · exact .inl hr
  · rw [hr, List.concat_eq_append, ← List.append_assoc] at h
    rw [hr, List.concat_eq_append, (List.append_singleton_inj.mp h).2]
    exact .inr ⟨before, rfl⟩

theorem Leads.exists_last {number : Nat}
    (h : Leads entries writing links place parts (.file number)) :
    ∃ front name, parts = front ++ [name] ∧ IsName name := by
  generalize reached : Arrival.file number = arrival at h
  induction h with
  | done => cases reached
  | stay _ _ ih | up _ ih | enter _ _ _ ih =>
      obtain ⟨front, name, rfl, isName⟩ := ih reached
      exact ⟨_ :: front, name, rfl, isName⟩
  | file named | free named => exact ⟨[], _, rfl, named.isName⟩
  | @link links place part rest target arrival _ named _ ih =>
      obtain ⟨front, name, he, isName⟩ := ih reached
      rcases eq_nil_or_ends he with rfl | ⟨before, rfl⟩
      · exact ⟨[], part, rfl, named.isName⟩
      · exact ⟨part :: before, name, rfl, isName⟩

theorem admits_of_last {front : List Name} {name : Name} (isName : IsName name) :
    Admits writing (front ++ [name]) := by
  simp [Admits, isName.nonempty]

/-- What can be read can be named for writing. -/
theorem Leads.write {number : Nat} (h : Leads entries false links place parts (.file number)) :
    Leads entries true links place parts (.file number) := by
  generalize reached : Arrival.file number = arrival at h
  induction h with
  | done => exact .done
  | stay blank _ ih => exact .stay blank (ih reached)
  | up _ ih => exact .up (ih reached)
  | enter _ named _ ih =>
      have next := ih reached
      subst reached
      obtain ⟨front, name, rfl, isName⟩ := next.exists_last
      exact .enter (admits_of_last isName) named next
  | file named => exact .file named
  | free named => exact .free named
  | @link links place part rest target arrival _ named _ ih =>
      have next := ih reached
      subst reached
      obtain ⟨front, name, he, isName⟩ := next.exists_last
      refine .link ?_ named next
      rcases eq_nil_or_ends he with rfl | ⟨before, rfl⟩
      · exact admits_nil
      · exact admits_of_last isName

/-! ## The last part -/

/-- A walk takes its last part in the directory that the parts before it lead to. -/
theorem Leads.exists_directory {front : List Name} {last : Name}
    (h : Leads entries false links place (front ++ [last]) arrival) :
    ∃ directory fewer, Leads entries false links place front (.directory directory) ∧
      Leads entries false fewer directory [last] arrival := by
  have admits : ∀ rest, Admits false rest := fun rest => by simp [Admits]
  generalize split : front ++ [last] = parts at h
  induction h generalizing front with
  | done => simp at split
  | @stay links place part rest arrival blank next ih =>
      rcases front with _ | ⟨first, front⟩
      · cases split
        exact ⟨place, links, .done, .stay blank next⟩
      · cases split
        obtain ⟨directory, fewer, before, ends⟩ := ih rfl
        exact ⟨directory, fewer, .stay blank before, ends⟩
  | @up links place rest arrival next ih =>
      rcases front with _ | ⟨first, front⟩
      · cases split
        exact ⟨place, links, .done, .up next⟩
      · cases split
        obtain ⟨directory, fewer, before, ends⟩ := ih rfl
        exact ⟨directory, fewer, .up before, ends⟩
  | @enter links place part rest arrival _ named next ih =>
      rcases front with _ | ⟨first, front⟩
      · cases split
        exact ⟨place, links, .done, .enter (admits _) named next⟩
      · cases split
        obtain ⟨directory, fewer, before, ends⟩ := ih rfl
        exact ⟨directory, fewer, .enter (admits _) named before, ends⟩
  | @file links place part number named =>
      rcases front with _ | ⟨first, front⟩
      · cases split
        exact ⟨place, links, .done, .file named⟩
      · simp at split
  | @free links place part named =>
      rcases front with _ | ⟨first, front⟩
      · cases split
        exact ⟨place, links, .done, .free named⟩
      · simp at split
  | @link links place part rest target arrival _ named next ih =>
      rcases front with _ | ⟨first, front⟩
      · cases split
        exact ⟨place, links + 1, .done, .link (admits _) named next⟩
      · cases split
        obtain ⟨directory, fewer, before, ends⟩ := ih (List.append_assoc _ _ _)
        exact ⟨directory, fewer, .link (admits _) named before, ends⟩

end Walk

end FileTree

end GameCatalog
