import GameCatalog.Proofs.FileTree
import Mathlib.Data.List.Infix

/-!
# The directory of a path

The directory of a path that leads to a file is the one that holds the name of the file, and a name
joined to a directory is looked up in it. Parts of a path that stand for no step make no difference
to that.
-/

namespace GameCatalog

namespace Path

/-! ## Parts and bytes -/

theorem splitSlash_ne_nil (bytes : List UInt8) : splitSlash bytes ≠ [] := by
  cases bytes with
  | nil => exact List.cons_ne_nil _ _
  | cons byte rest =>
      rw [splitSlash]
      split
      · exact List.cons_ne_nil _ _
      · cases splitSlash rest <;> exact List.cons_ne_nil _ _

theorem splitSlash_cons_of_ne {byte : UInt8} (h : byte ≠ slash) (rest : List UInt8) :
    ∃ part parts, splitSlash rest = part :: parts ∧
      splitSlash (byte :: rest) = (byte :: part) :: parts := by
  obtain ⟨part, parts, he⟩ := List.exists_cons_of_ne_nil (splitSlash_ne_nil rest)
  exact ⟨part, parts, he, by rw [splitSlash, if_neg h, he]⟩

theorem slash_not_mem {bytes : List UInt8} {part : Name} (h : part ∈ splitSlash bytes) :
    slash ∉ part := by
  induction bytes generalizing part with
  | nil =>
      rw [splitSlash, List.mem_singleton] at h
      rw [h]
      exact List.not_mem_nil
  | cons byte rest ih =>
      by_cases hc : byte = slash
      · rw [splitSlash, if_pos hc, List.mem_cons] at h
        rcases h with rfl | h
        · exact List.not_mem_nil
        · exact ih h
      · obtain ⟨first, parts, he, split⟩ := splitSlash_cons_of_ne hc rest
        rw [split, List.mem_cons] at h
        rcases h with rfl | h
        · have rest_free := ih (he ▸ List.mem_cons_self)
          exact List.not_mem_cons_of_ne_of_not_mem (Ne.symm hc) rest_free
        · exact ih (he ▸ List.mem_cons_of_mem first h)

theorem splitSlash_append (front back : List UInt8) :
    splitSlash (front ++ slash :: back) = splitSlash front ++ splitSlash back := by
  induction front with
  | nil => simp [splitSlash]
  | cons byte rest ih =>
      by_cases hc : byte = slash
      · simp [splitSlash, hc, ih]
      · obtain ⟨part, parts, he, split⟩ := splitSlash_cons_of_ne hc rest
        rw [List.cons_append, splitSlash, if_neg hc, ih, split, he]
        rfl

theorem splitSlash_of_not_mem {part : Name} (h : slash ∉ part) : splitSlash part = [part] := by
  induction part with
  | nil => rfl
  | cons byte rest ih =>
      rw [List.mem_cons, not_or] at h
      rw [splitSlash, if_neg (Ne.symm h.1), ih h.2]

theorem joinSlash_cons {part : Name} {parts : List Name} (h : parts ≠ []) :
    joinSlash (part :: parts) = part ++ slash :: joinSlash parts := by
  obtain ⟨next, more, rfl⟩ := List.exists_cons_of_ne_nil h
  rfl

theorem splitSlash_joinSlash {parts : List Name} (nonempty : parts ≠ [])
    (free : ∀ part ∈ parts, slash ∉ part) : splitSlash (joinSlash parts) = parts := by
  induction parts with
  | nil => exact absurd rfl nonempty
  | cons part rest ih =>
      obtain ⟨part_free, rest_free⟩ := List.forall_mem_cons.mp free
      by_cases hrest : rest = []
      · rw [hrest]
        exact splitSlash_of_not_mem part_free
      · rw [joinSlash_cons hrest, splitSlash_append, splitSlash_of_not_mem part_free,
          ih hrest rest_free, List.singleton_append]

/-! ## Parts that count -/

theorem trimmedParts_cons (part next : Name) (more : List Name) :
    trimmedParts (part :: next :: more) =
      if part = [] ∨ part = dot then trimmedParts (next :: more) else part :: next :: more := rfl

theorem trimmedParts_suffix (reversed : List Name) : trimmedParts reversed <:+ reversed := by
  induction reversed with
  | nil => exact List.suffix_rfl
  | cons part rest ih =>
      cases rest with
      | nil => exact List.suffix_rfl
      | cons next more =>
          rw [trimmedParts_cons]
          split
          · exact ih.trans (List.suffix_cons part _)
          · exact List.suffix_rfl

theorem trimmedParts_ne_nil {reversed : List Name} (h : reversed ≠ []) :
    trimmedParts reversed ≠ [] := by
  induction reversed with
  | nil => exact absurd rfl h
  | cons part rest ih =>
      cases rest with
      | nil => exact List.cons_ne_nil part []
      | cons next more =>
          rw [trimmedParts_cons]
          split
          · exact ih (List.cons_ne_nil next more)
          · exact List.cons_ne_nil part _

/-- The first part is always kept. -/
theorem exists_trimmedParts (first : Name) (more : List Name) :
    ∃ kept, kept <+: more ∧ (trimmedParts (first :: more).reverse).reverse = first :: kept := by
  have nonempty : (first :: more).reverse ≠ [] := by simp
  have trimmed : (trimmedParts (first :: more).reverse).reverse <+: first :: more := by
    rw [← List.reverse_suffix, List.reverse_reverse]
    exact trimmedParts_suffix _
  rcases List.prefix_cons_iff.mp trimmed with none_left | ⟨kept, he, hkept⟩
  · exact absurd (List.reverse_eq_nil_iff.mp none_left) (trimmedParts_ne_nil nonempty)
  · exact ⟨kept, hkept, he⟩

section LastPart

variable {path : Path} {front : List Name} {last : Name}

theorem componentParts_of_isName (parts : path.parts = front ++ [last]) (isName : IsName last) :
    componentParts path = last :: front.reverse := by
  rw [componentParts, parts, List.reverse_append, List.reverse_singleton, List.singleton_append]
  cases front.reverse with
  | nil => rfl
  | cons next more => simp [trimmedParts, isName.nonempty, isName.not_dot]

theorem fileName?_of_isName (parts : path.parts = front ++ [last]) (isName : IsName last) :
    fileName? path = some last := by
  rw [fileName?, componentParts_of_isName parts isName]
  simp [isName.nonempty, isName.not_dot, isName.not_dots]

theorem directory_of_singleton (parts : path.parts = [last]) (isName : IsName last) :
    path.directory = ⟨dot⟩ := by
  have components := componentParts_of_isName (parts.trans (List.nil_append _).symm) isName
  simp [directory, parent?, components, isName.nonempty]

theorem directory_of_rooted (parts : path.parts = front ++ [last]) (isName : IsName last)
    (rooted : trimmedParts front.reverse = [[]]) : path.directory = ⟨[slash]⟩ := by
  obtain ⟨next, more, he⟩ : ∃ next more, front.reverse = next :: more :=
    List.exists_cons_of_ne_nil fun empty => by simp [empty, trimmedParts] at rooted
  have parent : parent? path = some ⟨[slash]⟩ := by
    rw [parent?, componentParts_of_isName parts isName]
    simp only [he] at rooted ⊢
    rw [rooted]
  rw [directory, parent]
  rfl

theorem directory_of_isName {first : Name} {kept : List Name}
    (parts : path.parts = front ++ [last]) (isName : IsName last)
    (trimmed : (trimmedParts front.reverse).reverse = first :: kept)
    (rootless : first :: kept ≠ [[]]) : path.directory = ⟨joinSlash (first :: kept)⟩ := by
  have trimmed' : trimmedParts front.reverse = (first :: kept).reverse := by
    rw [← trimmed, List.reverse_reverse]
  obtain ⟨next, more, he⟩ : ∃ next more, front.reverse = next :: more :=
    List.exists_cons_of_ne_nil fun empty => by simp [empty, trimmedParts] at trimmed
  have parent : parent? path = some ⟨joinSlash (first :: kept)⟩ := by
    rw [parent?, componentParts_of_isName parts isName]
    simp only [he] at trimmed' ⊢
    rw [trimmed']
    split
    next root => exact absurd (List.reverse_eq_iff.mp root) rootless
    next => rw [List.reverse_reverse]
  have text_ne : joinSlash (first :: kept) ≠ [] := by
    cases kept with
    | nil => simpa [joinSlash] using rootless
    | cons => simp [joinSlash]
  simp [directory, parent, text_ne]

end LastPart

theorem isAbsolute_iff {path : Path} :
    path.IsAbsolute ↔ ∃ next more, path.parts = [] :: next :: more := by
  obtain ⟨bytes⟩ := path
  cases bytes with
  | nil => simp [IsAbsolute, parts, splitSlash]
  | cons byte rest =>
      obtain ⟨next, more, he⟩ := List.exists_cons_of_ne_nil (splitSlash_ne_nil rest)
      by_cases hb : byte = slash
      · simp [IsAbsolute, parts, splitSlash, hb, he]
      · simp [IsAbsolute, parts, splitSlash, hb, he, Ne.symm hb]

/-- The parts of a name that is joined to a directory are those of the directory, without an empty
one at the end, and the name. -/
theorem exists_parts_join (base : Path) {name : Name} (free : slash ∉ name) :
    ∃ front, (base.join name).parts = front ++ [name] ∧
      (base.parts = front ∨ base.parts = front ++ [[]]) := by
  unfold join
  split
  next ends =>
    obtain ⟨before, he⟩ : ∃ before, base.bytes = before ++ [slash] :=
      ⟨_, (List.dropLast_append_getLast? _ ends).symm⟩
    refine ⟨splitSlash before, ?_, .inr ?_⟩
    · simp only [parts, he, List.append_assoc, List.singleton_append]
      rw [splitSlash_append, splitSlash_of_not_mem free]
    · rw [parts, he, splitSlash_append]
      rfl
  next =>
    refine ⟨base.parts, ?_, .inl rfl⟩
    simp only [parts]
    rw [splitSlash_append, splitSlash_of_not_mem free]

theorem isAbsolute_join {base : Path} (nonempty : base.bytes ≠ []) (name : Name) :
    (base.join name).IsAbsolute ↔ base.IsAbsolute := by
  obtain ⟨first, rest, he⟩ := List.exists_cons_of_ne_nil nonempty
  unfold join IsAbsolute
  split <;> simp [he]

end Path

namespace FileTree

variable {entries : List (Place × Entry)} {links : Nat} {place directory : Place}
  {parts : List Name} {path : Path}

theorem Leads.unique {arrival other : Arrival} {writing : Bool}
    (h : Leads entries writing links place parts arrival)
    (h' : Leads entries writing links place parts other) : arrival = other :=
  Except.ok.inj (h.walk_eq.symm.trans h'.walk_eq)

/-- Parts at the end that stand for no step make no difference. -/
theorem Leads.of_trimmedParts {reversed : List Name} {arrival : Arrival}
    (h : Leads entries false links place reversed.reverse arrival) :
    Leads entries false links place (Path.trimmedParts reversed).reverse arrival := by
  induction reversed generalizing arrival with
  | nil => exact h
  | cons part rest ih =>
      cases rest with
      | nil => exact h
      | cons next more =>
          rw [Path.trimmedParts_cons]
          split
          next blank =>
            rw [List.reverse_cons] at h
            obtain ⟨directory, fewer, before, ends⟩ := h.exists_directory
            have stays : Leads entries false fewer directory [part] (.directory directory) :=
              .stay blank .done
            exact ih (ends.unique stays ▸ before)
          next => exact h

theorem startAt_congr {other : Path} (place : Place) (h : path.IsAbsolute ↔ other.IsAbsolute) :
    startAt place path = startAt place other := by
  simp only [startAt, h]

/-- The directory of a path leads to where the parts before the last one lead. -/
theorem Leads.parent {front : List Name} {last : Name} {arrival : Arrival}
    (split : path.parts = front ++ [last]) (isName : IsName last)
    (h : Leads entries false links (startAt place path) front arrival) :
    Leads entries false links (startAt place path.directory) path.directory.parts arrival := by
  cases front with
  | nil =>
      have relative : ¬path.IsAbsolute := by
        rw [Path.isAbsolute_iff, split]
        simp
      rw [startAt, if_neg relative] at h
      rw [Path.directory_of_singleton split isName]
      exact .stay (.inr rfl) h
  | cons first more =>
      obtain ⟨kept, hkept, trimmed⟩ := Path.exists_trimmedParts first more
      have absolute : path.IsAbsolute ↔ first = [] := by
        rw [Path.isAbsolute_iff, split]
        cases more <;> simp
      rw [← List.reverse_reverse (first :: more)] at h
      have left := h.of_trimmedParts
      rw [trimmed] at left
      by_cases rooted : first :: kept = [[]]
      · rw [rooted] at left trimmed
        rw [Path.directory_of_rooted split isName (List.reverse_eq_iff.mp trimmed)]
        rw [startAt, if_pos (absolute.mpr (List.cons.inj rooted).1)] at left
        exact .stay (.inl rfl) left
      · have free : ∀ part ∈ first :: kept, Path.slash ∉ part := by
          intro part hm
          refine Path.slash_not_mem (show part ∈ path.parts from ?_)
          rw [split]
          exact List.mem_append_left _ (((List.prefix_cons_inj first).mpr hkept).subset hm)
        have parts_eq : path.directory.parts = first :: kept := by
          rw [Path.directory_of_isName split isName trimmed rooted]
          exact Path.splitSlash_joinSlash (List.cons_ne_nil first kept) free
        have same : path.directory.IsAbsolute ↔ path.IsAbsolute := by
          rw [absolute, Path.isAbsolute_iff, parts_eq]
          cases kept with
          | nil => simpa using rooted
          | cons => simp
        rw [parts_eq, startAt_congr place same]
        exact left

/-! ## Names in directories -/

theorem Leads.entry_of_file {writing : Bool} {part : Name} {number : Nat}
    (h : Leads entries writing links place [part] (.file number)) :
    entries.lookup (place ++ [part]) = some (.file number) ∨
      ∃ target, entries.lookup (place ++ [part]) = some (.link target) := by
  cases h with
  | stay _ next | up next | enter _ _ next => cases next
  | file named => exact .inl named.found
  | link _ named _ => exact .inr ⟨_, named.found⟩

variable {tree : FileTree} {name : Name} {number : Nat}

theorem leads_of_resolve {writing : Bool} {arrival : Arrival}
    (h : tree.resolve writing path = .ok arrival) :
    path.bytes ≠ [] ∧
      Leads tree.entries writing linkLimit (startAt tree.here path) path.parts arrival := by
  unfold resolve at h
  split at h
  · cases h
  next valid =>
    refine ⟨?_, walk_eq_ok_iff.mp h⟩
    rintro empty
    simp [FileFault.ofPath?, empty] at valid

/-- The name of a file stands in the directory of each path that leads to the file, for the file or
for a link. -/
theorem entry_of_fileOf? (resolved : tree.resolve false path.directory = .ok (.directory directory))
    (file : tree.fileOf? path = some number) :
    ∃ name, path.fileName? = some name ∧
      (tree.entries.lookup (directory ++ [name]) = some (.file number) ∨
        ∃ target, tree.entries.lookup (directory ++ [name]) = some (.link target)) := by
  obtain ⟨-, leads⟩ := leads_of_resolve (fileOf?_eq_some_iff.mp file)
  obtain ⟨-, leads'⟩ := leads_of_resolve resolved
  obtain ⟨front, last, split, isName⟩ := leads.exists_last
  rw [split] at leads
  obtain ⟨found, fewer, before, ends⟩ := leads.exists_directory
  obtain rfl := Arrival.directory.inj ((before.parent split isName).unique leads')
  exact ⟨last, Path.fileName?_of_isName split isName, ends.entry_of_file⟩

/-- A name that is joined to a directory is looked up in it. -/
theorem entry_of_fileOf?_join {base : Path} (free : Path.slash ∉ name)
    (resolved : tree.resolve false base = .ok (.directory directory))
    (file : tree.fileOf? (base.join name) = some number) :
    tree.entries.lookup (directory ++ [name]) = some (.file number) ∨
      ∃ target, tree.entries.lookup (directory ++ [name]) = some (.link target) := by
  obtain ⟨-, leads⟩ := leads_of_resolve (fileOf?_eq_some_iff.mp file)
  obtain ⟨nonempty, leads'⟩ := leads_of_resolve resolved
  obtain ⟨front, joined, split⟩ := Path.exists_parts_join base free
  rw [joined, startAt_congr tree.here (Path.isAbsolute_join nonempty name)] at leads
  obtain ⟨found, fewer, before, ends⟩ := leads.exists_directory
  have same : Arrival.directory found = .directory directory := by
    rcases split with split | split
    · exact before.unique (split ▸ leads')
    · obtain ⟨other, _, before', stays⟩ := (split ▸ leads').exists_directory
      rw [before.unique before']
      exact (Leads.stay (.inl rfl) .done : Leads _ _ _ _ [[]] _).unique stays
  obtain rfl := Arrival.directory.inj same
  exact ends.entry_of_file

end FileTree

end GameCatalog
