import GameCatalog.Proofs.Json.Answers

/-!
# Values that are read are written trees

The reader takes nothing but the texts of trees. Together with the reading of written trees this
says what the format is: the texts that are values are those of the trees, and each is the value of
its tree.
-/

namespace GameCatalog.Json

/-- What the reader takes behind blanks spells its result. -/
def Spells (reader : Reader α) (Spelling : List Char → α → Prop) : Prop :=
  ∀ {text rest value}, reader text = .ok (value, rest) →
    ∃ blanks spelled, AllBlank blanks ∧ Spelling spelled value ∧ text = blanks ++ (spelled ++ rest)

theorem exists_blanks {text rest : List Char} {c : Char} (h : dropBlanks text = c :: rest) :
    ∃ gap, AllBlank gap ∧ text = gap ++ c :: rest :=
  ⟨text.takeWhile isBlank, fun _ hm => List.mem_takeWhile_imp hm, by
    rw [← h, dropBlanks, List.takeWhile_append_dropWhile]⟩

/-! ## Tokens -/

/-- The texts of what a value starts with. -/
inductive LeadText : List Char → Lead Number String → Prop where
  | null : LeadText ['n', 'u', 'l', 'l'] .null
  | true : LeadText ['t', 'r', 'u', 'e'] (.bool true)
  | false : LeadText ['f', 'a', 'l', 's', 'e'] (.bool false)
  | num {numeral : Numeral} {n : Number} {text : List Char} (written : numeral.Written text)
      (stands : numeral.value? = some n) : LeadText text (.num n)
  | str {text : String} {quoted : List Char} (written : StringText text quoted) :
      LeadText quoted (.str text)
  | array : LeadText ['['] .array
  | object : LeadText ['\x7b'] .object

theorem exists_leadText_word {word text rest : List Char} {c : Char}
    {start value : Lead Number String} (spelling : LeadText (c :: word) start)
    (h : (do
      let (_, rest) ← expect word text
      .ok (start, rest)) = Except.ok (value, rest)) :
    ∃ spelled, LeadText spelled value ∧ c :: text = spelled ++ rest := by
  obtain ⟨⟨_, after⟩, read, made⟩ := bind_eq_ok_iff.mp h
  cases made
  exact ⟨c :: word, spelling, by rw [append_of_expect read]; rfl⟩

theorem spells_lead : Spells lead LeadText := by
  intro text rest start h
  unfold lead leadWith at h
  split at h
  next => cases h
  next c tail opening =>
    obtain ⟨blanks, blank, rfl⟩ := exists_blanks opening
    suffices spelled : ∃ spelled, LeadText spelled start ∧ c :: tail = spelled ++ rest by
      obtain ⟨spelled, spelling, tail_eq⟩ := spelled
      exact ⟨blanks, spelled, blank, spelling, by rw [tail_eq]⟩
    split at h
    next quote =>
      obtain ⟨⟨s, after⟩, read, made⟩ := bind_eq_ok_iff.mp h
      cases made
      obtain ⟨quoted, written, tail_eq⟩ := exists_stringText read
      exact ⟨quoted, .str written, by rw [quote, tail_eq]⟩
    split at h
    next bracket =>
      cases h
      exact ⟨['['], .array, by rw [bracket]; rfl⟩
    split at h
    next brace =>
      cases h
      exact ⟨['\x7b'], .object, by rw [brace]; rfl⟩
    split at h
    next letter => exact letter ▸ exists_leadText_word .null h
    split at h
    next letter => exact letter ▸ exists_leadText_word .true h
    split at h
    next letter => exact letter ▸ exists_leadText_word .false h
    split at h
    next =>
      obtain ⟨⟨n, after⟩, read, made⟩ := bind_eq_ok_iff.mp h
      cases made
      obtain ⟨numeral, spelled, written, stands, tail_eq⟩ := exists_written_of_number read
      exact ⟨spelled, .num written stands, tail_eq⟩
    next => cases h

theorem spells_memberName :
    Spells (memberName string) fun quoted name => StringText name quoted := by
  intro text rest name h
  unfold memberName at h
  split at h
  next => cases h
  next c tail opening =>
    obtain ⟨blanks, blank, rfl⟩ := exists_blanks opening
    split at h
    next quote =>
      obtain ⟨quoted, written, tail_eq⟩ := exists_stringText h
      exact ⟨blanks, quoted, blank, written, by rw [quote, tail_eq]⟩
    next => cases h

theorem exists_gap {text rest : List Char} {c : Char} (h : symbol c text = .ok ((), rest)) :
    ∃ gap, AllBlank gap ∧ text = gap ++ c :: rest :=
  exists_blanks (append_of_expect h)

/-! ## Containers -/

section Series

variable {last : Char} {step : σ → Reader σ} {chars : ι → List Char} {IsPart : ι → Prop}
  {advance : σ → ι → σ}
  (spells : ∀ state, Spells (step state) fun spelled next =>
    ∃ part, IsPart part ∧ spelled = chars part ∧ next = advance state part)

include spells

theorem exists_following {bound text rest : List Char} {state final : σ}
    (h : items last step bound state text = .ok (final, rest)) :
    ∃ blanks part parts after, AllBlank blanks ∧ (∀ each ∈ part :: parts, IsPart each) ∧
      Following last (parts.map chars) after ∧ final = (part :: parts).foldl advance state ∧
      text = blanks ++ (chars part ++ (after ++ rest)) := by
  induction bound generalizing state text with
  | nil => cases h
  | cons b bound ih =>
      rw [items] at h
      obtain ⟨⟨next, behind⟩, read, more⟩ := bind_eq_ok_iff.mp h
      obtain ⟨blanks, _, blank, ⟨part, is_part, rfl, rfl⟩, rfl⟩ := spells _ read
      simp only at more
      split at more
      next => cases more
      next c tail opening =>
        obtain ⟨gap, gap_blank, rfl⟩ := exists_blanks opening
        split at more
        next comma =>
          obtain ⟨space, second, parts, after, space_blank, are_parts, following, folded, rfl⟩ :=
            ih more
          refine ⟨blanks, part, second :: parts, _, blank, ?_,
            .next gap_blank space_blank following, folded, by simp [comma]⟩
          exact List.forall_mem_cons.mpr ⟨is_part, are_parts⟩
        split at more
        next closing =>
          cases more
          exact ⟨blanks, part, [], _, blank, by simpa using is_part, .close gap_blank, rfl,
            by simp [closing]⟩
        next => cases more

theorem exists_inside {text rest : List Char} {start final : σ}
    (h : series last step start text = .ok (final, rest)) :
    ∃ (parts : List ι) (inside : List Char), (∀ part ∈ parts, IsPart part) ∧
      Inside last (parts.map chars) inside ∧ final = parts.foldl advance start ∧
        text = inside ++ rest := by
  unfold series at h
  split at h
  next => cases h
  next c tail opening =>
    split at h
    next closing =>
      cases h
      obtain ⟨gap, gap_blank, text_eq⟩ := exists_blanks opening
      exact ⟨[], gap ++ [last], by simp, .empty gap_blank, rfl, by simp [text_eq, closing]⟩
    next =>
      obtain ⟨blanks, part, parts, after, blank, are_parts, following, folded, rfl⟩ :=
        exists_following spells h
      exact ⟨part :: parts, _, are_parts, .parts blank following, folded, by simp⟩

end Series

/-! ## Values -/

/-- The text is a way to write a tree of the value within the depth. -/
def Spelling (depth : Nat) (text : List Char) (value : Value) : Prop :=
  ∃ tree, Written depth tree text ∧ tree.value = value

theorem spells_item {depth : Nat} {reader : Reader Value}
    (spells : Spells reader (Spelling depth)) (held : List Value) :
    Spells
      (fun text => do
        let (item, text) ← reader text
        .ok (item :: held, text))
      fun spelled next => ∃ part : Tree × List Char,
        Written depth part.1 part.2 ∧ spelled = part.2 ∧ next = part.1.value :: held := by
  intro text rest next h
  obtain ⟨⟨item, after⟩, read, made⟩ := bind_eq_ok_iff.mp h
  cases made
  obtain ⟨blanks, spelled, blank, ⟨tree, written, rfl⟩, rfl⟩ := spells read
  exact ⟨blanks, spelled, blank, ⟨(tree, spelled), written, rfl, rfl⟩, rfl⟩

theorem exists_inside_array {depth : Nat} {reader : Reader Value}
    (spells : Spells reader (Spelling depth)) {text rest : List Char} {values : List Value}
    (h : array reader text = .ok (values, rest)) :
    ∃ inside, Spelling (depth + 1) ('[' :: inside) (.arr values) ∧ text = inside ++ rest := by
  obtain ⟨⟨collected, after⟩, read, made⟩ := bind_eq_ok_iff.mp h
  cases made
  obtain ⟨parts, inside, are_written, inside_parts, rfl, rfl⟩ :=
    exists_inside (spells_item spells) read
  refine ⟨inside, ⟨_, .arr inside_parts are_written, ?_⟩, rfl⟩
  simp [Tree.value, Tree.itemValues_eq_map]

theorem exists_writtenMember {depth : Nat} {reader : Reader Value}
    (spells : Spells reader (Spelling depth)) :
    Spells (member string reader) fun spelled member => ∃ written : WrittenMember,
      Written depth written.tree written.text ∧ spelled = written.chars ∧
        member = (written.name, written.tree.value) := by
  intro text rest member h
  obtain ⟨⟨name, behind⟩, read_name, h_symbol⟩ := bind_eq_ok_iff.mp h
  obtain ⟨⟨_, after⟩, colon, h_value⟩ := bind_eq_ok_iff.mp h_symbol
  obtain ⟨⟨value, last⟩, read_value, made⟩ := bind_eq_ok_iff.mp h_value
  cases made
  obtain ⟨blanks, quoted, blank, quoted_text, rfl⟩ := spells_memberName read_name
  obtain ⟨gap, gap_blank, rfl⟩ := exists_gap colon
  obtain ⟨space, spelled, space_blank, ⟨tree, written, rfl⟩, rfl⟩ := spells read_value
  let member : WrittenMember :=
    ⟨name, tree, quoted, gap, space, spelled, quoted_text, gap_blank, space_blank⟩
  exact ⟨blanks, member.chars, blank, ⟨member, written, rfl, rfl⟩, by
    simp [member, WrittenMember.chars]⟩

theorem spells_heldMember {depth : Nat} {reader : Reader Value}
    (spells : Spells reader (Spelling depth)) (held : Members) :
    Spells
      (fun text => do
        let ((name, value), text) ← member string reader text
        .ok (held.set name value, text))
      fun spelled next => ∃ written : WrittenMember,
        Written depth written.tree written.text ∧ spelled = written.chars ∧
          next = held.set written.name written.tree.value := by
  intro text rest next h
  obtain ⟨⟨_, after⟩, read, made⟩ := bind_eq_ok_iff.mp h
  cases made
  obtain ⟨blanks, _, blank, ⟨written, is_written, rfl, rfl⟩, rfl⟩ :=
    exists_writtenMember spells read
  exact ⟨blanks, _, blank, ⟨written, is_written, rfl, rfl⟩, rfl⟩

theorem exists_inside_object {depth : Nat} {reader : Reader Value}
    (spells : Spells reader (Spelling depth)) {text rest : List Char} {members : Members}
    (h : object reader text = .ok (members, rest)) :
    ∃ inside, Spelling (depth + 1) ('\x7b' :: inside) (.obj members) ∧ text = inside ++ rest := by
  obtain ⟨parts, inside, are_written, inside_parts, rfl, rfl⟩ :=
    exists_inside (spells_heldMember spells) h
  refine ⟨inside, ⟨_, .obj inside_parts are_written, ?_⟩, rfl⟩
  rw [Tree.value, Tree.memberValues_eq_map, ← Members.foldl_set_eq_ofRepeated, List.map_map,
    List.foldl_map]
  rfl

theorem spells_valueWith {depth : Nat} {inner : Option (Reader Value)}
    (held : ∀ reader ∈ inner, ∃ less, depth = less + 1 ∧ Spells reader (Spelling less)) :
    Spells (valueWith inner) (Spelling depth) := by
  intro text rest value h
  obtain ⟨⟨start, after⟩, read, more⟩ := bind_eq_ok_iff.mp h
  obtain ⟨blanks, spelled, blank, starts, rfl⟩ := spells_lead read
  cases starts with
  | null =>
      cases more
      exact ⟨blanks, _, blank, ⟨.null, .null, rfl⟩, rfl⟩
  | true =>
      cases more
      exact ⟨blanks, _, blank, ⟨.bool true, .true, rfl⟩, rfl⟩
  | false =>
      cases more
      exact ⟨blanks, _, blank, ⟨.bool false, .false, rfl⟩, rfl⟩
  | num written stands =>
      cases more
      exact ⟨blanks, _, blank, ⟨.num _ _ stands, .num written, rfl⟩, rfl⟩
  | str written =>
      cases more
      exact ⟨blanks, _, blank, ⟨.str _, .str written, rfl⟩, rfl⟩
  | array =>
      cases inner with
      | none => cases more
      | some reader =>
          obtain ⟨less, rfl, spells⟩ := held reader rfl
          obtain ⟨⟨items, last⟩, inside_read, made⟩ := bind_eq_ok_iff.mp more
          cases made
          obtain ⟨inside, spelling, rfl⟩ := exists_inside_array spells inside_read
          exact ⟨blanks, '[' :: inside, blank, spelling, by simp⟩
  | object =>
      cases inner with
      | none => cases more
      | some reader =>
          obtain ⟨less, rfl, spells⟩ := held reader rfl
          obtain ⟨⟨members, last⟩, inside_read, made⟩ := bind_eq_ok_iff.mp more
          cases made
          obtain ⟨inside, spelling, rfl⟩ := exists_inside_object spells inside_read
          exact ⟨blanks, '\x7b' :: inside, blank, spelling, by simp⟩

theorem spells_value (depth : Nat) : Spells (value depth) (Spelling depth) := by
  induction depth with
  | zero => exact spells_valueWith (by simp)
  | succ depth ih =>
      refine spells_valueWith fun reader hm => ⟨depth, rfl, ?_⟩
      cases hm
      exact ih

/-- The texts that are read as a value are those of the trees of the value. -/
theorem ofText_eq_ok_iff {text : String} {value : Value} :
    ofText text = .ok value ↔ ∃ tree : Tree, tree.IsText text ∧ tree.value = value := by
  constructor
  · intro h
    obtain ⟨⟨read, rest⟩, is_read, h_finish⟩ := bind_eq_ok_iff.mp h
    obtain ⟨_, finished, made⟩ := bind_eq_ok_iff.mp h_finish
    cases made
    obtain ⟨blanks, spelled, blank, ⟨tree, written, rfl⟩, text_eq⟩ := spells_value _ is_read
    exact ⟨tree, ⟨blanks, spelled, rest, blank, finish_eq_ok_iff.mp finished, written, text_eq⟩,
      rfl⟩
  · rintro ⟨tree, ⟨before, inner, after, before_blank, after_blank, written, text_eq⟩, rfl⟩
    have read := written.reads.read before_blank (stops_blank after_blank)
    simp [ofText, text_eq, read, finish_eq_ok_iff.mpr after_blank]

end GameCatalog.Json
