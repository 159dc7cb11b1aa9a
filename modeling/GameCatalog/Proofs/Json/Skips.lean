import GameCatalog.Proofs.Json.Answers

/-!
# Skipping written trees

A value that is skipped is read for its form only, at any depth. Every written tree has that form.
-/

namespace GameCatalog.Json

/-! ## Tokens -/

theorem looseEscape_unit {digits : List Char} {unit : Nat} (hex : HexUnit digits unit)
    (rest : List Char) : escape looseEscape ('u' :: digits ++ rest) = .ok ('\ufffd', rest) := by
  simp [escape, looseEscape, fourHexDigits_unit hex]

/-- A string is skipped whatever its escapes stand for. -/
theorem exists_readsChars_loose {chars inside : List Char} (h : StringChars chars inside) :
    ∃ skipped, ReadsChars looseEscape inside skipped := by
  induction h with
  | nil => exact ⟨[], .nil⟩
  | plain quote backslash printable _ ih =>
      obtain ⟨skipped, read⟩ := ih
      exact ⟨_, read.plain quote backslash printable⟩
  | letter stands _ ih =>
      obtain ⟨skipped, read⟩ := ih
      exact ⟨_, read.escaped [_] (escape_letter stands looseEscape)⟩
  | single hex _ _ _ ih =>
      obtain ⟨skipped, read⟩ := ih
      exact ⟨_, read.escaped _ (looseEscape_unit hex)⟩
  | pair hex hex_more _ _ _ ih =>
      obtain ⟨skipped, read⟩ := ih
      exact ⟨_, (read.escaped _ (looseEscape_unit hex_more)).escaped _ (looseEscape_unit hex)⟩

theorem exists_looseString {text : String} {inside : List Char}
    (h : StringChars text.toList inside) :
    ∃ skipped, ∀ rest, looseString (inside ++ '"' :: rest) = .ok (skipped, rest) := by
  obtain ⟨skipped, read⟩ := exists_readsChars_loose h
  exact ⟨skipped, fun rest => read.read (by simp) [] rest⟩

theorem StringText.exists_reads_looseLead {text : String} {quoted : List Char}
    (h : StringText text quoted) : ∃ skipped, Reads looseLead quoted (.str skipped) := by
  obtain ⟨inside, chars, rfl⟩ := h
  obtain ⟨skipped, read⟩ := exists_looseString chars
  exact ⟨skipped, reads_quoted read⟩

theorem Numeral.Written.reads_looseLead {numeral : Numeral} {text : List Char}
    (h : numeral.Written text) : Reads looseLead text (.num numeral) :=
  reads_leading_num h.starts fun hs => bounded_numeral _ hs (h.numeral_eq _)

/-! ## Containers -/

theorem Following.length_lt_of_mem {last : Char} {parts : List (List Char)} {text : List Char}
    (h : Following last parts text) {part : List Char} (hm : part ∈ parts) :
    part.length < text.length := by
  induction h with
  | close _ => cases hm
  | @next gap space first rest parts _ _ _ ih =>
      simp only [List.length_append, List.length_cons]
      rcases List.mem_cons.mp hm with rfl | hm
      · omega
      · have := ih hm
        omega

theorem Inside.length_lt_of_mem {last : Char} {parts : List (List Char)} {text : List Char}
    (h : Inside last parts text) {part : List Char} (hm : part ∈ parts) :
    part.length < text.length := by
  cases h with
  | empty _ => cases hm
  | @parts space first rest parts _ more =>
      have rest_nonempty := more.length_lt
      simp only [List.length_append]
      rcases List.mem_cons.mp hm with rfl | hm
      · omega
      · have := more.length_lt_of_mem hm
        omega

/-- What is no container is skipped when its start is read. -/
theorem Reads.skips {start : Lead Numeral (List Char)} {text : List Char}
    (h : Reads looseLead text start) (no_array : start ≠ .array) (no_object : start ≠ .object)
    {bound : List Char} (enough : text.length ≤ bound.length) :
    Reads (skipWithin bound) text () := by
  refine ⟨h.opens, fun {blanks rest} blank stops => ?_⟩
  cases bound with
  | nil => exact absurd (List.length_eq_zero_iff.mp (Nat.le_zero.mp enough)) h.ne_nil
  | cons b bound =>
      rw [skipWithin, h.read blank stops, ok_bind]
      cases start with
      | array => exact absurd rfl no_array
      | object => exact absurd rfl no_object
      | _ => rfl

theorem WrittenMember.reads_skipped (written : WrittenMember) {reader : Reader Unit}
    (h : Reads reader written.text ()) :
    Reads (fun text => do
      let (_, text) ← Json.member looseString reader text
      .ok ((), text)) written.chars () := by
  refine ⟨written.opens, fun {blanks rest} blank stops => ?_⟩
  obtain ⟨inside, chars, quoted⟩ := written.quoted_text
  obtain ⟨skipped, read⟩ := exists_looseString chars
  have name := memberName_quoted
    (read (written.gap ++ ':' :: (written.space ++ (written.text ++ rest)))) blank
  rw [← quoted] at name
  unfold WrittenMember.chars
  simp only [List.append_assoc, List.cons_append, Json.member]
  simp [name, written.symbol_colon, h.read written.space_blank stops]

/-- What is written within any depth is skipped when the bound is no shorter than the text. -/
theorem Written.skips {depth : Nat} {tree : Tree} {text : List Char} (h : Written depth tree text)
    {bound : List Char} (enough : text.length ≤ bound.length) :
    Reads (skipWithin bound) text () := by
  induction h generalizing bound with
  | null => exact reads_null.skips nofun nofun enough
  | true => exact reads_true.skips nofun nofun enough
  | false => exact reads_false.skips nofun nofun enough
  | num written => exact written.reads_looseLead.skips nofun nofun enough
  | str written =>
      obtain ⟨skipped, read⟩ := written.exists_reads_looseLead
      exact read.skips nofun nofun enough
  | @arr depth items inside parts items_written ih =>
      refine ⟨⟨'[', _, rfl, rfl, by simp [Closes]⟩, fun {blanks rest} blank _ => ?_⟩
      cases bound with
      | nil => cases enough
      | cons b bound =>
          have answers : ∀ (_ : Unit), ∀ item ∈ items,
              Answers (skipWithin bound) item.2 (some ()) := by
            intro _ item hm
            have shorter := parts.length_lt_of_mem (List.mem_map_of_mem hm)
            exact (ih item hm (by simp only [List.length_cons] at enough; omega)).answers
          have read := series_inside (.inl rfl) (fun item hm => (items_written item hm).opens)
            answers parts () rest
          rw [foldlM_some] at read
          have lead : looseLead (blanks ++ '[' :: (inside ++ rest)) =
              .ok (.array, inside ++ rest) := leadWith_array blank _
          simp [skipWithin, lead, toOption_eq_some_iff.mp read]
  | @obj depth members inside parts trees_written ih =>
      refine ⟨⟨'\x7b', _, rfl, rfl, by simp [Closes]⟩, fun {blanks rest} blank _ => ?_⟩
      cases bound with
      | nil => cases enough
      | cons b bound =>
          have answers : ∀ (_ : Unit), ∀ written ∈ members, Answers (fun text => do
              let (_, text) ← member looseString (skipWithin bound) text
              .ok ((), text)) written.chars (some ()) := by
            intro _ written hm
            have shorter := parts.length_lt_of_mem (List.mem_map_of_mem hm)
            simp only [WrittenMember.chars, List.length_append, List.length_cons] at shorter enough
            exact (written.reads_skipped (ih written hm (by omega))).answers
          have read := series_inside (.inr rfl) (fun written _ => written.opens) answers parts ()
            rest
          rw [foldlM_some] at read
          have lead : looseLead (blanks ++ '\x7b' :: (inside ++ rest)) =
              .ok (.object, inside ++ rest) := leadWith_object blank _
          simp [skipWithin, lead, toOption_eq_some_iff.mp read]

theorem Written.reads_skip {depth : Nat} {tree : Tree} {text : List Char}
    (h : Written depth tree text) : Reads skip text () where
  opens := h.opens
  read {blanks rest} blank stops := by
    have enough : text.length ≤ (blanks ++ (text ++ rest)).length := by
      simp only [List.length_append]
      omega
    exact (h.skips enough).read blank stops

end GameCatalog.Json
