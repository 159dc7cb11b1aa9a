import GameCatalog.Proofs.CatalogShape
import GameCatalog.Proofs.Json.Skips
import GameCatalog.Proofs.Reload

/-!
# The format of catalog files

A text that is one value within the limits is read as a catalog exactly when its tree has the shape
of one, however the value is written, and then as the catalog that the tree describes.
-/

namespace GameCatalog

open Json

namespace Version

open Tree

variable {depth : Nat} {tree : Tree} {text : List Char}

theorem answers_readPart (h : Written depth tree text) : Answers readPart text tree.part? := by
  cases tree with
  | num numeral n stands =>
      cases h with
      | num written =>
          intro blanks rest blank stops
          rw [readPart, (written.reads_lead stands).read blank stops, ok_bind]
          cases n with
          | float x => rfl
          | int n inRange =>
              simp only [part?]
              split <;> rfl
  | _ => exact h.refuses fun _ => rfl

theorem readNamed_bind (name : String) (held : Option UInt32)
    (after : UInt32 × List Char → Except Fault β) (text : List Char) :
    readNamed name held text >>= after =
      if held.isSome then .error (.mismatch (.repeated name))
      else symbol ':' text >>= fun found => readPart found.2 >>= after := by
  unfold readNamed
  split <;> simp

/-- The members of a stamp fill its draft, and unknown ones are skipped. -/
theorem answers_readMember (written : WrittenMember) (h : Written depth written.tree written.text)
    (draft : Draft) : Answers (readMember draft) written.chars (draft.put? written.member) := by
  have part := answers_readPart h
  unfold Draft.put? WrittenMember.member
  simp only
  split
  next year =>
    exact written.answers_once (fun _ _ hname => by
      simp only [readMember, hname, ok_bind, if_pos year]
      exact readNamed_bind ..) part
  next year =>
  split
  next major =>
    exact written.answers_once (fun _ _ hname => by
      simp only [readMember, hname, ok_bind, if_neg year, if_pos major]
      exact readNamed_bind ..) part
  next major =>
  split
  next minor =>
    exact written.answers_once (fun _ _ hname => by
      simp only [readMember, hname, ok_bind, if_neg year, if_neg major, if_pos minor]
      exact readNamed_bind ..) part
  next minor =>
    exact written.answers_named
      (fun _ _ hname => by simp [readMember, hname, year, major, minor])
      (h.reads_skip.answers.map fun _ => draft)

theorem readObject_inside {members : List WrittenMember}
    (written : ∀ member ∈ members, Written depth member.tree member.text) {inside : List Char}
    (parts : Inside '\x7d' (members.map (·.chars)) inside) (rest : List Char) :
    (readObject (inside ++ rest)).toOption =
      (version? (.obj (members.map (·.member)))).map (·, rest) := by
  have folded := series_inside (.inr rfl) (fun member _ => member.opens)
    (fun draft member hm => answers_readMember member (written member hm) draft) parts {} rest
  rw [readObject, toOption_bind, folded, version?, List.foldlM_map]
  cases members.foldlM (fun draft member => Draft.put? draft member.member) {} with
  | none => rfl
  | some draft =>
      simp only [Option.map_some, Option.bind_some]
      cases ofDraft draft <;> rfl

/-! ### Stamps as arrays -/

theorem readItem_empty {inside : List Char} (h : Inside ']' [] inside) (count : Nat)
    (rest : List Char) : (readItem count (inside ++ rest)).toOption = none := by
  cases h with
  | empty blank => simp [readItem, dropBlanks_append blank, isBlank]

theorem readItem_closed {text : List Char} (h : Following ']' [] text) (count : Nat)
    (rest : List Char) : (readItem count (text ++ rest)).toOption = none := by
  cases h with
  | close blank => simp [readItem, dropBlanks_append blank, isBlank]

theorem exists_readItem_first {item : Tree × List Char} {parts : List (List Char)}
    (written : Written depth item.1 item.2) {inside : List Char}
    (h : Inside ']' (item.2 :: parts) inside) :
    ∃ after, Following ']' parts after ∧ ∀ rest,
      (readItem 0 (inside ++ rest)).toOption = item.1.part?.map (·, after ++ rest) := by
  cases h with
  | @parts space _ after _ blank more =>
      refine ⟨after, more, fun rest => ?_⟩
      obtain ⟨c, tail, opening, notBlank, notClose⟩ := written.opens
      have ne_close : c ≠ ']' := fun same => notClose (.inl same)
      rw [← answers_readPart written [] _ allBlank_nil (more.stops (.inl rfl) rest)]
      simp [readItem, dropBlanks_append blank, opening, notBlank, ne_close]

theorem exists_readItem_next {item : Tree × List Char} {parts : List (List Char)}
    (written : Written depth item.1 item.2) {text : List Char}
    (h : Following ']' (item.2 :: parts) text) {count : Nat} (later : count ≠ 0) :
    ∃ after, Following ']' parts after ∧ ∀ rest,
      (readItem count (text ++ rest)).toOption = item.1.part?.map (·, after ++ rest) := by
  cases h with
  | @next gap space _ after _ gap_blank space_blank more =>
      refine ⟨after, more, fun rest => ?_⟩
      rw [← answers_readPart written space _ space_blank (more.stops (.inl rfl) rest)]
      simp [readItem, dropBlanks_append gap_blank, isBlank, later]

theorem symbol_closed {text : List Char} (h : Following ']' [] text) (rest : List Char) :
    symbol ']' (text ++ rest) = .ok ((), rest) := by
  cases h with
  | close blank => simp [symbol, dropBlanks_append blank, isBlank, expect]

theorem symbol_next {part : List Char} {parts : List (List Char)} {text : List Char}
    (h : Following ']' (part :: parts) text) (rest : List Char) :
    (symbol ']' (text ++ rest)).toOption = none := by
  cases h with
  | next blank _ _ => simp [symbol, dropBlanks_append blank, isBlank, expect]

/-- The array has to close before none of its three items and right after them. -/
theorem readArray_inside {items : List (Tree × List Char)}
    (written : ∀ item ∈ items, Written depth item.1 item.2) {inside : List Char}
    (parts : Inside ']' (items.map (·.2)) inside) (rest : List Char) :
    (readArray (inside ++ rest)).toOption = (version? (.arr (items.map (·.1)))).map (·, rest) := by
  rcases items with _ | ⟨first, items⟩
  · simp [readArray, toOption_bind, readItem_empty parts, version?]
  obtain ⟨after, more, read_first⟩ := exists_readItem_first (written first (by simp)) parts
  rcases items with _ | ⟨second, items⟩
  · cases first.1.part? <;>
      simp [readArray, toOption_bind, read_first, readItem_closed more, version?]
  obtain ⟨after', more', read_second⟩ :=
    exists_readItem_next (written second (by simp)) more Nat.one_ne_zero
  rcases items with _ | ⟨third, items⟩
  · cases first.1.part? <;> cases second.1.part? <;>
      simp [readArray, toOption_bind, read_first, read_second, readItem_closed more', version?]
  obtain ⟨after'', more'', read_third⟩ :=
    exists_readItem_next (written third (by simp)) more' (show 2 ≠ 0 by decide)
  rcases items with _ | ⟨fourth, items⟩
  · cases hf : first.1.part? <;> cases hs : second.1.part? <;> cases ht : third.1.part? <;>
      simp [readArray, toOption_bind, read_first, read_second, read_third, symbol_closed more'',
        version?, hf, hs, ht]
  · cases hf : first.1.part? <;> cases hs : second.1.part? <;> cases ht : third.1.part? <;>
      simp [readArray, toOption_bind, read_first, read_second, read_third, symbol_next more'',
        version?, hf, hs, ht]

theorem answers_read (h : Written depth tree text) : Answers read text tree.version? := by
  cases tree with
  | arr items =>
      cases h with
      | arr parts items_written =>
          intro blanks rest blank _
          rw [← readArray_inside items_written parts rest, read, List.cons_append,
            lead_array blank]
          rfl
  | obj members =>
      cases h with
      | obj parts trees_written =>
          intro blanks rest blank _
          rw [← readObject_inside trees_written parts rest, read, List.cons_append,
            lead_object blank]
          rfl
  | _ => exact h.refuses fun _ => rfl

end Version

/-! ## Records and catalogs -/

namespace Catalog

open Tree

variable {depth : Nat} {tree : Tree} {text : List Char}

theorem answers_record (h : Written (depth + 1) tree text) :
    Answers (Record.read depth) text tree.record? := by
  cases tree with
  | obj members =>
      intro blanks rest blank stops
      have value := h.reads.read blank stops
      have record : Record.read depth (blanks ++ (text ++ rest)) =
          .ok (⟨heldMembers members⟩, rest) := Record.read_eq_ok_iff.mpr value
      rw [record]
      rfl
  | _ => exact h.refuses fun _ => rfl

theorem answers_readGames (h : Written (depth + 2) tree text) :
    Answers (readGames depth) text tree.games? := by
  cases tree with
  | arr items =>
      cases h with
      | @arr _ items inside parts items_written =>
          intro blanks rest blank _
          have read := array_inside (fun item hm => (items_written item hm).opens)
            (fun item hm => answers_record (items_written item hm)) parts rest
          rw [games?, List.mapM_map]
          simp only [readGames, List.cons_append, lead_array blank, ok_bind, read]
          rfl
  | _ => exact h.refuses fun _ => rfl

theorem answers_readMember (written : WrittenMember)
    (h : Written (nestingLimit - 1) written.tree written.text) (draft : Draft) :
    Answers (readMember draft) written.chars (draft.put? written.member) := by
  have records : Answers (readGames (nestingLimit - 3)) written.text written.tree.games? :=
    answers_readGames h
  unfold Draft.put? WrittenMember.member
  simp only
  split
  next version =>
    exact written.answers_once
      (fun _ _ hname => by simp only [readMember, hname, ok_bind, if_pos version])
      (Version.answers_read h)
  next version =>
  split
  next games =>
    exact written.answers_once
      (fun _ _ hname => by simp only [readMember, hname, ok_bind, if_neg version, if_pos games])
      records
  next games =>
    exact written.answers_named (fun _ _ hname => by simp [readMember, hname, version, games])
      (h.reads.answers.map fun held => { draft with extra := draft.extra.set written.name held })

theorem answers_read (h : Written nestingLimit tree text) :
    Answers Catalog.read text tree.catalog? := by
  cases tree with
  | obj members =>
      cases h with
      | @obj _ members inside parts trees_written =>
          intro blanks rest blank _
          have folded := series_inside (.inr rfl) (fun member _ => member.opens)
            (fun draft member hm => answers_readMember member (trees_written member hm) draft)
            parts {} rest
          rw [List.cons_append, Catalog.read, lead_object blank, ok_bind]
          simp only [toOption_bind, folded, catalog?, List.foldlM_map]
          cases members.foldlM (fun draft member => Draft.put? draft member.member) {} with
          | none => rfl
          | some draft =>
              simp only [Option.map_some, Option.bind_some]
              cases ofDraft draft <;> rfl
  | _ => exact h.refuses fun _ => rfl

theorem toOption_ofText {text : String} (h : tree.IsText text) :
    (Catalog.ofText text).toOption = tree.catalog? := by
  obtain ⟨before, inner, after, before_blank, after_blank, written, text_eq⟩ := h
  have read := answers_read written before after before_blank (stops_blank after_blank)
  rw [Catalog.ofText, text_eq, toOption_bind, read]
  cases tree.catalog? with
  | none => rfl
  | some catalog => simp [finish_eq_ok_iff.mpr after_blank]

/-- A text that is one value within the limits loads exactly when its tree is a catalog, and then as
the catalog that the tree describes. -/
theorem ofFile_isText {text : String} (h : tree.IsText text) (path : Path) :
    ((∃ catalog, ofFile path (.ok text) = .ok catalog) ↔ tree.IsCatalog) ∧
      ∀ catalog, ofFile path (.ok text) = .ok catalog ↔ tree.Describes catalog := by
  have loads : ∀ catalog, ofFile path (.ok text) = .ok catalog ↔ tree.Describes catalog := by
    intro catalog
    rw [← catalog?_eq_some_iff, ← toOption_ofText h, toOption_eq_some_iff]
    constructor
    · intro loaded
      obtain ⟨_, same, made⟩ := exists_ofText_of_ofFile loaded
      cases same
      exact made
    · intro made
      exact ofFile_of_ofText made path
  refine ⟨?_, loads⟩
  rw [isCatalog_iff]
  exact exists_congr loads

/-- Digits without a needless zero are a way to write the part of a stamp that they make up. -/
theorem exists_written_part (digits : List Char) (part : UInt32) (run : DigitRun digits)
    (zero_alone : digits.head? = some '0' → digits = ['0'])
    (size : Numeral.natural digits = part.toNat) :
    ∃ tree : Tree, tree.Holds part ∧ ∀ depth, Written depth tree digits := by
  have small := part.toNat_lt
  have inRange : InWideRange (Numeral.natural digits) := by
    unfold InWideRange
    omega
  have stands := Numeral.value?_plain inRange
  exact ⟨.num _ _ stands, ⟨digits, _, stands, rfl, size⟩, fun _ => .num (.plain run zero_alone)⟩

/-- A text whose stamp is an array under an escaped name, and with a member that is given twice. -/
theorem ofFile_isText_escapedName :
    let text :=
      "\x7b\"v\\u0065rsion\": [24, 0, 1], \"games\": [\x7b\x7d], \"x\": null, \"x\": true\x7d"
    let catalog : Catalog := ⟨⟨24, 0, 1⟩, [⟨[]⟩], [("x", .bool true)]⟩
    ∃ tree : Tree, tree.IsText text ∧ tree.Describes catalog ∧
      ofFile "games.json" (.ok text) = .ok catalog := by
  intro text catalog
  have space : AllBlank [' '] := by simp [AllBlank, isBlank]
  obtain ⟨year, year_holds, year_written⟩ :=
    exists_written_part ['2', '4'] 24 ⟨by simp, by simp⟩ (by decide) (by decide)
  obtain ⟨major, major_holds, major_written⟩ :=
    exists_written_part ['0'] 0 ⟨by simp, by simp⟩ (by decide) (by decide)
  obtain ⟨minor, minor_holds, minor_written⟩ :=
    exists_written_part ['1'] 1 ⟨by simp, by simp⟩ (by decide) (by decide)
  have stamp_written : Written 126 (.arr [year, major, minor]) "[24, 0, 1]".toList :=
    @Written.arr 125 [(year, ['2', '4']), (major, ['0']), (minor, ['1'])] _
      (.parts allBlank_nil (.next allBlank_nil space (.next allBlank_nil space
        (.close allBlank_nil))))
      (by simp [year_written, major_written, minor_written])
  have games_written : Written 126 (.arr [.obj []]) "[\x7b\x7d]".toList :=
    @Written.arr 125 [(.obj [], "\x7b\x7d".toList)] _ (.parts allBlank_nil (.close allBlank_nil))
      (List.forall_mem_singleton.mpr (@Written.obj 124 [] _ (.empty allBlank_nil) (by simp)))
  have e_unit : HexUnit ['0', '0', '6', '5'] 101 := @HexUnit.digits _ _ _ _ 0 0 6 5 rfl rfl rfl rfl
  have version_text : StringText "version" "\"v\\u0065rsion\"".toList :=
    StringChars.stringText (.plain (by decide) (by decide) (by decide)
      (.single e_unit rfl rfl (.of_plain (by simp))))
  have games_text : StringText "games" "\"games\"".toList :=
    StringChars.stringText (.of_plain (by simp))
  have x_text : StringText "x" "\"x\"".toList :=
    StringChars.stringText (.of_plain (by simp))
  let members : List WrittenMember :=
    [⟨"version", .arr [year, major, minor], _, [], [' '], "[24, 0, 1]".toList, version_text,
        allBlank_nil, space⟩,
      ⟨"games", .arr [.obj []], _, [], [' '], "[\x7b\x7d]".toList, games_text, allBlank_nil, space⟩,
      ⟨"x", .null, _, [], [' '], "null".toList, x_text, allBlank_nil, space⟩,
      ⟨"x", .bool true, _, [], [' '], "true".toList, x_text, allBlank_nil, space⟩]
  have written : ∀ member ∈ members, Written 126 member.tree member.text := by
    simp only [members, List.forall_mem_cons]
    exact ⟨stamp_written, games_written, .null, .true, List.forall_mem_nil _⟩
  have parts : Inside '\x7d' (members.map (·.chars)) _ :=
    .parts allBlank_nil (.next allBlank_nil space (.next allBlank_nil space
      (.next allBlank_nil space (.close allBlank_nil))))
  have is_text : Tree.IsText (.obj (members.map (·.member))) text :=
    ⟨[], _, [], allBlank_nil, allBlank_nil, .obj parts written, by
      simp [text, WrittenMember.chars]⟩
  have describes : Tree.Describes (.obj (members.map (·.member))) catalog :=
    @Describes.object _ _ ⟨24, 0, 1⟩ [[]] rfl (.array year_holds major_holds minor_holds) rfl
  exact ⟨_, is_text, describes, ((ofFile_isText is_text "games.json").2 catalog).mpr describes⟩

end Catalog

end GameCatalog
