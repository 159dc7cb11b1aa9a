import GameCatalog.Proofs.Json.Continuation
import GameCatalog.Proofs.Json.Cut
import GameCatalog.Proofs.Reload

/-!
# Truncated catalogs

A text that breaks off before its closing brace is never read as a catalog: had the reader come to
its end there, it would leave the brace unread in the full text. Of a saved catalog every proper
prefix is refused as truncated, wherever the cut falls, and not as malformed.
-/

namespace GameCatalog

open Json

/-! ## Cutting the text of a catalog -/

namespace Version

/-- Fewer digits of a part are a part again. -/
theorem breaks_part (part : UInt32) : Breaks readPart (intText part.toNat) := by
  intro blanks left blank hcut
  have hlt : part.toNat < 0x100000000 := part.toNat_lt
  cases left with
  | nil => exact .inl (by rw [readPart, lead_nothing blank, error_bind])
  | cons c rest =>
      have inRange : InWideRange part.toNat := by
        unfold InWideRange
        omega
      obtain ⟨m, small, hle, hm⟩ := number_digits_cut inRange hcut (by simp)
      have hlead := (reads_num hm).read blank stops_nil
      rw [List.append_nil] at hlead
      exact .inr ⟨_, readPart_of_int hlead (by omega)⟩

variable {layout : Layout} (spaced : layout.Spaced)

include spaced

theorem breaks_year (draft : Draft) (h : draft.year = none) (part : UInt32) :
    Breaks (readMember draft) (memberText layout "year" (intText part.toNat)) :=
  breaks_named spaced (fun _ => by simp [readNamed, h]) (reads_part part).ne_nil
    ((breaks_part part).map fun part => { draft with year := some part })

theorem breaks_major (draft : Draft) (h : draft.major = none) (part : UInt32) :
    Breaks (readMember draft) (memberText layout "major" (intText part.toNat)) :=
  breaks_named spaced (fun _ => by simp [readNamed, h]) (reads_part part).ne_nil
    ((breaks_part part).map fun part => { draft with major := some part })

theorem breaks_minor (draft : Draft) (h : draft.minor = none) (part : UInt32) :
    Breaks (readMember draft) (memberText layout "minor" (intText part.toNat)) :=
  breaks_named spaced (fun _ => by simp [readNamed, h]) (reads_part part).ne_nil
    ((breaks_part part).map fun part => { draft with minor := some part })

theorem truncates_text (version : Version) (level : Nat) :
    Truncates read (version.text layout level) := by
  have minor := Breakable.cons
    (reads_minor spaced { year := some version.year, major := some version.major } rfl
      version.minor)
    (breaks_minor spaced _ rfl version.minor) .nil
  have major := Breakable.cons
    (reads_major spaced { year := some version.year } rfl version.major)
    (breaks_major spaced _ rfl version.major) minor
  have year := Breakable.cons (reads_year spaced {} rfl version.year)
    (breaks_year spaced _ rfl version.year) major
  exact truncates_enclose spaced (.inr rfl) year lead_object
    (fun inside h => by simp [readObject, h]) level

end Version

theorem Record.whole_text {layout : Layout} (spaced : layout.Spaced) {depth : Nat}
    {record : Record} (readable : (Value.obj record.fields).Readable (depth + 1)) (level : Nat) :
    Whole (Record.read depth) ((Value.obj record.fields).text layout level) := by
  obtain ⟨-, values_readable⟩ := Value.readable_obj_iff.mp readable
  rw [Value.text, memberTexts_eq_map]
  exact whole_object spaced
    (fun member hm => whole_value spaced (values_readable member hm) (level + 1)) Record.mk
    (fun _ => rfl) level

namespace Catalog

section Cut

variable {layout : Layout} (spaced : layout.Spaced)

include spaced

theorem whole_games (depth : Nat) {games : List Record}
    (readable : ∀ record ∈ games, (Value.obj record.fields).Readable (depth + 1)) (level : Nat) :
    Whole (readGames depth) (layout.enclose level '[' ']'
      (games.map fun record => (Value.obj record.fields).text layout (level + 1))) := by
  refine whole_array spaced
    (fun record hm => Record.whole_text spaced (readable record hm) (level + 1)) id
    (fun inside => ?_) level
  show array (Record.read depth) inside = _
  cases array (Record.read depth) inside <;> rfl

theorem breaks_version (draft : Draft) (h : draft.version = none) (version : Version)
    (level : Nat) :
    Breaks (readMember draft) (memberText layout "version" (version.text layout level)) :=
  breaks_named spaced (fun _ => by simp [h]) (version.reads_text spaced level).ne_nil
    ((version.truncates_text spaced level).breaks.map fun version =>
      { draft with version := some version })

theorem whole_gamesMember (draft : Draft) (h : draft.games = none) {games : List Record}
    (readable : ∀ record ∈ games, (Value.obj record.fields).Readable (nestingLimit - 2))
    (level : Nat) :
    Whole (readMember draft) (memberText layout "games" (layout.enclose level '[' ']'
      (games.map fun record => (Value.obj record.fields).text layout (level + 1)))) :=
  whole_named spaced rfl (fun _ => by simp [h])
    ((whole_games spaced (nestingLimit - 3) readable level).map fun games =>
      { draft with games := some games })

theorem whole_extra (draft : Draft) {name : String} (version_free : name ≠ "version")
    (games_free : name ≠ "games") {held : Value} (readable : held.Readable (nestingLimit - 1))
    (level : Nat) :
    Whole (readMember draft) (memberText layout name (held.text layout level)) :=
  whole_named spaced rfl (fun _ => by simp [version_free, games_free])
    ((whole_value spaced readable level).map fun held =>
      { draft with extra := draft.extra.set name held })

theorem truncates_chars {catalog : Catalog} (readable : catalog.Readable) :
    Truncates Catalog.read (catalog.chars layout) := by
  obtain ⟨-, extra_readable⟩ := Value.readable_obj_iff.mp readable.extra
  have extra : ∀ draft, ∀ part ∈ memberTexts layout 1 catalog.extra,
      Whole (readMember draft) part := by
    rw [memberTexts_eq_map]
    intro draft part hpart
    obtain ⟨member, hm, rfl⟩ := List.mem_map.mp hpart
    have named := Members.name_mem_of_mem hm
    exact whole_extra spaced draft (fun e => readable.version_free (e ▸ named))
      (fun e => readable.games_free (e ▸ named)) (extra_readable member hm) 1
  have games := whole_gamesMember spaced { version := some catalog.version } rfl readable.games 1
  obtain ⟨next, games_read⟩ := games.reads
  have later := Breakable.cons games_read games.breaks (breakable_of_whole extra next)
  have parts := Breakable.cons (reads_version spaced {} rfl catalog.version 1)
    (breaks_version spaced _ rfl catalog.version 1) later
  exact truncates_enclose spaced (.inr rfl) parts lead_object (fun inside h => by simp [h]) 0

end Cut

theorem ofText_cut {catalog : Catalog} (readable : catalog.Readable) {indent : Nat}
    {part : List Char} (h : Cut part (catalog.text indent).toList) :
    ofText (String.ofList part) = .error .truncated := by
  rw [text, String.toList_ofList] at h
  have cut := truncates_chars (Layout.spaced_indented indent) readable [] part allBlank_nil h
  rw [List.nil_append] at cut
  rw [ofText, String.toList_ofList, cut, error_bind]

end Catalog

/-! ## Reading on behind a cut -/

namespace Version

theorem continues_readPart : Continues readPart := by
  refine continues_lead.bind fun start => ?_
  cases start with
  | num n =>
      cases n with
      | int n inRange => exact .ite (fun _ => .pure (UInt32.ofNat n.toNat)) fun _ => .fault _ _
      | float x => exact .fault _ _
  | _ => exact .fault _ _

theorem continues_readNamed (name : String) (held : Option UInt32) :
    Continues (readNamed name held) :=
  .ite (fun _ => .fault _ _) fun _ => (continues_symbol ':').bind fun _ => continues_readPart

theorem continues_readMember (draft : Draft) : Continues (readMember draft) := by
  refine (continues_memberName continues_string).bind fun name => ?_
  refine .ite (fun _ => (continues_readNamed name draft.year).bind fun part => .pure _) fun _ => ?_
  refine .ite (fun _ => (continues_readNamed name draft.major).bind fun part => .pure _) fun _ => ?_
  refine .ite (fun _ => (continues_readNamed name draft.minor).bind fun part => .pure _) fun _ => ?_
  exact (continues_symbol ':').bind fun _ => continues_skip.bind fun _ => .pure draft

theorem continues_readObject : Continues readObject := by
  refine (carries_series continues_readMember {}).bind fun draft => ?_
  cases hv : ofDraft draft with
  | ok version => simpa only [hv, ok_bind] using CarriesTo.pure version
  | error fault => simpa only [hv, error_bind] using CarriesTo.fault fault _

theorem continues_itemAhead (count : Nat) :
    Continues (fun text => match text with
      | [] => .error .truncated
      | c :: rest =>
          if c = ']' then .error (.mismatch (.length count shape 3))
          else if count = 0 then readPart (c :: rest)
          else if c = ',' then readPart rest
          else .error .malformed) := by
  intro text left part hr
  cases text with
  | nil => cases hr
  | cons c rest =>
      simp only [List.cons_append] at hr ⊢
      split at hr
      · cases hr
      next open_item =>
        simp only [open_item, if_false]
        split at hr
        next first =>
          simp only [first, if_true]
          exact continues_readPart _ _ _ hr
        next later =>
          simp only [later, if_false]
          split at hr
          next comma =>
            simp only [comma, if_true]
            obtain ⟨suffix, carries⟩ := continues_readPart _ _ _ hr
            exact ⟨suffix.trans (List.suffix_cons _ rest), carries⟩
          next => cases hr

theorem continues_readItem (count : Nat) : Continues (readItem count) :=
  (continues_itemAhead count).blanks rfl

theorem continues_readArray : Continues readArray :=
  (continues_readItem 0).bind fun _ => (continues_readItem 1).bind fun _ =>
    (continues_readItem 2).bind fun _ => (continues_symbol ']').bind fun _ => .pure _

theorem continues_read : Continues read := by
  refine continues_lead.bind fun start => ?_
  cases start with
  | object => exact continues_readObject
  | array => exact continues_readArray
  | _ => exact .fault _ _

end Version

theorem Record.continues_read (depth : Nat) : Continues (Record.read depth) := by
  refine continues_lead.bind fun start => ?_
  cases start with
  | object => exact (continues_object (continues_value depth)).map Record.mk
  | _ => exact .fault _ _

namespace Catalog

theorem continues_readGames (depth : Nat) : Continues (readGames depth) := by
  refine continues_lead.bind fun start => ?_
  cases start with
  | array => exact continues_array (Record.continues_read depth)
  | _ => exact .fault _ _

theorem continues_readMember (draft : Draft) : Continues (readMember draft) := by
  refine (continues_memberName continues_string).bind fun name => ?_
  refine .ite (fun _ => ?_) fun _ => .ite (fun _ => ?_) fun _ => ?_
  · exact .ite (fun _ => .fault _ _) fun _ => (continues_symbol ':').bind fun _ =>
      Version.continues_read.bind fun _ => .pure _
  · exact .ite (fun _ => .fault _ _) fun _ => (continues_symbol ':').bind fun _ =>
      (continues_readGames _).bind fun _ => .pure _
  · exact (continues_symbol ':').bind fun _ => (continues_value _).bind fun _ => .pure _

/-- A catalog ends with its closing brace, so nothing behind it changes how it is read. -/
theorem read_ends {text left : List Char} {catalog : Catalog}
    (h : Catalog.read text = .ok (catalog, left)) :
    '\x7d' :: left <:+ text ∧
      ∀ more, Catalog.read (text ++ more) = .ok (catalog, left ++ more) := by
  obtain ⟨⟨start, inside⟩, hlead, h⟩ := bind_eq_ok_iff.mp h
  obtain ⟨lead_suffix, lead_carries⟩ := continues_lead _ _ _ hlead
  cases start with
  | object =>
      obtain ⟨⟨draft, rest⟩, hs, h⟩ := bind_eq_ok_iff.mp h
      obtain ⟨found, hd, h⟩ := bind_eq_ok_iff.mp h
      cases h
      obtain ⟨suffix, again⟩ := settles_series continues_readMember hs
      refine ⟨suffix.trans lead_suffix, fun more => ?_⟩
      have inside_nonempty : inside ≠ [] := by
        rintro rfl
        cases suffix.length_le
      simp only [Catalog.read, lead_carries inside_nonempty, ok_bind, again, hd]
  | _ => cases h

theorem ofText_eq_ok {text : String} {catalog : Catalog} (h : ofText text = .ok catalog) :
    ∃ rest, Catalog.read text.toList = .ok (catalog, rest) ∧ AllBlank rest := by
  obtain ⟨⟨found, rest⟩, hr, h⟩ := bind_eq_ok_iff.mp h
  obtain ⟨_, finished, h⟩ := bind_eq_ok_iff.mp h
  cases h
  exact ⟨rest, hr, finish_eq_ok_iff.mp finished⟩

/-- Behind a closing brace a prefix of an accepted text would leave more than blanks. -/
theorem exists_fault_of_brace {before after : List Char} {text : String} {catalog : Catalog}
    (h : ofText text = .ok catalog) (text_eq : text.toList = before ++ '\x7d' :: after)
    {part : List Char} (begins : part <+: before) :
    ∃ fault, ofText (String.ofList part) = .error fault := by
  cases hp : ofText (String.ofList part) with
  | error fault => exact ⟨fault, rfl⟩
  | ok other =>
      obtain ⟨rest, reads, blank⟩ := ofText_eq_ok h
      obtain ⟨left, reads_part, -⟩ := ofText_eq_ok hp
      obtain ⟨more, rfl⟩ := begins
      rw [String.toList_ofList] at reads_part
      have again := (read_ends reads_part).2 (more ++ '\x7d' :: after)
      rw [← List.append_assoc, ← text_eq, reads] at again
      cases again
      have brace : isBlank '\x7d' = true := blank _ (by simp)
      cases brace

/-- A truncated catalog is always refused. An accepted text ends with a closing brace and blanks,
and every text that it begins with before that brace is refused as malformed; of the text of a
catalog, in any layout, every proper prefix is refused for ending too soon. -/
theorem ofFile_truncated (path : Path) :
    (∀ {text : String} {catalog : Catalog}, ofFile path (.ok text) = .ok catalog →
      ∃ before after, text.toList = before ++ '\x7d' :: after ∧ AllBlank after ∧
        ∀ part, part <+: before →
          ∃ fault, ofFile path (.ok (String.ofList part)) = .error (.malformed path fault)) ∧
    ∀ {catalog : Catalog}, catalog.Reachable → ∀ indent part,
      part <+: (catalog.text indent).toList → part ≠ (catalog.text indent).toList →
        ofFile path (.ok (String.ofList part)) = .error (.malformed path .truncated) := by
  refine ⟨fun {text catalog} loads => ?_, fun {catalog} reachable indent part begins ne => ?_⟩
  · obtain ⟨_, same, h⟩ := exists_ofText_of_ofFile loads
    cases same
    obtain ⟨rest, reads, blank⟩ := ofText_eq_ok h
    obtain ⟨before, text_eq⟩ := (read_ends reads).1
    refine ⟨before, rest, text_eq.symm, blank, fun part begins => ?_⟩
    obtain ⟨fault, refused⟩ := exists_fault_of_brace h text_eq.symm begins
    exact ⟨fault, by simp [ofFile, refused]⟩
  · simp [ofFile, ofText_cut reachable.readable ⟨begins, ne⟩]

/-- A text with the stamp at its end and a line feed behind it, and a saved catalog that is cut
within the escape of a control character. -/
theorem ofFile_truncated_arrayStamp :
    let text := "\x7b\"games\": [], \"version\": [2024, 1, 0]\x7d\n"
    let saved : Catalog := ⟨⟨2024, 1, 0⟩, [], [("note", .str "\x01")]⟩
    let part := (saved.text 0).toList.take 81
    (ofFile "games.json" (.ok text) = .ok ⟨⟨2024, 1, 0⟩, [], []⟩ ∧
      ∃ before after, text.toList = before ++ '\x7d' :: after ∧ AllBlank after ∧
        ∀ part, part <+: before → ∃ fault,
          ofFile "games.json" (.ok (String.ofList part)) = .error (.malformed "games.json" fault)) ∧
    saved.Reachable ∧ part <+: (saved.text 0).toList ∧ part ≠ (saved.text 0).toList ∧
      part.drop 68 = "\"note\": \"\\u00".toList ∧
      ofFile "games.json" (.ok (String.ofList part)) =
        .error (.malformed "games.json" .truncated) := by
  intro text saved part
  have read : ofText text = .ok ⟨⟨2024, 1, 0⟩, [], []⟩ := by
    simp only [ofText, text, String.reduceToList]
    rfl
  have loads : ofFile "games.json" (.ok text) = .ok ⟨⟨2024, 1, 0⟩, [], []⟩ :=
    ofFile_of_ofText read "games.json"
  have readable : saved.Readable :=
    ⟨by simp [saved], by simp [saved, nestingLimit], by simp [saved], by simp [saved]⟩
  have reachable : saved.Reachable :=
    .loaded (ofFile_of_ofText
      (ofText_text readable (by simp [saved, floats, Value.floats, Value.memberFloats]) 0)
      "games.json")
  have begins : part <+: (saved.text 0).toList := List.take_prefix _ _
  have ne : part ≠ (saved.text 0).toList := by decide +kernel
  exact ⟨⟨loads, (ofFile_truncated "games.json").1 loads⟩, reachable, begins, ne, by decide +kernel,
    (ofFile_truncated "games.json").2 reachable 0 part begins ne⟩

end Catalog

end GameCatalog
