import GameCatalog.Catalog.Reader
import GameCatalog.Catalog.Text
import GameCatalog.Proofs.Json.Readable

/-!
# Catalogs read back from their text

A catalog that was read is readable: its records and further fields nest within the limit, no
object in it repeats a name, and no further field is named like one of the two that every catalog
has. A readable catalog reads back from its text as itself.
-/

namespace GameCatalog

open Json

/-! ## Version stamps -/

namespace Version

theorem readPart_of_int {text rest : List Char} {n : Int} {inRange : InWideRange n}
    (h : lead text = .ok (.num (.int n inRange), rest)) (hn : 0 ≤ n ∧ n < 0x100000000) :
    readPart text = .ok (UInt32.ofNat n.toNat, rest) := by
  simp [readPart, h, hn]

theorem reads_part (part : UInt32) : Reads readPart (intText part.toNat) part := by
  have hlt : part.toNat < 0x100000000 := part.toNat_lt
  have hrange : InWideRange part.toNat := by
    unfold InWideRange
    omega
  have h := reads_num (number_intText part.toNat hrange)
  refine ⟨h.opens, fun hb hs => ?_⟩
  rw [readPart_of_int (h.read hb hs) (by omega), Int.toNat_natCast, UInt32.ofNat_toNat]

variable {layout : Layout} (spaced : layout.Spaced)

include spaced

/-- A member of a stamp reads as the part that its name puts into the draft. -/
theorem reads_readMember (draft : Draft) (name : String) (fill : UInt32 → Draft)
    (fills : ∀ text rest, memberName string text = .ok (name, rest) →
      readMember draft text = (do
        let (_, rest) ← symbol ':' rest
        let (part, rest) ← readPart rest
        .ok (fill part, rest)))
    (part : UInt32) :
    Reads (readMember draft) (memberText layout name (intText part.toNat)) (fill part) :=
  reads_named spaced fills ((reads_part part).map fill)

theorem reads_year (draft : Draft) (h : draft.year = none) (part : UInt32) :
    Reads (readMember draft) (memberText layout "year" (intText part.toNat))
      { draft with year := some part } :=
  reads_readMember spaced draft "year" (fun part => { draft with year := some part })
    (fun _ _ hname => by simp [readMember, readNamed, hname, h]) part

theorem reads_major (draft : Draft) (h : draft.major = none) (part : UInt32) :
    Reads (readMember draft) (memberText layout "major" (intText part.toNat))
      { draft with major := some part } :=
  reads_readMember spaced draft "major" (fun part => { draft with major := some part })
    (fun _ _ hname => by simp [readMember, readNamed, hname, h]) part

theorem reads_minor (draft : Draft) (h : draft.minor = none) (part : UInt32) :
    Reads (readMember draft) (memberText layout "minor" (intText part.toNat))
      { draft with minor := some part } :=
  reads_readMember spaced draft "minor" (fun part => { draft with minor := some part })
    (fun _ _ hname => by simp [readMember, readNamed, hname, h]) part

theorem reads_text (version : Version) (level : Nat) :
    Reads read (version.text layout level) version := by
  have steps := Steps.cons (reads_year spaced {} rfl version.year)
    (.cons (reads_major spaced { year := some version.year } rfl version.major)
      (.cons (reads_minor spaced { year := some version.year, major := some version.major } rfl
        version.minor) .nil))
  obtain ⟨inside, he, hread⟩ := series_enclose spaced (.inr rfl) steps level '\x7b'
  have htext : version.text layout level = '\x7b' :: inside := he
  rw [htext]
  refine ⟨⟨'\x7b', _, rfl, rfl, by simp [Closes]⟩, fun hb _ => ?_⟩
  simp [read, lead_object hb, readObject, hread, ofDraft]

end Version

/-! ## Records -/

namespace Record

variable {depth : Nat}

/-- Reading a record is reading a value that is an object. -/
theorem read_eq_ok_iff {text rest : List Char} {record : Record} :
    Record.read depth text = .ok (record, rest) ↔
      value (depth + 1) text = .ok (.obj record.fields, rest) := by
  obtain ⟨fields⟩ := record
  rw [show value (depth + 1) = valueWith (some (value depth)) from rfl]
  unfold Record.read valueWith
  cases lead text with
  | error fault => simp
  | ok result =>
      obtain ⟨start, tail⟩ := result
      cases start with
      | object =>
          simp only [ok_bind]
          cases object (value depth) tail <;> simp
      | array =>
          simp only [ok_bind]
          cases array (value depth) tail <;> simp [wrongKind]
      | _ => simp [wrongKind]

theorem reads_text {layout : Layout} (spaced : layout.Spaced) {record : Record}
    (readable : (Value.obj record.fields).Readable (depth + 1))
    (floats : ∀ x ∈ (Value.obj record.fields).floats, ReadsBack x) (level : Nat) :
    Reads (Record.read depth) ((Value.obj record.fields).text layout level) record := by
  have h := reads_value spaced readable floats level
  exact ⟨h.opens, fun hb hs => read_eq_ok_iff.mpr (h.read hb hs)⟩

end Record

/-! ## Catalogs -/

namespace Catalog

/-- What a catalog needs to be read back: records and further fields that nest within the limit,
with distinct names, and no further field named like one of the two that every catalog has. -/
structure Readable (catalog : Catalog) : Prop where
  games : ∀ record ∈ catalog.games, (Value.obj record.fields).Readable (nestingLimit - 2)
  extra : (Value.obj catalog.extra).Readable nestingLimit
  version_free : "version" ∉ catalog.extra.names
  games_free : "games" ∉ catalog.extra.names

def floats (catalog : Catalog) : List Binary64 :=
  catalog.games.flatMap (fun record => (Value.obj record.fields).floats) ++
    (Value.obj catalog.extra).floats

/-! ### What reading gives -/

structure Draft.Readable (draft : Draft) : Prop where
  games : ∀ games ∈ draft.games, ∀ record ∈ games,
    (Value.obj record.fields).Readable (nestingLimit - 2)
  extra : (Value.obj draft.extra).Readable nestingLimit
  version_free : "version" ∉ draft.extra.names
  games_free : "games" ∉ draft.extra.names

theorem Draft.readable_empty : Draft.Readable {} :=
  ⟨nofun, .obj (by simp) (by simp), by simp, by simp⟩

section Read

variable {text rest : List Char}

theorem readable_of_readGames {depth : Nat} {games : List Record}
    (h : readGames depth text = .ok (games, rest)) :
    ∀ record ∈ games, (Value.obj record.fields).Readable (depth + 1) := by
  obtain ⟨⟨start, tail⟩, -, h⟩ := bind_eq_ok_iff.mp h
  cases start with
  | array =>
      exact forall_of_array (fun hr => readable_of_value (Record.read_eq_ok_iff.mp hr)) h
  | _ => simp [wrongKind] at h

theorem Draft.Readable.of_readMember {draft next : Draft} (hd : draft.Readable)
    (h : readMember draft text = .ok (next, rest)) : next.Readable := by
  obtain ⟨⟨name, tail⟩, -, h⟩ := bind_eq_ok_iff.mp h
  simp only at h
  by_cases version : name = "version"
  · rw [if_pos version] at h
    split at h
    · cases h
    · simp only [bind_eq_ok_iff, Except.ok.injEq, Prod.mk.injEq] at h
      obtain ⟨_, -, _, -, rfl, -⟩ := h
      exact ⟨hd.games, hd.extra, hd.version_free, hd.games_free⟩
  · rw [if_neg version] at h
    by_cases games : name = "games"
    · rw [if_pos games] at h
      split at h
      · cases h
      · simp only [bind_eq_ok_iff, Except.ok.injEq, Prod.mk.injEq] at h
        obtain ⟨_, -, ⟨games, after⟩, hg, rfl, -⟩ := h
        refine ⟨?_, hd.extra, hd.version_free, hd.games_free⟩
        rintro _ ⟨⟩
        exact readable_of_readGames hg
    · rw [if_neg games] at h
      simp only [bind_eq_ok_iff, Except.ok.injEq, Prod.mk.injEq] at h
      obtain ⟨_, -, ⟨held, after⟩, hv, rfl, -⟩ := h
      have hnew : ∀ other ∉ draft.extra.names, name ≠ other →
          other ∉ (draft.extra.set name held).names := by
        intro other ho hne
        rw [Members.names_set]
        split
        · exact ho
        · simp [ho, hne.symm]
      exact ⟨hd.games, hd.extra.set name (readable_of_value hv),
        hnew _ hd.version_free version, hnew _ hd.games_free games⟩

theorem readable_of_ofText {text : String} {catalog : Catalog} (h : ofText text = .ok catalog) :
    catalog.Readable := by
  obtain ⟨⟨found, rest⟩, hr, h⟩ := bind_eq_ok_iff.mp h
  obtain ⟨-, -, h⟩ := bind_eq_ok_iff.mp h
  cases h
  obtain ⟨⟨start, tail⟩, -, hr⟩ := bind_eq_ok_iff.mp hr
  cases start with
  | object =>
      obtain ⟨⟨draft, left⟩, hs, hr⟩ := bind_eq_ok_iff.mp hr
      obtain ⟨catalog, hd, hr⟩ := bind_eq_ok_iff.mp hr
      cases hr
      have held := series_keeps Draft.Readable.of_readMember Draft.readable_empty hs
      unfold ofDraft at hd
      split at hd
      next version games hv hg =>
        cases hd
        exact ⟨held.games games (by simp [hg]), held.extra, held.version_free, held.games_free⟩
      all_goals cases hd
  | _ => simp [wrongKind] at hr

end Read

/-! ### Reading back -/

section RoundTrip

variable {layout : Layout} (spaced : layout.Spaced)

include spaced

theorem reads_games (depth : Nat) {games : List Record}
    (readable : ∀ record ∈ games, (Value.obj record.fields).Readable (depth + 1))
    (floats : ∀ record ∈ games, ∀ x ∈ (Value.obj record.fields).floats, ReadsBack x)
    (level : Nat) :
    Reads (readGames depth) (layout.enclose level '[' ']'
      (games.map fun record => (Value.obj record.fields).text layout (level + 1))) games := by
  obtain ⟨inside, he, hread⟩ := array_enclose spaced (fun record hm =>
    Record.reads_text spaced (readable record hm) (floats record hm) (level + 1)) level
  rw [he]
  refine ⟨⟨'[', _, rfl, rfl, by simp [Closes]⟩, fun hb _ => ?_⟩
  simp [readGames, lead_array hb, hread]

theorem reads_version (draft : Draft) (h : draft.version = none) (version : Version)
    (level : Nat) :
    Reads (readMember draft) (memberText layout "version" (version.text layout level))
      { draft with version := some version } :=
  reads_named spaced (fun _ _ hname => by simp [readMember, hname, h])
    ((version.reads_text spaced level).map fun version => { draft with version := some version })

theorem reads_gamesMember (draft : Draft) (h : draft.games = none) {games : List Record}
    (readable : ∀ record ∈ games, (Value.obj record.fields).Readable (nestingLimit - 2))
    (floats : ∀ record ∈ games, ∀ x ∈ (Value.obj record.fields).floats, ReadsBack x)
    (level : Nat) :
    Reads (readMember draft) (memberText layout "games" (layout.enclose level '[' ']'
        (games.map fun record => (Value.obj record.fields).text layout (level + 1))))
      { draft with games := some games } :=
  reads_named spaced (fun _ _ hname => by simp [readMember, hname, h])
    ((reads_games spaced (nestingLimit - 3) readable floats level).map fun games =>
      { draft with games := some games })

theorem steps_extra {members : Members} (draft : Draft)
    (reads : ∀ member ∈ members, Reads (value (nestingLimit - 1)) (member.2.text layout 1) member.2)
    (version_free : "version" ∉ members.names) (games_free : "games" ∉ members.names)
    (names_nodup : (draft.extra ++ members).names.Nodup) :
    Steps readMember draft (memberTexts layout 1 members)
      { draft with extra := draft.extra ++ members } := by
  rw [memberTexts_eq_map]
  induction members generalizing draft with
  | nil => simpa using Steps.nil
  | cons member rest ih =>
      obtain ⟨name, held⟩ := member
      rw [Members.names_cons, List.mem_cons, not_or] at version_free games_free
      have hnew : name ∉ draft.extra.names := by
        rw [Members.names_append, Members.names_cons, List.nodup_append] at names_nodup
        exact fun hm => names_nodup.2.2 name hm name List.mem_cons_self rfl
      have hset := Members.set_of_not_mem hnew held
      have hfirst : Reads (readMember draft) (memberText layout name (held.text layout 1))
          { draft with extra := draft.extra ++ [(name, held)] } := by
        rw [← hset]
        refine reads_named spaced (fun _ _ hname => ?_)
          ((reads _ List.mem_cons_self).map fun held =>
            { draft with extra := draft.extra.set name held })
        simp [readMember, hname, Ne.symm version_free.1, Ne.symm games_free.1]
      have hrest := ih { draft with extra := draft.extra ++ [(name, held)] }
        (fun other hm => reads other (List.mem_cons_of_mem _ hm)) version_free.2 games_free.2
        (by simpa using names_nodup)
      rw [List.append_assoc, List.singleton_append] at hrest
      exact .cons hfirst hrest

/-- A readable catalog reads back from its text when its doubles read back from theirs. -/
theorem reads_chars {catalog : Catalog} (readable : catalog.Readable)
    (floats : ∀ x ∈ catalog.floats, ReadsBack x) :
    Reads Catalog.read (catalog.chars layout) catalog := by
  obtain ⟨extra_nodup, extra_readable⟩ := Value.readable_obj_iff.mp readable.extra
  have gameFloats : ∀ record ∈ catalog.games, ∀ x ∈ (Value.obj record.fields).floats,
      ReadsBack x := fun record hm x hx =>
    floats x (List.mem_append_left _ (List.mem_flatMap.mpr ⟨record, hm, hx⟩))
  have extraFloats : ∀ member ∈ catalog.extra, ∀ x ∈ member.2.floats, ReadsBack x :=
    fun member hm x hx => floats x (List.mem_append_right _ (by
      rw [Value.floats, Value.memberFloats_eq_flatMap]
      exact List.mem_flatMap.mpr ⟨member, hm, hx⟩))
  have extra := steps_extra spaced
    { version := some catalog.version, games := some catalog.games }
    (fun member hm => reads_value spaced (extra_readable member hm) (extraFloats member hm) 1)
    readable.version_free readable.games_free extra_nodup
  obtain ⟨inside, he, hread⟩ := series_enclose spaced (.inr rfl)
    (.cons (reads_version spaced {} rfl catalog.version 1)
      (.cons (reads_gamesMember spaced { version := some catalog.version } rfl readable.games
        gameFloats 1) extra)) 0 '\x7b'
  unfold chars
  rw [he]
  refine ⟨⟨'\x7b', _, rfl, rfl, by simp [Closes]⟩, fun hb _ => ?_⟩
  simp [Catalog.read, lead_object hb, hread, ofDraft]

end RoundTrip

/-- Whatever was saved loads as it was. -/
theorem ofText_text {catalog : Catalog} (readable : catalog.Readable)
    (floats : ∀ x ∈ catalog.floats, ReadsBack x) (indent : Nat) :
    ofText (catalog.text indent) = .ok catalog := by
  have h :=
    (reads_chars (Layout.spaced_indented indent) readable floats).read allBlank_nil stops_nil
  rw [List.nil_append, List.append_nil] at h
  simp only [ofText, text, String.toList_ofList, h, ok_bind]
  rfl

end Catalog

end GameCatalog
