import GameCatalog.Json.Reader
import GameCatalog.Proofs.Json.Members
import GameCatalog.Proofs.Json.Numerals
import GameCatalog.Proofs.Json.Strings

/-!
# Texts that read as a value wherever they stand

A text reads as a value when a reader takes it after any blanks and before anything that does not
go on a number. The texts of tokens do, and so does a container whose parts take the reader's state
from the first to the last, for every layout that spaces with blanks.
-/

namespace GameCatalog.Json

/-! ## Blanks -/

def AllBlank (text : List Char) : Prop := ∀ c ∈ text, isBlank c = true

@[simp] theorem allBlank_nil : AllBlank [] := nofun

theorem dropBlanks_append {blanks : List Char} (hb : AllBlank blanks) (text : List Char) :
    dropBlanks (blanks ++ text) = dropBlanks text :=
  List.dropWhile_append_of_pos hb

theorem dropBlanks_blank {blanks : List Char} (h : AllBlank blanks) : dropBlanks blanks = [] :=
  List.dropWhile_eq_nil_iff.mpr h

@[simp] theorem dropBlanks_cons {c : Char} (h : isBlank c = false) (rest : List Char) :
    dropBlanks (c :: rest) = c :: rest := by
  simp [dropBlanks, h]

theorem stops_append {blanks rest : List Char} (hb : AllBlank blanks) (hs : Stops rest) :
    Stops (blanks ++ rest) := by
  cases blanks with
  | nil => exact hs
  | cons c tail =>
      have hc : isBlank c = true := hb c List.mem_cons_self
      simp only [isBlank, Bool.or_eq_true, beq_iff_eq] at hc
      rcases hc with ((rfl | rfl) | rfl) | rfl <;> simp

theorem stops_blank {blanks : List Char} (h : AllBlank blanks) : Stops blanks := by
  simpa using stops_append h stops_nil

theorem finish_eq_ok_iff {text : List Char} : finish text = .ok () ↔ AllBlank text := by
  have blank_iff : dropBlanks text = [] ↔ AllBlank text := List.dropWhile_eq_nil_iff
  rw [← blank_iff]
  by_cases blank : dropBlanks text = [] <;> simp [finish, blank]

/-- A bracket at the end of a container. -/
def Closes (c : Char) : Prop := c = ']' ∨ c = '\x7d'

theorem Closes.stops {last : Char} (h : Closes last) (rest : List Char) : Stops (last :: rest) := by
  rcases h with rfl | rfl <;> simp

theorem Closes.isBlank {last : Char} (h : Closes last) : isBlank last = false := by
  rcases h with rfl | rfl <;> rfl

theorem Closes.ne_comma {last : Char} (h : Closes last) : last ≠ ',' := by
  rcases h with rfl | rfl <;> decide

/-- The text opens with a character that neither is blank nor closes a container. -/
def Opens (text : List Char) : Prop := ∃ c rest, text = c :: rest ∧ isBlank c = false ∧ ¬Closes c

/-- Wherever the text stands, the reader takes it for `value`; it is not taken for the end of a
container. -/
structure Reads (reader : Reader α) (text : List Char) (value : α) : Prop where
  opens : Opens text
  read : ∀ {blanks rest : List Char}, AllBlank blanks → Stops rest →
    reader (blanks ++ (text ++ rest)) = .ok (value, rest)

theorem Reads.ne_nil {reader : Reader α} {text : List Char} {value : α}
    (h : Reads reader text value) : text ≠ [] := by
  obtain ⟨c, rest, rfl, -⟩ := h.opens
  simp

/-! ## Tokens -/

theorem append_of_expect {word text rest : List Char} (h : expect word text = .ok ((), rest)) :
    text = word ++ rest := by
  induction word generalizing text with
  | nil =>
      cases h
      rfl
  | cons c word ih =>
      cases text with
      | nil => cases h
      | cons d tail =>
          rw [expect] at h
          split at h
          next same => rw [same, ih h, List.cons_append]
          next => cases h

/-- The first character of a number starts nothing else. -/
theorem startsNumber {c : Char} (h : c = '-' ∨ c.isDigit = true) :
    (((c ≠ ' ' ∧ c ≠ '\t') ∧ c ≠ '\n') ∧ c ≠ '\r') ∧ (c ≠ ']' ∧ c ≠ '\x7d') ∧
      c ≠ '"' ∧ c ≠ '[' ∧ c ≠ '\x7b' ∧ c ≠ 'n' ∧ c ≠ 't' ∧ c ≠ 'f' := by
  refine ⟨⟨⟨⟨?_, ?_⟩, ?_⟩, ?_⟩, ⟨?_, ?_⟩, ?_, ?_, ?_, ?_, ?_, ?_⟩ <;>
    (rintro rfl; revert h; decide)

section Lead

variable {number : Reader ν} {string : Reader σ}

theorem reads_null : Reads (leadWith number string) ['n', 'u', 'l', 'l'] .null where
  opens := ⟨'n', _, rfl, rfl, by simp [Closes]⟩
  read hb _ := by simp [leadWith, dropBlanks_append hb, isBlank, expect]

theorem reads_true : Reads (leadWith number string) ['t', 'r', 'u', 'e'] (.bool true) where
  opens := ⟨'t', _, rfl, rfl, by simp [Closes]⟩
  read hb _ := by simp [leadWith, dropBlanks_append hb, isBlank, expect]

theorem reads_false : Reads (leadWith number string) ['f', 'a', 'l', 's', 'e'] (.bool false) where
  opens := ⟨'f', _, rfl, rfl, by simp [Closes]⟩
  read hb _ := by simp [leadWith, dropBlanks_append hb, isBlank, expect]

theorem reads_quoted {inside : List Char} {s : σ}
    (h : ∀ rest, string (inside ++ '"' :: rest) = .ok (s, rest)) :
    Reads (leadWith number string) ('"' :: (inside ++ ['"'])) (.str s) where
  opens := ⟨'"', _, rfl, rfl, by simp [Closes]⟩
  read hb _ := by simp [leadWith, dropBlanks_append hb, isBlank, h]

theorem reads_leading_num {text : List Char} {n : ν}
    (starts : ∃ c rest, text = c :: rest ∧ (c = '-' ∨ c.isDigit = true))
    (h : ∀ {rest}, Stops rest → number (text ++ rest) = .ok (n, rest)) :
    Reads (leadWith number string) text (.num n) := by
  obtain ⟨c, tail, rfl, hc⟩ := starts
  obtain ⟨hblank, hclose, hq, ha, ho, hn, ht, hf⟩ := startsNumber hc
  have hnot : isBlank c = false := by simpa [isBlank] using hblank
  refine ⟨⟨c, tail, rfl, hnot, by simpa [Closes] using hclose⟩, fun hb hs => ?_⟩
  have hread := h hs
  rw [List.cons_append] at hread
  simp [leadWith, dropBlanks_append hb, hnot, hq, ha, ho, hn, ht, hf, hc, hread]

theorem leadWith_array {blanks : List Char} (hb : AllBlank blanks) (rest : List Char) :
    leadWith number string (blanks ++ '[' :: rest) = .ok (.array, rest) := by
  simp [leadWith, dropBlanks_append hb, isBlank]

theorem leadWith_object {blanks : List Char} (hb : AllBlank blanks) (rest : List Char) :
    leadWith number string (blanks ++ '\x7b' :: rest) = .ok (.object, rest) := by
  simp [leadWith, dropBlanks_append hb, isBlank]

end Lead

theorem reads_str (text : String) : Reads lead (stringText text) (.str text) :=
  reads_quoted (string_escaped text)

theorem reads_num {text : List Char} {n : Number} (h : number text = .ok (n, [])) :
    Reads lead text (.num n) :=
  reads_leading_num (starts_of_number h) fun hs => bounded_number hs h

theorem lead_array {blanks : List Char} (hb : AllBlank blanks) (rest : List Char) :
    lead (blanks ++ '[' :: rest) = .ok (.array, rest) :=
  leadWith_array hb rest

theorem lead_object {blanks : List Char} (hb : AllBlank blanks) (rest : List Char) :
    lead (blanks ++ '\x7b' :: rest) = .ok (.object, rest) :=
  leadWith_object hb rest

/-! ## Layouts -/

namespace Layout

/-- A layout that puts nothing but blanks between the parts. -/
structure Spaced (layout : Layout) : Prop where
  line_blank : ∀ level, AllBlank (layout.line level)
  colon_blank : ∃ blanks, layout.colon = ':' :: blanks ∧ AllBlank blanks

theorem spaced_indented (indent : Nat) : Spaced (indented indent) := by
  refine ⟨fun level c hc => ?_, [' '], rfl, by simp [AllBlank, isBlank]⟩
  rcases List.mem_cons.mp hc with rfl | hc
  · rfl
  · rw [(List.mem_replicate.mp hc).2]
    rfl

end Layout

/-! ## Containers -/

/-- Parts that take a step's state from the first to the last. -/
inductive Steps (step : σ → Reader σ) : σ → List (List Char) → σ → Prop where
  | nil {state : σ} : Steps step state [] state
  | cons {state next final : σ} {part : List Char} {parts : List (List Char)}
      (first : Reads (step state) part next) (rest : Steps step next parts final) :
      Steps step state (part :: parts) final

section Series

variable {layout : Layout} (spaced : layout.Spaced) {last : Char} (closes : Closes last)
  {step : σ → Reader σ} {state next final : σ} {parts : List (List Char)}

include spaced closes

theorem items_parts {part : List Char} (first : Reads (step state) part next)
    (more : Steps step next parts final) {bound : List Char} (hbound : parts.length < bound.length)
    {blanks : List Char} (hb : AllBlank blanks) (inner outer : Nat) (rest : List Char) :
    items last step bound state (blanks ++ (part ++
      (parts.flatMap (fun part => ',' :: layout.line inner ++ part) ++
        (layout.line outer ++ last :: rest)))) = .ok (final, rest) := by
  induction more generalizing bound blanks part state with
  | nil =>
      cases bound with
      | nil => simp at hbound
      | cons b bound =>
          have hclose := closes.stops rest
          have hstop := stops_append (spaced.line_blank outer) hclose
          simp only [items, List.flatMap_nil, List.nil_append, first.read hb hstop, ok_bind,
            dropBlanks_append (spaced.line_blank outer), dropBlanks_cons closes.isBlank,
            closes.ne_comma, if_true, if_false]
  | cons second others ih =>
      cases bound with
      | nil => simp at hbound
      | cons b bound =>
          simp only [List.flatMap_cons, List.append_assoc, List.cons_append]
          rw [items, first.read hb (by simp)]
          simp only [ok_bind, dropBlanks_cons (show isBlank ',' = false from rfl), if_true]
          exact ih second (by simpa using hbound) (spaced.line_blank inner)

/-- A container reads as what its parts make of the starting state. -/
theorem series_enclose (steps : Steps step state parts final) (level : Nat) (opening : Char) :
    ∃ inside, layout.enclose level opening last parts = opening :: inside ∧
      ∀ rest, series last step state (inside ++ rest) = .ok (final, rest) := by
  cases steps with
  | nil =>
      refine ⟨[last], rfl, fun rest => ?_⟩
      simp [series, dropBlanks_cons closes.isBlank]
  | @cons _ _ _ part parts first more =>
      refine ⟨layout.line (level + 1) ++ (part ++
        (parts.flatMap (fun part => ',' :: layout.line (level + 1) ++ part) ++
          (layout.line level ++ [last]))), by simp [Layout.enclose], fun rest => ?_⟩
      obtain ⟨c, tail, rfl, hc, hopen⟩ := first.opens
      have hne : c ≠ last := fun e => hopen (e ▸ closes)
      have hline := spaced.line_blank (level + 1)
      unfold series
      simp only [List.append_assoc, List.cons_append, List.nil_append, dropBlanks_append hline,
        dropBlanks_cons hc, hne, if_false]
      refine items_parts spaced closes first more ?_ hline (level + 1) level rest
      have hle := length_le_flatMap
        (f := fun part => ',' :: (layout.line (level + 1) ++ part)) (by simp) parts
      simp only [List.length_append, List.length_cons]
      omega

end Series

theorem Reads.map {reader : Reader α} {text : List Char} {value : α}
    (h : Reads reader text value) (f : α → β) :
    Reads (fun text => do
      let (value, rest) ← reader text
      .ok (f value, rest)) text (f value) where
  opens := h.opens
  read hb hs := by simp [h.read hb hs]

section Members

variable {layout : Layout} (spaced : layout.Spaced)

theorem memberName_stringText {blanks : List Char} (hb : AllBlank blanks) (name : String)
    (rest : List Char) :
    memberName string (blanks ++ (stringText name ++ rest)) = .ok (name, rest) := by
  simp [memberName, dropBlanks_append hb, stringText, isBlank, string_escaped]

include spaced

theorem symbol_colon (rest : List Char) :
    ∃ blanks, AllBlank blanks ∧ symbol ':' (layout.colon ++ rest) = .ok ((), blanks ++ rest) := by
  obtain ⟨blanks, hc, hb⟩ := spaced.colon_blank
  refine ⟨blanks, hb, ?_⟩
  simp [hc, symbol, expect, isBlank]

/-- A member reads as what is read after the colon, by the reader that its name asks for. -/
theorem reads_named {whole reader : Reader α} {name : String}
    (asks : ∀ text rest, memberName string text = .ok (name, rest) →
      whole text = (do
        let (_, rest) ← symbol ':' rest
        reader rest))
    {text : List Char} {value : α} (h : Reads reader text value) :
    Reads whole (memberText layout name text) value where
  opens := ⟨'"', _, rfl, rfl, by simp [Closes]⟩
  read {blanks rest} hb hs := by
    obtain ⟨gap, hgap, hcolon⟩ := symbol_colon spaced (text ++ rest)
    unfold memberText
    rw [List.append_assoc, List.append_assoc, asks _ _ (memberName_stringText hb name _), hcolon]
    simp [h.read hgap hs]

theorem reads_member {reader : Reader α} {text : List Char} {value : α}
    (h : Reads reader text value) (name : String) :
    Reads (member string reader) (memberText layout name text) (name, value) :=
  reads_named spaced (fun _ _ hname => by simp [member, hname]) (h.map (name, ·))

omit spaced in
theorem steps_items {reader : Reader α} {text : α → List Char} {values : List α}
    (reads : ∀ value ∈ values, Reads reader (text value) value) (held : List α) :
    Steps (fun held text => do
      let (item, text) ← reader text
      .ok (item :: held, text)) held (values.map text) (values.reverse ++ held) := by
  induction values generalizing held with
  | nil => exact .nil
  | cons value rest ih =>
      have hrest := ih (fun other hm => reads other (List.mem_cons_of_mem _ hm)) (value :: held)
      simp only [List.map_cons, List.reverse_cons, List.append_assoc, List.cons_append,
        List.nil_append]
      exact .cons ((reads value List.mem_cons_self).map (· :: held)) hrest

theorem array_enclose {reader : Reader α} {text : α → List Char} {values : List α}
    (reads : ∀ value ∈ values, Reads reader (text value) value) (level : Nat) :
    ∃ inside, layout.enclose level '[' ']' (values.map text) = '[' :: inside ∧
      ∀ rest, array reader (inside ++ rest) = .ok (values, rest) := by
  obtain ⟨inside, he, hread⟩ := series_enclose spaced (.inl rfl) (steps_items reads []) level '['
  refine ⟨inside, he, fun rest => ?_⟩
  simp [array, hread]

/-- Members with new names are put after those held. -/
theorem steps_members {reader : Reader Value} {text : Value → List Char} {members : Members}
    (reads : ∀ member ∈ members, Reads reader (text member.2) member.2) (held : Members)
    (names_nodup : (held ++ members).names.Nodup) :
    Steps (fun held text => do
      let ((name, value), text) ← member string reader text
      .ok (Members.set name value held, text)) held
      (members.map fun member => memberText layout member.1 (text member.2)) (held ++ members) := by
  induction members generalizing held with
  | nil => simpa using Steps.nil
  | cons member rest ih =>
      obtain ⟨name, value⟩ := member
      have hfirst := reads_member spaced (reads _ List.mem_cons_self) name
      have hnew : name ∉ held.names := by
        rw [Members.names_append, Members.names_cons, List.nodup_append] at names_nodup
        exact fun hm => names_nodup.2.2 name hm name List.mem_cons_self rfl
      have hset : held.set name value = held ++ [(name, value)] := Members.set_of_not_mem hnew value
      have hstep := hfirst.map fun member => held.set member.1 member.2
      have hrest := ih (fun other hm => reads other (List.mem_cons_of_mem _ hm))
        (held ++ [(name, value)]) (by simpa using names_nodup)
      rw [List.append_assoc, List.singleton_append] at hrest
      exact .cons hstep (hset ▸ hrest)

theorem object_enclose {reader : Reader Value} {text : Value → List Char} {members : Members}
    (reads : ∀ member ∈ members, Reads reader (text member.2) member.2)
    (names_nodup : members.names.Nodup) (level : Nat) :
    ∃ inside, layout.enclose level '\x7b' '\x7d'
        (members.map fun member => memberText layout member.1 (text member.2)) = '\x7b' :: inside ∧
      ∀ rest, object reader (inside ++ rest) = .ok (members, rest) :=
  series_enclose spaced (.inr rfl) (steps_members spaced reads [] names_nodup) level '\x7b'

end Members

end GameCatalog.Json
