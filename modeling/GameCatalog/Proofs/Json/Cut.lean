import GameCatalog.Proofs.Json.PrintedNumbers
import GameCatalog.Proofs.Json.Readable

/-!
# Texts cut short

A proper prefix of a written value leaves its reader at the end of the text: the reader wants more
or, where a number was cut, takes a shorter number and all that is left. Inside a container the
second is no way out, since a comma or the closing bracket is still to come.
-/

namespace GameCatalog.Json

structure Cut (part text : List Char) : Prop where
  begins : part <+: text
  ne : part ≠ text

namespace Cut

variable {part text front rest : List Char} {c : Char}

theorem nil (h : text ≠ []) : Cut [] text := ⟨List.nil_prefix, h.symm⟩

theorem not_nil : ¬Cut part [] := fun h => h.ne (List.prefix_nil.mp h.begins)

theorem append_cases (h : Cut part (front ++ rest)) :
    Cut part front ∨ ∃ more, Cut more rest ∧ part = front ++ more := by
  rcases prefix_append_cases h.begins with ⟨begins, ne⟩ | ⟨more, begins, rfl⟩
  · exact .inl ⟨begins, ne⟩
  · exact .inr ⟨more, ⟨begins, fun same => h.ne (by rw [same])⟩, rfl⟩

theorem cons_cases (h : Cut part (c :: rest)) :
    part = [] ∨ ∃ more, Cut more rest ∧ part = c :: more := by
  rcases List.prefix_cons_iff.mp h.begins with empty | ⟨more, rfl, begins⟩
  · exact .inl empty
  · exact .inr ⟨more, ⟨begins, fun same => h.ne (by rw [same])⟩, rfl⟩

theorem eq_nil (h : Cut part [c]) : part = [] := eq_nil_of_prefix_singleton h.begins h.ne

theorem after_blanks {gap : List Char} (blank : AllBlank gap) (nonempty : text ≠ [])
    (h : Cut part (gap ++ text)) :
    ∃ blanks more, AllBlank blanks ∧ Cut more text ∧ part = blanks ++ more := by
  rcases h.append_cases with hgap | ⟨more, hmore, rfl⟩
  · exact ⟨part, [], fun c hc => blank c (hgap.begins.mem hc), nil nonempty, by simp⟩
  · exact ⟨gap, more, blank, hmore, rfl⟩

end Cut

/-! ## Results at the end of a text -/

/-- The reader wants more text, or has taken all there was. -/
def Unfinished (result : Except Fault (α × List Char)) : Prop :=
  result = .error .truncated ∨ ∃ value, result = .ok (value, [])

theorem Unfinished.truncated {result : Except Fault (α × List Char)} (h : Unfinished result)
    {f : α × List Char → Except Fault β} (needs : ∀ value, f (value, []) = .error .truncated) :
    (result >>= f) = .error .truncated := by
  rcases h with rfl | ⟨value, rfl⟩
  · rfl
  · exact needs value

theorem Unfinished.map {result : Except Fault (α × List Char)} (h : Unfinished result) (f : α → β) :
    Unfinished (do
      let (value, rest) ← result
      .ok (f value, rest)) := by
  rcases h with rfl | ⟨value, rfl⟩
  · exact .inl rfl
  · exact .inr ⟨f value, rfl⟩

/-- A cut anywhere in the text leaves the reader unfinished. -/
def Breaks (reader : Reader α) (text : List Char) : Prop :=
  ∀ blanks part, AllBlank blanks → Cut part text → Unfinished (reader (blanks ++ part))

theorem Breaks.map {reader : Reader α} {text : List Char} (h : Breaks reader text) (f : α → β) :
    Breaks (fun text => do
      let (value, rest) ← reader text
      .ok (f value, rest)) text :=
  fun _ _ blank hcut => (h _ _ blank hcut).map f

/-- A cut anywhere in the text leaves the reader wanting more. -/
def Truncates (reader : Reader α) (text : List Char) : Prop :=
  ∀ blanks part, AllBlank blanks → Cut part text →
    reader (blanks ++ part) = .error .truncated

theorem Truncates.breaks {reader : Reader α} {text : List Char} (h : Truncates reader text) :
    Breaks reader text :=
  fun _ _ blank hcut => .inl (h _ _ blank hcut)

/-- As a whole the text is read as some value, and cut short it leaves the reader unfinished. -/
structure Whole (reader : Reader α) (text : List Char) : Prop where
  reads : ∃ value, Reads reader text value
  breaks : Breaks reader text

theorem Whole.ne_nil {reader : Reader α} {text : List Char} (h : Whole reader text) : text ≠ [] := by
  obtain ⟨value, reads⟩ := h.reads
  exact reads.ne_nil

theorem Whole.map {reader : Reader α} {text : List Char} (h : Whole reader text) (f : α → β) :
    Whole (fun text => do
      let (value, rest) ← reader text
      .ok (f value, rest)) text := by
  obtain ⟨value, reads⟩ := h.reads
  exact ⟨⟨f value, reads.map f⟩, h.breaks.map f⟩

/-! ## Tokens -/

theorem lead_blanks {blanks : List Char} (h : AllBlank blanks) (text : List Char) :
    lead (blanks ++ text) = lead text := by
  rw [lead, leadWith, leadWith, dropBlanks_append h]

theorem lead_nothing {blanks : List Char} (h : AllBlank blanks) :
    lead (blanks ++ []) = .error .truncated := by
  rw [lead_blanks h]
  rfl

theorem expect_cut {part word : List Char} (h : Cut part word) :
    expect word part = .error .truncated := by
  induction word generalizing part with
  | nil => exact absurd h Cut.not_nil
  | cons c word ih =>
      rcases h.cons_cases with rfl | ⟨more, hmore, rfl⟩
      · rfl
      · rw [expect, if_pos rfl, ih hmore]

theorem truncates_null : Truncates lead ['n', 'u', 'l', 'l'] := by
  intro blanks part blank h
  rw [lead_blanks blank]
  rcases h.cons_cases with rfl | ⟨more, hmore, rfl⟩
  · rfl
  · simp [lead, leadWith, isBlank, expect_cut hmore]

theorem truncates_true : Truncates lead ['t', 'r', 'u', 'e'] := by
  intro blanks part blank h
  rw [lead_blanks blank]
  rcases h.cons_cases with rfl | ⟨more, hmore, rfl⟩
  · rfl
  · simp [lead, leadWith, isBlank, expect_cut hmore]

theorem truncates_false : Truncates lead ['f', 'a', 'l', 's', 'e'] := by
  intro blanks part blank h
  rw [lead_blanks blank]
  rcases h.cons_cases with rfl | ⟨more, hmore, rfl⟩
  · rfl
  · simp [lead, leadWith, isBlank, expect_cut hmore]

theorem fourHexDigits_cut {code : Nat} (h : code < 0x20) {part : List Char}
    (hcut : Cut part ['0', '0', (code / 16).digitChar, (code % 16).digitChar]) :
    fourHexDigits part = .error .truncated := by
  have three : byteCount ['0', '0', (code / 16).digitChar] = 3 := by
    simp only [byteCount, utf8Size_digitChar (d := code / 16) (by omega)]
    rfl
  have few : byteCount (part.take 4) < 4 := by
    rcases hcut.cons_cases with rfl | ⟨afterFirst, hfirst, rfl⟩
    · decide
    rcases hfirst.cons_cases with rfl | ⟨afterSecond, hsecond, rfl⟩
    · decide
    rcases hsecond.cons_cases with rfl | ⟨afterThird, hthird, rfl⟩
    · decide
    · rw [hthird.eq_nil]
      exact three.trans_lt (by decide)
  unfold fourHexDigits
  rw [if_pos few]

theorem stringChars_escapedChar_cut {c : Char} {part : List Char} (h : Cut part (escapedChar c))
    (bound held : List Char) :
    stringChars unicodeEscape bound held part = .error .truncated := by
  cases part with
  | nil => cases bound <;> rfl
  | cons first rest =>
      cases bound with
      | nil => rfl
      | cons b bound =>
          rcases escapedChar_cases c with ⟨letter, -, -, he⟩ | ⟨hc, he⟩ | ⟨-, -, -, he⟩
          · rw [he] at h
            obtain ⟨_, hletter, same⟩ := h.cons_cases.resolve_left (by simp)
            simp only [List.cons.injEq] at same
            rw [same.1, same.2, hletter.eq_nil]
            rfl
          · rw [he, hexEscape_of_lt hc] at h
            obtain ⟨_, hu, same⟩ := h.cons_cases.resolve_left (by simp)
            simp only [List.cons.injEq] at same
            rw [same.1, same.2]
            rcases hu.cons_cases with rfl | ⟨hex, hhex, rfl⟩
            · rfl
            · simp [stringChars, escape, unicodeEscape, fourHexDigits_cut hc hhex]
          · rw [he] at h
            exact absurd h.eq_nil (by simp)

theorem stringChars_cut {text part : List Char} (h : Cut part (text.flatMap escapedChar ++ ['"']))
    (bound held : List Char) :
    stringChars unicodeEscape bound held part = .error .truncated := by
  induction text generalizing bound held part with
  | nil =>
      rw [h.eq_nil]
      cases bound <;> rfl
  | cons c text ih =>
      rw [List.flatMap_cons, List.append_assoc] at h
      rcases h.append_cases with hchar | ⟨more, hmore, rfl⟩
      · exact stringChars_escapedChar_cut hchar bound held
      · cases bound with
        | nil =>
            obtain ⟨first, rest, he⟩ := List.exists_cons_of_ne_nil (escapedChar_ne_nil c)
            rw [he]
            rfl
        | cons b bound => rw [stringChars_escapedChar, ih hmore]

theorem string_cut {text : String} {part : List Char}
    (h : Cut part (text.toList.flatMap escapedChar ++ ['"'])) :
    string part = .error .truncated := by
  rw [string, stringChars_cut h, error_bind]

theorem truncates_str (text : String) : Truncates lead (stringText text) := by
  intro blanks part blank h
  rw [lead_blanks blank]
  rcases h.cons_cases with rfl | ⟨more, hmore, rfl⟩
  · rfl
  · simp [lead, leadWith, isBlank, string_cut hmore]

theorem lead_of_starts {c : Char} (starts : c = '-' ∨ c.isDigit) (rest : List Char) :
    lead (c :: rest) = (do
      let (n, rest) ← number (c :: rest)
      .ok (.num n, rest)) := by
  obtain ⟨hblank, -, hq, ha, ho, hn, ht, hf⟩ := startsNumber starts
  have hnot : isBlank c = false := by simpa [isBlank] using hblank
  simp [lead, leadWith, hnot, hq, ha, ho, hn, ht, hf, starts]

/-- What is left of a number is incomplete or a number again. -/
theorem lead_num_cut (n : Number) {blanks part : List Char} (blank : AllBlank blanks)
    (h : Cut part n.text) :
    lead (blanks ++ part) = .error .truncated ∨ ∃ m, lead (blanks ++ part) = .ok (.num m, []) := by
  rw [lead_blanks blank]
  cases part with
  | nil => exact .inl rfl
  | cons c rest =>
      obtain ⟨whole, reads⟩ := exists_number_text n
      obtain ⟨first, tail, same, starts⟩ := starts_of_number reads
      have begins := h.begins
      rw [same, List.cons_prefix_cons] at begins
      obtain ⟨rfl, -⟩ := begins
      rw [lead_of_starts starts]
      rcases number_cut n h.begins h.ne with incomplete | ⟨m, hm⟩
      · exact .inl (by rw [incomplete, error_bind])
      · exact .inr ⟨m, by rw [hm, ok_bind]⟩

/-- The digits that a cut leaves of a natural number are those of one that is no greater. -/
theorem number_digits_cut {n : Nat} (inRange : InWideRange n) {part : List Char}
    (h : Cut part (intText n)) (nonempty : part ≠ []) :
    ∃ (m : Nat) (small : InWideRange m), m ≤ n ∧ number part = .ok (.int m small, []) := by
  have text_eq : intText n = Nat.toDigits 10 n := by simp [intText]
  rw [text_eq] at h
  have run := (digitRun_toDigits n).of_begins h.begins nonempty
  have no_zero : part.head? ≠ some '0' := by
    intro zero
    have alone := zero_alone_toDigits n (head_mem_of_begins h.begins zero)
    rw [alone] at h
    exact nonempty h.eq_nil
  have written : Numeral.Written ⟨false, part, none, none⟩ part :=
    ⟨run, fun zero => absurd zero no_zero, by simp, by simp, [], .none,
      by simp [Numeral.signText, Numeral.fractionText]⟩
  have le : Numeral.natural part ≤ n := by
    obtain ⟨rest, hrest⟩ := h.begins
    have full := Numeral.natural_toDigits n
    rw [← hrest, Numeral.natural_append] at full
    exact full ▸ (Nat.le_mul_of_pos_left _ (by positivity)).trans (Nat.le_add_right _ _)
  have small : InWideRange (Numeral.natural part) := by
    unfold InWideRange at inRange ⊢
    omega
  exact ⟨Numeral.natural part, small, le, by rw [written.number_eq, Numeral.value?_plain small]⟩

/-! ## Containers -/

/-- Parts that take a step's state from one to the next and break in the state they meet. -/
inductive Breakable (step : σ → Reader σ) : σ → List (List Char) → Prop where
  | nil {state : σ} : Breakable step state []
  | cons {state next : σ} {part : List Char} {parts : List (List Char)}
      (first : Reads (step state) part next) (breaks : Breaks (step state) part)
      (rest : Breakable step next parts) : Breakable step state (part :: parts)

theorem Breakable.exists_steps {step : σ → Reader σ} {state : σ} {parts : List (List Char)}
    (h : Breakable step state parts) : ∃ final, Steps step state parts final := by
  induction h with
  | nil => exact ⟨_, .nil⟩
  | cons first _ _ ih =>
      obtain ⟨final, steps⟩ := ih
      exact ⟨final, .cons first steps⟩

theorem breakable_of_whole {step : σ → Reader σ} {parts : List (List Char)}
    (whole : ∀ state, ∀ part ∈ parts, Whole (step state) part) (state : σ) :
    Breakable step state parts := by
  induction parts generalizing state with
  | nil => exact .nil
  | cons part rest ih =>
      obtain ⟨next, first⟩ := (whole state part List.mem_cons_self).reads
      exact .cons first (whole state part List.mem_cons_self).breaks
        (ih (fun state part hm => whole state part (List.mem_cons_of_mem _ hm)) next)

section Series

variable {layout : Layout} (spaced : layout.Spaced) {last : Char} {step : σ → Reader σ}
  {state : σ} {parts : List (List Char)}

include spaced

/-- Behind the cut the closing bracket is missing at least. -/
theorem items_cut {next : σ} {part : List Char} (first : Reads (step state) part next)
    (breaks : Breaks (step state) part) (more : Breakable step next parts) (bound : List Char)
    {blanks rest : List Char} (blank : AllBlank blanks) (inner outer : Nat)
    (h : Cut rest (part ++ (parts.flatMap (fun part => ',' :: layout.line inner ++ part) ++
      (layout.line outer ++ [last])))) :
    items last step bound state (blanks ++ rest) = .error .truncated := by
  induction bound generalizing state next part parts blanks rest with
  | nil => rfl
  | cons b bound ih =>
      rcases h.append_cases with hpart | ⟨after, hafter, rfl⟩
      · rw [items, (breaks _ _ blank hpart).truncated fun _ => rfl]
      · cases more with
        | nil =>
            obtain ⟨gap, empty, gap_blank, hempty, rfl⟩ :=
              Cut.after_blanks (spaced.line_blank outer) (by simp) hafter
            rw [hempty.eq_nil, List.append_nil, items, first.read blank (stops_blank gap_blank),
              ok_bind]
            simp only [dropBlanks_blank gap_blank]
        | @cons _ _ second others reads_second breaks_second others_break =>
            simp only [List.flatMap_cons, List.append_assoc, List.cons_append] at hafter
            rcases hafter.cons_cases with rfl | ⟨beyond, hbeyond, rfl⟩
            · rw [items, first.read blank stops_nil]
              rfl
            · obtain ⟨gap, left, gap_blank, hleft, rfl⟩ :=
                Cut.after_blanks (spaced.line_blank inner) (by simp [reads_second.ne_nil]) hbeyond
              rw [items, first.read blank (by simp)]
              simp only [ok_bind, dropBlanks_cons (show isBlank ',' = false from rfl), if_true]
              exact ih reads_second breaks_second others_break gap_blank hleft

theorem series_cut (closes : Closes last) (breakable : Breakable step state parts) {level : Nat}
    {opening : Char} {part : List Char}
    (h : Cut (opening :: part) (layout.enclose level opening last parts)) :
    series last step state part = .error .truncated := by
  cases breakable with
  | nil =>
      obtain ⟨inside, hinside, same⟩ := h.cons_cases.resolve_left (by simp)
      simp only [List.cons.injEq] at same
      rw [same.2, hinside.eq_nil]
      rfl
  | @cons _ next first parts reads breaks rest =>
      simp only [Layout.enclose, List.append_assoc, List.cons_append] at h
      obtain ⟨inside, hinside, same⟩ := h.cons_cases.resolve_left (by simp)
      simp only [List.cons.injEq] at same
      obtain ⟨gap, left, gap_blank, hleft, rfl⟩ :=
        Cut.after_blanks (spaced.line_blank (level + 1)) (by simp [reads.ne_nil]) hinside
      rw [same.2]
      cases left with
      | nil => rw [series, List.append_nil, dropBlanks_blank gap_blank]
      | cons c tail =>
          obtain ⟨d, others, rfl, hd, hopen⟩ := reads.opens
          have head : c = d := by
            have begins := hleft.begins
            rw [List.cons_append, List.cons_prefix_cons] at begins
            exact begins.1
          have ne_last : c ≠ last := fun e => hopen (head ▸ e ▸ closes)
          unfold series
          simp only [dropBlanks_append gap_blank, dropBlanks_cons (head ▸ hd), ne_last, if_false]
          exact items_cut spaced reads breaks rest _ gap_blank (level + 1) level hleft

/-- A container is cut before its opening bracket or behind it. -/
theorem truncates_enclose (closes : Closes last) (breakable : Breakable step state parts)
    {opening : Char} {start : Lead Number String}
    (opens : ∀ {blanks}, AllBlank blanks → ∀ rest,
      lead (blanks ++ opening :: rest) = .ok (start, rest))
    {after : Lead Number String × List Char → Except Fault (α × List Char)}
    (enters : ∀ inside, series last step state inside = .error .truncated →
      after (start, inside) = .error .truncated) (level : Nat) :
    Truncates (fun text => lead text >>= after) (layout.enclose level opening last parts) := by
  intro blanks part blank h
  cases part with
  | nil => simp only [lead_nothing blank, error_bind]
  | cons c rest =>
      have head : c = opening := by
        cases parts <;> exact (List.cons_prefix_cons.mp h.begins).1
      rw [head] at h ⊢
      simp only [opens blank, ok_bind]
      exact enters rest (series_cut spaced closes breakable h)

/-- A container is whole when its parts are, whatever state they meet. -/
theorem whole_enclose (closes : Closes last)
    (whole : ∀ state, ∀ part ∈ parts, Whole (step state) part) (state : σ) {opening : Char}
    (opens_inside : isBlank opening = false ∧ ¬Closes opening) {start : Lead Number String}
    (opens : ∀ {blanks}, AllBlank blanks → ∀ rest,
      lead (blanks ++ opening :: rest) = .ok (start, rest))
    {after : Lead Number String × List Char → Except Fault (α × List Char)} (finish : σ → α)
    (enters : ∀ inside, after (start, inside) = (do
      let (final, rest) ← series last step state inside
      .ok (finish final, rest))) (level : Nat) :
    Whole (fun text => lead text >>= after) (layout.enclose level opening last parts) := by
  have breakable := breakable_of_whole whole state
  obtain ⟨final, steps⟩ := breakable.exists_steps
  obtain ⟨inside, text_eq, read⟩ := series_enclose spaced closes steps level opening
  refine ⟨⟨finish final, text_eq ▸ ⟨_, _, rfl, opens_inside⟩, fun blank _ => ?_⟩,
    (truncates_enclose spaced closes breakable opens (fun inside cut => ?_) level).breaks⟩
  · rw [text_eq, List.cons_append]
    simp only [opens blank, ok_bind, enters, read]
  · rw [enters, cut, error_bind]

end Series

section Members

variable {layout : Layout} (spaced : layout.Spaced)

theorem memberName_cut {name : String} {blanks part : List Char} (blank : AllBlank blanks)
    (h : Cut part (stringText name)) : memberName string (blanks ++ part) = .error .truncated := by
  unfold memberName
  rw [dropBlanks_append blank]
  rcases h.cons_cases with rfl | ⟨more, hmore, rfl⟩
  · rfl
  · simp [isBlank, string_cut hmore]

include spaced

/-- A member is cut in its name, before or behind the colon, or in its value. -/
theorem breaks_named {after : String × List Char → Except Fault (α × List Char)}
    {reader : Reader α} {name : String}
    (asks : ∀ rest, after (name, rest) = (do
      let (_, rest) ← symbol ':' rest
      reader rest))
    {text : List Char} (nonempty : text ≠ []) (h : Breaks reader text) :
    Breaks (fun text => memberName string text >>= after) (memberText layout name text) := by
  intro blanks part blank hcut
  obtain ⟨gap, colon_eq, gap_blank⟩ := spaced.colon_blank
  rw [memberText, colon_eq, List.append_assoc] at hcut
  rcases hcut.append_cases with hname | ⟨afterName, hafter, rfl⟩
  · left
    simp only [memberName_cut blank hname, error_bind]
  simp only [memberName_stringText blank, ok_bind, asks]
  rcases hafter.cons_cases with rfl | ⟨afterColon, hcolon, rfl⟩
  · exact .inl rfl
  obtain ⟨space, left, space_blank, hleft, rfl⟩ := Cut.after_blanks gap_blank nonempty hcolon
  have colon : symbol ':' (':' :: (space ++ left)) = .ok ((), space ++ left) := by
    simp [symbol, isBlank, expect]
  rw [colon]
  exact h _ _ space_blank hleft

theorem whole_named {whole reader : Reader α}
    {after : String × List Char → Except Fault (α × List Char)} {name : String}
    (whole_eq : whole = fun text => memberName string text >>= after)
    (asks : ∀ rest, after (name, rest) = (do
      let (_, rest) ← symbol ':' rest
      reader rest))
    {text : List Char} (h : Whole reader text) : Whole whole (memberText layout name text) := by
  subst whole_eq
  obtain ⟨value, reads⟩ := h.reads
  refine ⟨⟨value, reads_named spaced (fun text rest named => ?_) reads⟩,
    breaks_named spaced asks h.ne_nil h.breaks⟩
  simp only [named, ok_bind, asks]

theorem whole_member {reader : Reader α} {text : List Char} (h : Whole reader text)
    (name : String) : Whole (member string reader) (memberText layout name text) :=
  whole_named spaced rfl (fun _ => rfl) (h.map (name, ·))

theorem whole_members {reader : Reader Value} {text : Value → List Char} {members : Members}
    (whole : ∀ member ∈ members, Whole reader (text member.2)) (held : Members) :
    ∀ part ∈ members.map fun member => memberText layout member.1 (text member.2),
      Whole (fun text => do
        let ((name, value), text) ← member string reader text
        .ok (Members.set name value held, text)) part := by
  rintro _ hpart
  obtain ⟨member, hm, rfl⟩ := List.mem_map.mp hpart
  exact (whole_member spaced (whole member hm) member.1).map fun member =>
    held.set member.1 member.2

theorem whole_object {reader : Reader Value} {text : Value → List Char} {members : Members}
    (whole : ∀ member ∈ members, Whole reader (text member.2))
    {after : Lead Number String × List Char → Except Fault (α × List Char)}
    (finish : Members → α)
    (enters : ∀ inside, after (.object, inside) = (do
      let (members, rest) ← object reader inside
      .ok (finish members, rest))) (level : Nat) :
    Whole (fun text => lead text >>= after) (layout.enclose level '\x7b' '\x7d'
      (members.map fun member => memberText layout member.1 (text member.2))) :=
  whole_enclose spaced (.inr rfl) (whole_members spaced whole) [] ⟨rfl, by simp [Closes]⟩ lead_object
    finish enters level

omit spaced in
theorem whole_items {reader : Reader α} {text : β → List Char} {values : List β}
    (whole : ∀ value ∈ values, Whole reader (text value)) (held : List α) :
    ∀ part ∈ values.map text, Whole (fun text => do
      let (item, text) ← reader text
      .ok (item :: held, text)) part := by
  rintro _ hpart
  obtain ⟨value, hm, rfl⟩ := List.mem_map.mp hpart
  exact (whole value hm).map (· :: held)

theorem whole_array {reader : Reader α} {text : β → List Char} {values : List β}
    (whole : ∀ value ∈ values, Whole reader (text value))
    {after : Lead Number String × List Char → Except Fault (γ × List Char)}
    (finish : List α → γ)
    (enters : ∀ inside, after (.array, inside) = (do
      let (items, rest) ← array reader inside
      .ok (finish items, rest))) (level : Nat) :
    Whole (fun text => lead text >>= after)
      (layout.enclose level '[' ']' (values.map text)) := by
  refine whole_enclose spaced (.inl rfl) (whole_items whole) [] ⟨rfl, by simp [Closes]⟩ lead_array
    (fun held => finish held.reverse) (fun inside => ?_) level
  rw [enters, array]
  cases series ']' _ [] inside <;> rfl

end Members

/-! ## Values -/

theorem whole_of_lead {inner : Option (Reader Value)} {start : Lead Number String}
    {text : List Char} (v : Value) (reads : Reads lead text start) (truncates : Truncates lead text)
    (made : ∀ text rest, lead text = .ok (start, rest) → valueWith inner text = .ok (v, rest)) :
    Whole (valueWith inner) text := by
  refine ⟨⟨v, reads.of_lead made⟩, fun blanks part blank hcut => .inl ?_⟩
  rw [valueWith, truncates _ _ blank hcut, error_bind]

theorem whole_num (inner : Option (Reader Value)) (n : Number) : Whole (valueWith inner) n.text := by
  obtain ⟨m, read⟩ := exists_number_text n
  refine ⟨⟨.num m, (reads_num read).of_lead fun _ _ h => by simp [valueWith, h]⟩, ?_⟩
  intro blanks part blank hcut
  rcases lead_num_cut n blank hcut with incomplete | ⟨left, taken⟩
  · exact .inl (by rw [valueWith, incomplete, error_bind])
  · exact .inr ⟨.num left, by simp [valueWith, taken]⟩

/-- The text of a readable value is whole, though doubles in it may be read as others. -/
theorem whole_value {layout : Layout} (spaced : layout.Spaced) {depth : Nat} {v : Value}
    (readable : v.Readable depth) (level : Nat) : Whole (value depth) (v.text layout level) := by
  induction readable generalizing level with
  | null depth =>
      obtain ⟨inner, hv⟩ := value_eq depth
      rw [hv, Value.text]
      exact whole_of_lead .null reads_null truncates_null fun _ _ h => by simp [valueWith, h]
  | bool depth b =>
      obtain ⟨inner, hv⟩ := value_eq depth
      rw [hv]
      cases b with
      | true =>
          exact whole_of_lead (.bool true) reads_true truncates_true fun _ _ h => by
            simp [valueWith, h]
      | false =>
          exact whole_of_lead (.bool false) reads_false truncates_false fun _ _ h => by
            simp [valueWith, h]
  | num depth n =>
      obtain ⟨inner, hv⟩ := value_eq depth
      rw [hv, Value.text]
      exact whole_num inner n
  | str depth text =>
      obtain ⟨inner, hv⟩ := value_eq depth
      rw [hv, Value.text]
      exact whole_of_lead (.str text) (reads_str text) (truncates_str text) fun _ _ h => by
        simp [valueWith, h]
  | @arr depth items _ ih =>
      rw [Value.text, itemTexts_eq_map]
      exact whole_array spaced (fun item hm => ih item hm (level + 1)) Value.arr (fun _ => rfl) level
  | @obj depth members _ _ ih =>
      rw [Value.text, memberTexts_eq_map]
      exact whole_object spaced (fun member hm => ih member hm (level + 1)) Value.obj
        (fun _ => rfl) level

end GameCatalog.Json
