import GameCatalog.Proofs.Json.Readable
import GameCatalog.Proofs.Json.Tree

/-!
# Reading written trees

What a reader makes of a written tree, wherever it stands, is a function of the tree alone: a value,
or a refusal. For a container that function goes through the parts as the reader does.
-/

namespace GameCatalog.Json

/-- Wherever the text stands, the reader makes `result` of it; without a result it refuses. -/
def Answers (reader : Reader α) (text : List Char) (result : Option α) : Prop :=
  ∀ blanks rest, AllBlank blanks → Stops rest →
    (reader (blanks ++ (text ++ rest))).toOption = result.map (·, rest)

theorem Reads.answers {reader : Reader α} {text : List Char} {value : α}
    (h : Reads reader text value) : Answers reader text (some value) := by
  intro blanks rest blank stops
  rw [h.read blank stops]
  rfl

theorem Answers.map {reader : Reader α} {text : List Char} {result : Option α}
    (h : Answers reader text result) (f : α → β) :
    Answers (fun text => do
      let (value, rest) ← reader text
      .ok (f value, rest)) text (result.map f) := by
  intro blanks rest blank stops
  rw [toOption_bind, h blanks rest blank stops]
  cases result <;> rfl

/-! ## Containers -/

theorem Following.stops {last : Char} (closes : Closes last) {parts : List (List Char)}
    {text : List Char} (h : Following last parts text) (rest : List Char) :
    Stops (text ++ rest) := by
  cases h with
  | close blank =>
      rw [List.append_assoc]
      exact stops_append blank (closes.stops rest)
  | next blank _ _ =>
      rw [List.append_assoc]
      exact stops_append blank (by simp)

theorem Following.length_lt {last : Char} {parts : List (List Char)} {text : List Char}
    (h : Following last parts text) : parts.length < text.length := by
  induction h with
  | close _ => simp
  | next _ _ _ ih =>
      simp only [List.length_append, List.length_cons]
      omega

section Series

variable {last : Char} (closes : Closes last) {step : σ → Reader σ} {text : ι → List Char}
  {result : σ → ι → Option σ}

include closes

theorem items_following {part : ι} {parts : List ι}
    (answers : ∀ state, ∀ each ∈ part :: parts,
      Answers (step state) (text each) (result state each))
    {chars : List Char} (more : Following last (parts.map text) chars) {bound : List Char}
    (enough : parts.length < bound.length) {blanks : List Char} (blank : AllBlank blanks)
    (state : σ) (rest : List Char) :
    (items last step bound state (blanks ++ (text part ++ (chars ++ rest)))).toOption =
      ((part :: parts).foldlM result state).map (·, rest) := by
  induction parts generalizing part state bound chars blanks with
  | nil =>
      cases bound with
      | nil => cases enough
      | cons b bound =>
          have first := answers state part List.mem_cons_self _ _ blank (more.stops closes rest)
          rw [items, toOption_bind, first, List.foldlM_cons]
          cases result state part with
          | none => rfl
          | some next =>
              cases more with
              | close gap_blank =>
                  simp [dropBlanks_append gap_blank, dropBlanks_cons closes.isBlank,
                    closes.ne_comma]
  | cons second parts ih =>
      cases bound with
      | nil => cases enough
      | cons b bound =>
          have first := answers state part List.mem_cons_self _ _ blank (more.stops closes rest)
          rw [items, toOption_bind, first, List.foldlM_cons]
          cases result state part with
          | none => rfl
          | some next =>
              cases more with
              | @next gap space _ after _ gap_blank space_blank more =>
                  have later := ih
                    (fun state each hm => answers state each (List.mem_cons_of_mem _ hm)) more
                    (Nat.lt_of_succ_lt_succ enough) space_blank next
                  simpa [dropBlanks_append gap_blank, isBlank] using later

/-- A container is read as its parts are, one after another. -/
theorem series_inside {parts : List ι} (opens : ∀ part ∈ parts, Opens (text part))
    (answers : ∀ state, ∀ part ∈ parts, Answers (step state) (text part) (result state part))
    {chars : List Char} (inside : Inside last (parts.map text) chars) (start : σ)
    (rest : List Char) :
    (series last step start (chars ++ rest)).toOption =
      (parts.foldlM result start).map (·, rest) := by
  cases parts with
  | nil =>
      cases inside with
      | empty blank =>
          simp [series, dropBlanks_append blank, dropBlanks_cons closes.isBlank]
  | cons part parts =>
      cases inside with
      | @parts space _ after _ blank more =>
          obtain ⟨c, tail, hc, notBlank, opening⟩ := opens part List.mem_cons_self
          have ne_last : c ≠ last := fun same => opening (same ▸ closes)
          have enough : parts.length < (space ++ (text part ++ (after ++ rest))).length := by
            have fewer := more.length_lt
            simp only [List.length_append, List.length_map] at fewer ⊢
            omega
          have read := items_following closes answers more enough blank start rest
          unfold series
          simp only [List.append_assoc, dropBlanks_append blank]
          simp only [hc, List.cons_append, dropBlanks_cons notBlank, ne_last, if_false] at read ⊢
          exact read

end Series

theorem foldlM_collect (result : ι → Option α) (parts : List ι) (held : List α) :
    parts.foldlM (fun held part => (result part).map (· :: held)) held =
      (parts.mapM result).map (·.reverse ++ held) := by
  induction parts generalizing held with
  | nil => rfl
  | cons part parts ih =>
      rw [List.foldlM_cons, List.mapM_cons]
      cases result part with
      | none => rfl
      | some value =>
          simp only [Option.map_some, Option.bind_eq_bind, Option.bind_some, ih]
          cases parts.mapM result <;> simp

theorem array_inside {reader : Reader α} {text : ι → List Char} {result : ι → Option α}
    {parts : List ι} (opens : ∀ part ∈ parts, Opens (text part))
    (answers : ∀ part ∈ parts, Answers reader (text part) (result part)) {chars : List Char}
    (inside : Inside ']' (parts.map text) chars) (rest : List Char) :
    (array reader (chars ++ rest)).toOption = (parts.mapM result).map (·, rest) := by
  have collected := series_inside (.inl rfl) opens
    (fun held part hm => (answers part hm).map (· :: held)) inside [] rest
  rw [array, toOption_bind, collected, foldlM_collect]
  cases parts.mapM result <;> simp

/-! ## Tokens -/

theorem Numeral.Written.starts {numeral : Numeral} {text : List Char} (h : numeral.Written text) :
    ∃ c rest, text = c :: rest ∧ (c = '-' ∨ c.isDigit = true) := by
  obtain ⟨exponentText, -, rfl⟩ := h.spelled
  obtain ⟨c, rest, whole⟩ := List.exists_cons_of_ne_nil h.whole.ne_nil
  have digit := h.whole.digit c (whole ▸ List.mem_cons_self)
  rw [whole]
  cases numeral.negative with
  | true => exact ⟨_, _, rfl, .inl rfl⟩
  | false => exact ⟨_, _, rfl, .inr digit⟩

theorem Numeral.Written.reads_lead {numeral : Numeral} {n : Number} {text : List Char}
    (h : numeral.Written text) (stands : numeral.value? = some n) : Reads lead text (.num n) :=
  reads_num (by rw [h.number_eq, stands])

theorem Written.opens {depth : Nat} {tree : Tree} {text : List Char} (h : Written depth tree text) :
    Opens text := by
  cases h with
  | null => exact ⟨_, _, rfl, rfl, by simp [Closes]⟩
  | true => exact ⟨_, _, rfl, rfl, by simp [Closes]⟩
  | false => exact ⟨_, _, rfl, rfl, by simp [Closes]⟩
  | @num _ _ _ stands _ written => exact (written.reads_lead stands).opens
  | str written => exact written.reads_lead.opens
  | arr _ _ => exact ⟨_, _, rfl, rfl, by simp [Closes]⟩
  | obj _ _ => exact ⟨_, _, rfl, rfl, by simp [Closes]⟩

/-- What the text of a tree starts with. -/
def Tree.start : Tree → Lead Number String
  | .null => .null
  | .bool b => .bool b
  | .num _ n _ => .num n
  | .str text => .str text
  | .arr _ => .array
  | .obj _ => .object

theorem Written.exists_lead {depth : Nat} {tree : Tree} {text : List Char}
    (h : Written depth tree text) {blanks rest : List Char} (blank : AllBlank blanks)
    (stops : Stops rest) : ∃ left, lead (blanks ++ (text ++ rest)) = .ok (tree.start, left) := by
  cases h with
  | null => exact ⟨rest, reads_null.read blank stops⟩
  | true => exact ⟨rest, reads_true.read blank stops⟩
  | false => exact ⟨rest, reads_false.read blank stops⟩
  | @num _ _ _ stands _ written => exact ⟨rest, (written.reads_lead stands).read blank stops⟩
  | str written => exact ⟨rest, written.reads_lead.read blank stops⟩
  | arr _ _ => exact ⟨_, lead_array blank _⟩
  | obj _ _ => exact ⟨_, lead_object blank _⟩

theorem Written.refuses {depth : Nat} {tree : Tree} {text : List Char} (h : Written depth tree text)
    {after : Lead Number String × List Char → Except Fault (α × List Char)}
    (refuses : ∀ rest, (after (tree.start, rest)).toOption = none) :
    Answers (fun text => lead text >>= after) text none := by
  intro blanks rest blank stops
  obtain ⟨left, starts⟩ := h.exists_lead blank stops
  simp only [starts, ok_bind, refuses, Option.map_none]

/-! ## Members -/

namespace WrittenMember

variable (written : WrittenMember)

theorem opens : Opens written.chars := by
  obtain ⟨inside, -, quoted⟩ := written.quoted_text
  exact ⟨'"', _, by rw [chars, quoted]; rfl, rfl, by simp [Closes]⟩

theorem symbol_colon (rest : List Char) :
    symbol ':' (written.gap ++ ':' :: rest) = .ok ((), rest) := by
  simp [symbol, dropBlanks_append written.gap_blank, isBlank, expect]

/-- A member is read as what is read behind the colon, by the reader that its name asks for. -/
theorem answers_named {whole reader : Reader α}
    (asks : ∀ text rest, memberName string text = .ok (written.name, rest) →
      whole text = (do
        let (_, rest) ← symbol ':' rest
        reader rest))
    {result : Option α} (h : Answers reader written.text result) :
    Answers whole written.chars result := by
  intro blanks rest blank stops
  have name := memberName_written written.quoted_text blank
    (written.gap ++ ':' :: (written.space ++ (written.text ++ rest)))
  unfold chars
  simp only [List.append_assoc, List.cons_append]
  rw [asks _ _ name, symbol_colon, ok_bind]
  exact h _ _ written.space_blank stops

theorem refuses_named {whole : Reader α}
    (refuses : ∀ text rest, memberName string text = .ok (written.name, rest) →
      (whole text).toOption = none) :
    Answers whole written.chars none := by
  intro blanks rest blank _
  have name := memberName_written written.quoted_text blank
    (written.gap ++ ':' :: (written.space ++ (written.text ++ rest)))
  unfold chars
  simp only [List.append_assoc, List.cons_append]
  exact refuses _ _ name

/-- A member that may be given once is refused when its place holds something already. -/
theorem answers_once {whole : Reader β} {reader : Reader α} {held : Option α} {put : α → β}
    (asks : ∀ text rest, memberName string text = .ok (written.name, rest) →
      whole text = if held.isSome then .error (.mismatch (.repeated written.name)) else do
        let (_, rest) ← symbol ':' rest
        let (value, rest) ← reader rest
        .ok (put value, rest))
    {result : Option α} (h : Answers reader written.text result) :
    Answers whole written.chars (if held.isSome then none else result.map put) := by
  split
  next taken =>
    exact written.refuses_named fun _ _ hname => by
      rw [asks _ _ hname, if_pos taken]
      rfl
  next free =>
    exact written.answers_named (fun _ _ hname => by rw [asks _ _ hname, if_neg free]) (h.map put)

end WrittenMember

/-! ## Values -/

theorem mapM_some (f : ι → α) (parts : List ι) :
    parts.mapM (fun part => some (f part)) = some (parts.map f) :=
  List.mapM_pure

theorem foldlM_some (f : σ → ι → σ) (start : σ) (parts : List ι) :
    parts.foldlM (fun state part => some (f state part)) start = some (parts.foldl f start) :=
  List.foldlM_pure

theorem answers_heldMember {reader : Reader Value} {written : WrittenMember}
    (reads : Reads reader written.text written.tree.value) (held : Members) :
    Answers
      (fun text => do
        let ((name, value), text) ← member string reader text
        .ok (held.set name value, text))
      written.chars (some (held.set written.name written.tree.value)) := by
  have whole : Answers (member string reader) written.chars
      (some (written.name, written.tree.value)) :=
    written.answers_named (fun _ _ hname => by simp [member, hname])
      (reads.answers.map (written.name, ·))
  exact whole.map fun member => held.set member.1 member.2

theorem object_inside {reader : Reader Value} {members : List WrittenMember}
    (reads : ∀ member ∈ members, Reads reader member.text member.tree.value) {chars : List Char}
    (inside : Inside '\x7d' (members.map (·.chars)) chars) (rest : List Char) :
    object reader (chars ++ rest) =
      .ok (Members.ofRepeated (members.map fun member => (member.name, member.tree.value)),
        rest) := by
  have folded := series_inside (.inr rfl) (fun written _ => written.opens)
    (fun held _ hm => answers_heldMember (reads _ hm) held) inside [] rest
  rw [foldlM_some] at folded
  rw [object, toOption_eq_some_iff.mp folded, ← Members.foldl_set_eq_ofRepeated, List.foldl_map]

/-- The reader of a depth reads what is written within it as the value of the tree. -/
theorem Written.reads {depth : Nat} {tree : Tree} {text : List Char}
    (h : Written depth tree text) : Reads (value depth) text tree.value := by
  induction h with
  | @null depth =>
      obtain ⟨inner, hv⟩ := value_eq depth
      rw [hv]
      exact reads_null.of_lead fun _ _ h => by simp [valueWith, h, Tree.value]
  | @true depth =>
      obtain ⟨inner, hv⟩ := value_eq depth
      rw [hv]
      exact reads_true.of_lead fun _ _ h => by simp [valueWith, h, Tree.value]
  | @false depth =>
      obtain ⟨inner, hv⟩ := value_eq depth
      rw [hv]
      exact reads_false.of_lead fun _ _ h => by simp [valueWith, h, Tree.value]
  | @num depth numeral n stands text written =>
      obtain ⟨inner, hv⟩ := value_eq depth
      rw [hv]
      exact (written.reads_lead stands).of_lead fun _ _ h => by simp [valueWith, h, Tree.value]
  | @str depth text quoted written =>
      obtain ⟨inner, hv⟩ := value_eq depth
      rw [hv]
      exact written.reads_lead.of_lead fun _ _ h => by simp [valueWith, h, Tree.value]
  | @arr depth items inside parts items_written ih =>
      refine ⟨⟨'[', _, rfl, rfl, by simp [Closes]⟩, fun {blanks rest} blank _ => ?_⟩
      have read := array_inside (fun item hm => (items_written item hm).opens)
        (fun item hm => (ih item hm).answers) parts rest
      rw [mapM_some] at read
      simp [value, valueWith, lead_array blank, toOption_eq_some_iff.mp read, Tree.value,
        Tree.itemValues_eq_map]
  | @obj depth members inside parts trees_written ih =>
      refine ⟨⟨'\x7b', _, rfl, rfl, by simp [Closes]⟩, fun {blanks rest} blank _ => ?_⟩
      simp [value, valueWith, lead_object blank, object_inside ih parts, Tree.value,
        Tree.memberValues_eq_map, WrittenMember.member, Function.comp_def]

end GameCatalog.Json
