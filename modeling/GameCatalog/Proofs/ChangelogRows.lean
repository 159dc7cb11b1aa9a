import GameCatalog.Changelog
import Mathlib.Data.List.Basic

/-!
# Reading a changelog back

Where no label and no description holds a line feed, the rows of a changelog are its lines, and the
first characters of a row tell what it is: a heading starts with a star, the label of a game with a
dash and a change with a space. So the text determines the two stamps, the labels under each
heading, and the changes under each label; the end of its line tells the kind of a change.
-/

namespace GameCatalog

/-- Two lists that each come apart into items of a class and a rest that starts with none come apart
at the same place. -/
theorem append_inj_of_head {P : α → Prop} {items items' rest rest' : List α}
    (all : ∀ item ∈ items, P item) (all' : ∀ item ∈ items', P item)
    (stops : ∀ item ∈ rest.head?, ¬P item) (stops' : ∀ item ∈ rest'.head?, ¬P item)
    (h : items ++ rest = items' ++ rest') : items = items' ∧ rest = rest' := by
  induction items generalizing items' with
  | nil =>
      cases items' with
      | nil => exact ⟨rfl, h⟩
      | cons item' others' =>
          rw [List.nil_append] at h
          subst h
          exact absurd (all' item' List.mem_cons_self) (stops item' rfl)
  | cons item others ih =>
      cases items' with
      | nil =>
          rw [List.nil_append] at h
          subst h
          exact absurd (all item List.mem_cons_self) (stops' item rfl)
      | cons item' others' =>
          rw [List.cons_append, List.cons_append, List.cons.injEq] at h
          obtain ⟨others_eq, rest_eq⟩ := ih (fun other hm => all other (List.mem_cons_of_mem _ hm))
            (fun other hm => all' other (List.mem_cons_of_mem _ hm)) h.2
          exact ⟨by rw [h.1, others_eq], rest_eq⟩

theorem map_eq_of_map_eq {f : α → β} {g : α → γ} (tells : ∀ {a b}, f a = f b → g a = g b)
    {items others : List α} (h : items.map f = others.map f) : items.map g = others.map g := by
  induction items generalizing others with
  | nil =>
      rw [List.map_nil, eq_comm, List.map_eq_nil_iff] at h
      rw [h]
  | cons item rest ih =>
      cases others with
      | nil => cases h
      | cons other rest' =>
          rw [List.map_cons, List.map_cons, List.cons.injEq] at h
          rw [List.map_cons, List.map_cons, tells h.1, ih h.2]

/-! ## Stamps -/

namespace Version

theorem toDigits_inj {m n : Nat} (h : Nat.toDigits 10 m = Nat.toDigits 10 n) : m = n := by
  rw [← Nat.ofDigitChars_ten_toDigits (n := m), ← Nat.ofDigitChars_ten_toDigits (n := n), h]

theorem ne_point_of_mem_toDigits {n : Nat} {c : Char} (h : c ∈ Nat.toDigits 10 n) : c ≠ '.' := by
  have digit := Nat.isDigit_of_mem_toDigits (by decide) (by decide) h
  rintro rfl
  revert digit
  decide

theorem toList_toString (version : Version) :
    (toString version).toList = Nat.toDigits 10 version.year.toNat ++
      '.' :: (Nat.toDigits 10 version.major.toNat ++
        '.' :: Nat.toDigits 10 version.minor.toNat) := by
  have part (n : UInt32) : (toString n).toList = Nat.toDigits 10 n.toNat := by
    show (toString n.toNat).toList = _
    simp
  show (toString version.year ++ "." ++ toString version.major ++ "." ++
    toString version.minor).toList = _
  simp only [String.toList_append, part]
  simp

theorem isDigit_or_point {version : Version} {c : Char} (h : c ∈ (toString version).toList) :
    c.isDigit = true ∨ c = '.' := by
  have digit {n : Nat} (hm : c ∈ Nat.toDigits 10 n) : c.isDigit = true :=
    Nat.isDigit_of_mem_toDigits (by decide) (by decide) hm
  rw [toList_toString] at h
  simp only [List.mem_append, List.mem_cons] at h
  rcases h with h | h | h | h | h
  · exact .inl (digit h)
  · exact .inr h
  · exact .inl (digit h)
  · exact .inr h
  · exact .inl (digit h)

theorem space_not_mem (version : Version) : ' ' ∉ (toString version).toList := by
  intro hm
  have neither := isDigit_or_point hm
  revert neither
  decide

theorem newline_not_mem (version : Version) : '\n' ∉ (toString version).toList := by
  intro hm
  have neither := isDigit_or_point hm
  revert neither
  decide

theorem toString_inj {version other : Version} (h : toString version = toString other) :
    version = other := by
  have parts := congrArg String.toList h
  rw [toList_toString, toList_toString] at parts
  have dotless (n : Nat) : ∀ c ∈ Nat.toDigits 10 n, c ≠ '.' := fun _ => ne_point_of_mem_toDigits
  have dot {rest : List Char} : ∀ c ∈ ('.' :: rest).head?, ¬c ≠ '.' := by simp
  obtain ⟨year, parts⟩ := append_inj_of_head (dotless _) (dotless _) dot dot parts
  obtain ⟨major, parts⟩ := append_inj_of_head (dotless _) (dotless _) dot dot
    (List.cons.inj parts).2
  have minor := (List.cons.inj parts).2
  cases version
  cases other
  simp only [Version.mk.injEq]
  exact ⟨UInt32.toNat_inj.mp (toDigits_inj year), UInt32.toNat_inj.mp (toDigits_inj major),
    UInt32.toNat_inj.mp (toDigits_inj minor)⟩

end Version

/-! ## Changes -/

namespace Change

inductive Kind where
  | added
  | removed
  | changed
  | renamed
deriving DecidableEq

def kind : Change → Kind
  | .added _ => .added
  | .removed _ => .removed
  | .changed _ => .changed
  | .renamed _ _ => .renamed

namespace Kind

def ending : Kind → List Char
  | .added => ['A', 'd', 'd', 'e', 'd']
  | .removed => ['R', 'e', 'm', 'o', 'v', 'e', 'd']
  | .changed => ['U', 'p', 'd', 'a', 't', 'e', 'd']
  | .renamed => ['\'']

theorem eq_of_ending {kind other : Kind} {front front' : List Char}
    (h : front ++ kind.ending = front' ++ other.ending) : kind = other := by
  have backwards := congrArg List.reverse h
  simp only [List.reverse_append] at backwards
  cases kind <;> cases other <;> simp_all [ending]

end Kind

theorem exists_front (change : Change) :
    ∃ front, change.describe.toList = front ++ change.kind.ending := by
  cases change with
  | added field =>
      refine ⟨('-' :: ' ' :: (Text.capitalize field).toList) ++ [' '], ?_⟩
      show ("- " ++ Text.capitalize field ++ " Added").toList = _
      simp [kind, Kind.ending]
  | removed field =>
      refine ⟨('-' :: ' ' :: (Text.capitalize field).toList) ++ [' '], ?_⟩
      show ("- " ++ Text.capitalize field ++ " Removed").toList = _
      simp [kind, Kind.ending]
  | changed field =>
      refine ⟨('-' :: ' ' :: (Text.capitalize field).toList) ++ [' '], ?_⟩
      show ("- " ++ Text.capitalize field ++ " Updated").toList = _
      simp [kind, Kind.ending]
  | renamed old new =>
      refine ⟨("- Renamed from '" ++ old ++ "' to '" ++ new).toList, ?_⟩
      show ("- Renamed from '" ++ old ++ "' to '" ++ new ++ "'").toList = _
      simp [kind, Kind.ending]

theorem kind_eq_of_describe {change other : Change} (h : change.describe = other.describe) :
    change.kind = other.kind := by
  obtain ⟨front, line⟩ := change.exists_front
  obtain ⟨front', line'⟩ := other.exists_front
  exact Kind.eq_of_ending (line.symm.trans ((congrArg String.toList h).trans line'))

def shown (change : Change) : String × Kind := (change.describe, change.kind)

theorem shown_of_describe {change other : Change} (h : change.describe = other.describe) :
    change.shown = other.shown := by
  rw [shown, shown, h, kind_eq_of_describe h]

end Change

/-- An update as a changelog shows it: the label of the game, and what is said of each change. -/
def Update.shown (update : Update) : String × List (String × Change.Kind) :=
  (update.new.label, update.changes.map Change.shown)

namespace Revision

/-- No label and no description goes over several lines. -/
structure OneLined (revision : Revision) : Prop where
  added : ∀ entry ∈ revision.added, '\n' ∉ entry.2.label.toList
  removed : ∀ entry ∈ revision.removed, '\n' ∉ entry.2.label.toList
  updated : ∀ update ∈ revision.updated, '\n' ∉ update.new.label.toList
  changes : ∀ update ∈ revision.updated, ∀ change ∈ update.changes,
    '\n' ∉ change.describe.toList

end Revision

namespace Changelog

/-! ## Rows -/

def updateRows (updates : List Update) : List String :=
  "**Games Updated**" :: updates.flatMap updateLines

/-- The rows after the first gap: those of the removed games, if any, and those of the updates. -/
def laterRows (revision : Revision) : List String :=
  entryLines "**Games Removed**" revision.removed ++
    (if revision.removed = [] then [] else [""]) ++ updateRows revision.updated

def rows (old new : Version) (revision : Revision) : List String :=
  s!"Version {old} -> {new}" ::
    (entryLines "**Games Added**" revision.added ++ "" :: laterRows revision)

theorem intercalate_newline_row (before : List String) (heading : String) (after : List String) :
    "\n".intercalate (before ++ ("\n" ++ heading) :: after) =
      "\n".intercalate (before ++ "" :: heading :: after) := by
  induction before with
  | nil =>
      rw [List.nil_append, List.nil_append, String.intercalate_cons_append,
        String.intercalate_cons_cons, String.empty_append]
  | cons row rest ih =>
      rw [List.cons_append, List.cons_append, String.intercalate_cons_of_ne_nil (by simp), ih,
        ← String.intercalate_cons_of_ne_nil (by simp)]

theorem text_eq_rows (old new : Version) (revision : Revision) :
    text old new revision = "\n".intercalate (rows old new revision) := by
  have updates_gap : "\n**Games Updated**" = "\n" ++ "**Games Updated**" := rfl
  have removed_gap : "\n**Games Removed**" = "\n" ++ "**Games Removed**" := rfl
  unfold text lines rows laterRows updateRows
  rw [updates_gap, removed_gap, intercalate_newline_row]
  cases hr : revision.removed with
  | nil => simp [entryLines]
  | cons entry rest =>
      have gap := intercalate_newline_row
        (s!"Version {old} -> {new}" :: entryLines "**Games Added**" revision.added)
        "**Games Removed**"
      simp only [entryLines, List.isEmpty_cons, Bool.false_eq_true, if_false, List.append_assoc,
        List.cons_append] at gap ⊢
      rw [gap]
      simp

/-! ## What a row is -/

theorem labelRow_head (label : String) : (s!"- {label}").toList.head? = some '-' := by
  show ("- " ++ label).toList.head? = some '-'
  simp

theorem labelRow_inj {label other : String} (h : s!"- {label}" = s!"- {other}") :
    label = other := by
  have same : "- " ++ label = "- " ++ other := h
  have chars := congrArg String.toList same
  rw [String.toList_append, String.toList_append, List.append_cancel_left_eq] at chars
  exact String.toList_inj.mp chars

theorem changeRow_head (change : Change) : (s!"  {change.describe}").toList.head? = some ' ' := by
  show ("  " ++ change.describe).toList.head? = some ' '
  simp

theorem changeRow_inj {change other : Change}
    (h : s!"  {change.describe}" = s!"  {other.describe}") : change.describe = other.describe := by
  have same : "  " ++ change.describe = "  " ++ other.describe := h
  have chars := congrArg String.toList same
  rw [String.toList_append, String.toList_append, List.append_cancel_left_eq] at chars
  exact String.toList_inj.mp chars

/-! ## Rows come apart -/

/-- Neither a label nor the heading `heading`. -/
def EndsEntries (heading : String) (rows : List String) : Prop :=
  ∀ row ∈ rows.head?, row.toList.head? ≠ some '-' ∧ row ≠ heading

theorem entryRows_head (table : UidTable) :
    ∀ row ∈ table.map (fun (_, record) => s!"- {record.label}"),
      row.toList.head? = some '-' := by
  intro row hm
  obtain ⟨entry, -, rfl⟩ := List.mem_map.mp hm
  exact labelRow_head _

theorem entryLines_inj {heading : String} {table table' : UidTable} {rest rest' : List String}
    (ends : EndsEntries heading rest) (ends' : EndsEntries heading rest')
    (h : entryLines heading table ++ rest = entryLines heading table' ++ rest') :
    table.map (·.2.label) = table'.map (·.2.label) ∧ rest = rest' := by
  cases table with
  | nil =>
      cases table' with
      | nil => exact ⟨rfl, h⟩
      | cons entry' others' =>
          have heading_next : rest.head? = some heading := congrArg List.head? h
          exact absurd rfl (ends heading heading_next).2
  | cons entry others =>
      cases table' with
      | nil =>
          have heading_next : rest'.head? = some heading := congrArg List.head? h.symm
          exact absurd rfl (ends' heading heading_next).2
      | cons entry' others' =>
          have after_heading := (List.cons.inj h).2
          obtain ⟨labels, rest_eq⟩ := append_inj_of_head (entryRows_head _) (entryRows_head _)
            (fun row hm => (ends row hm).1) (fun row hm => (ends' row hm).1) after_heading
          exact ⟨map_eq_of_map_eq labelRow_inj labels, rest_eq⟩

theorem updateLines_head (updates : List Update) :
    ∀ row ∈ (updates.flatMap updateLines).head?, ¬row.toList.head? = some ' ' := by
  cases updates with
  | nil => nofun
  | cons update rest =>
      intro row hm
      obtain rfl : s!"- {update.new.label}" = row := Option.some.inj hm
      rw [labelRow_head]
      decide

theorem updateLines_inj {updates updates' : List Update}
    (h : updates.flatMap updateLines = updates'.flatMap updateLines) :
    updates.map Update.shown = updates'.map Update.shown := by
  have spaces (changes : List Change) :
      ∀ row ∈ changes.map (fun change => s!"  {change.describe}"),
        row.toList.head? = some ' ' := by
    intro row hm
    obtain ⟨change, -, rfl⟩ := List.mem_map.mp hm
    exact changeRow_head change
  induction updates generalizing updates' with
  | nil =>
      cases updates' with
      | nil => rfl
      | cons update' rest' => cases h
  | cons update rest ih =>
      cases updates' with
      | nil => cases h
      | cons update' rest' =>
          obtain ⟨label, following⟩ := List.cons.inj h
          obtain ⟨lines_eq, rest_eq⟩ := append_inj_of_head (spaces _) (spaces _)
            (updateLines_head rest) (updateLines_head rest') following
          have changes_eq := map_eq_of_map_eq (g := Change.shown)
            (fun same => Change.shown_of_describe (changeRow_inj same)) lines_eq
          rw [List.map_cons, List.map_cons, ih rest_eq, Update.shown, Update.shown,
            labelRow_inj label, changes_eq]

theorem laterRows_inj {revision revision' : Revision}
    (h : laterRows revision = laterRows revision') :
    revision.removed.map (·.2.label) = revision'.removed.map (·.2.label) ∧
      revision.updated.map Update.shown = revision'.updated.map Update.shown := by
  have ends (revision : Revision) : EndsEntries "**Games Removed**"
      ((if revision.removed = [] then [] else [""]) ++ updateRows revision.updated) := by
    intro row hm
    split at hm
    · obtain rfl : "**Games Updated**" = row := Option.some.inj hm
      decide
    · obtain rfl : "" = row := Option.some.inj hm
      decide
  unfold laterRows at h
  rw [List.append_assoc, List.append_assoc] at h
  obtain ⟨labels, rest⟩ := entryLines_inj (ends revision) (ends revision') h
  have removed_nil : revision.removed = [] ↔ revision'.removed = [] := by
    rw [← List.map_eq_nil_iff (f := fun entry : Uid × Record => entry.2.label), labels,
      List.map_eq_nil_iff]
  simp only [removed_nil, List.append_cancel_left_eq] at rest
  exact ⟨labels, updateLines_inj (List.cons.inj rest).2⟩

theorem stampRow_inj {old new older newer : Version}
    (h : s!"Version {old} -> {new}" = s!"Version {older} -> {newer}") :
    old = older ∧ new = newer := by
  have same : "Version " ++ toString old ++ " -> " ++ toString new =
      "Version " ++ toString older ++ " -> " ++ toString newer := h
  have chars := congrArg String.toList same
  simp only [String.toList_append, List.append_assoc, List.append_cancel_left_eq] at chars
  have spaceless (version : Version) : ∀ c ∈ (toString version).toList, c ≠ ' ' := fun c hc e =>
    version.space_not_mem (e ▸ hc)
  have space {rest : List Char} : ∀ c ∈ (" -> ".toList ++ rest).head?, ¬c ≠ ' ' := by simp
  obtain ⟨old_eq, rest⟩ := append_inj_of_head (spaceless _) (spaceless _) space space chars
  rw [List.append_cancel_left_eq] at rest
  exact ⟨Version.toString_inj (String.toList_inj.mp old_eq),
    Version.toString_inj (String.toList_inj.mp rest)⟩

/-! ## The text -/

theorem newline_not_mem_entryLines {heading : String} {table : UidTable}
    (heading_line : '\n' ∉ heading.toList) (labels : ∀ entry ∈ table, '\n' ∉ entry.2.label.toList) :
    ∀ row ∈ entryLines heading table, '\n' ∉ row.toList := by
  intro row hm
  unfold entryLines at hm
  split at hm
  · cases hm
  · rcases List.mem_cons.mp hm with rfl | hm
    · exact heading_line
    · obtain ⟨entry, hentry, rfl⟩ := List.mem_map.mp hm
      show '\n' ∉ ("- " ++ entry.2.label).toList
      simpa using labels entry hentry

theorem newline_not_mem_rows (old new : Version) {revision : Revision} (h : revision.OneLined) :
    ∀ row ∈ rows old new revision, '\n' ∉ row.toList := by
  have stamps : '\n' ∉ (s!"Version {old} -> {new}").toList := by
    show '\n' ∉ ("Version " ++ toString old ++ " -> " ++ toString new).toList
    simp [Version.newline_not_mem]
  have added := newline_not_mem_entryLines (show '\n' ∉ "**Games Added**".toList by decide) h.added
  have removed := newline_not_mem_entryLines (show '\n' ∉ "**Games Removed**".toList by decide)
    h.removed
  have updated : ∀ row ∈ revision.updated.flatMap updateLines, '\n' ∉ row.toList := by
    intro row hm
    obtain ⟨update, hu, hm⟩ := List.mem_flatMap.mp hm
    rcases List.mem_cons.mp hm with rfl | hm
    · show '\n' ∉ ("- " ++ update.new.label).toList
      simpa using h.updated update hu
    · obtain ⟨change, hc, rfl⟩ := List.mem_map.mp hm
      show '\n' ∉ ("  " ++ change.describe).toList
      simpa using h.changes update hu change hc
  have gap : ∀ row ∈ (if revision.removed = [] then [] else [""]), '\n' ∉ row.toList := by
    split <;> simp
  have heading : '\n' ∉ ("**Games Updated**").toList := by decide
  have blank : '\n' ∉ ("").toList := by decide
  simp only [rows, laterRows, updateRows, List.forall_mem_cons, List.forall_mem_append]
  exact ⟨stamps, added, blank, ⟨removed, gap⟩, heading, updated⟩

theorem rows_inj {old new old' new' : Version} {revision revision' : Revision}
    (h : rows old new revision = rows old' new' revision') :
    (old = old' ∧ new = new') ∧
      revision.added.map (·.2.label) = revision'.added.map (·.2.label) ∧
      revision.removed.map (·.2.label) = revision'.removed.map (·.2.label) ∧
      revision.updated.map Update.shown = revision'.updated.map Update.shown := by
  have gap (rest : List String) : EndsEntries "**Games Added**" ("" :: rest) := by
    intro row hm
    obtain rfl : "" = row := Option.some.inj hm
    decide
  obtain ⟨stamps, following⟩ := List.cons.inj h
  obtain ⟨added, later⟩ := entryLines_inj (gap _) (gap _) following
  exact ⟨stampRow_inj stamps, added, laterRows_inj (List.cons.inj later).2⟩

/-- The rows are what the text falls into at its line feeds. -/
theorem splitOn_text (old new : Version) {revision : Revision} (h : revision.OneLined) :
    (text old new revision).toList.splitOn '\n' = (rows old new revision).map String.toList := by
  have feed : "\n".toList = ['\n'] := rfl
  rw [text_eq_rows, String.toList_intercalate, feed]
  refine List.splitOn_intercalate '\n' (fun row hm => ?_) (by simp [rows])
  obtain ⟨row, hr, rfl⟩ := List.mem_map.mp hm
  exact newline_not_mem_rows old new h row hr

/-- The text of a changelog tells the stamps, the labels of the games that came and went, and the
label of each updated game with the line and the kind of each of its changes. -/
theorem text_unambiguous {old new old' new' : Version} {revision revision' : Revision}
    (h : revision.OneLined) (h' : revision'.OneLined)
    (same_text : text old new revision = text old' new' revision') :
    (old = old' ∧ new = new') ∧
      revision.added.map (·.2.label) = revision'.added.map (·.2.label) ∧
      revision.removed.map (·.2.label) = revision'.removed.map (·.2.label) ∧
      revision.updated.map Update.shown = revision'.updated.map Update.shown := by
  have split_text := congrArg (fun written : String => written.toList.splitOn '\n') same_text
  simp only [splitOn_text _ _ h, splitOn_text _ _ h'] at split_text
  exact rows_inj (List.map_injective_iff.mpr (fun _ _ => String.toList_inj.mp) split_text)

/-- Two revisions of different records with the same text. A label may look like a heading or like
the line of a change. -/
theorem text_unambiguous_oddLabels :
    let one : Uid := ⟨1, by decide⟩
    let two : Uid := ⟨2, by decide⟩
    let heading : Record := ⟨[("name", .str "**Games Updated**")]⟩
    let dashed : Record := ⟨[("name", .str "  - Max Added")]⟩
    let dashed' : Record := ⟨[("name", .str "  - Max Added"), ("max", .null)]⟩
    let revision : Revision := ⟨[(one, heading)], [], [⟨two, dashed, dashed, [.added "max"]⟩]⟩
    let revision' : Revision := ⟨[(two, heading)], [], [⟨one, dashed, dashed', [.added "MAX"]⟩]⟩
    revision.OneLined ∧ revision'.OneLined ∧
      text ⟨2024, 1, 0⟩ ⟨2024, 1, 1⟩ revision = text ⟨2024, 1, 0⟩ ⟨2024, 1, 1⟩ revision' ∧
      revision.updated.map Update.shown = revision'.updated.map Update.shown := by
  intro one two heading dashed dashed' revision revision'
  have oneLined : revision.OneLined := by
    constructor <;> decide +kernel
  have oneLined' : revision'.OneLined := by
    constructor <;> decide +kernel
  have same_text : text ⟨2024, 1, 0⟩ ⟨2024, 1, 1⟩ revision =
      text ⟨2024, 1, 0⟩ ⟨2024, 1, 1⟩ revision' := by decide +kernel
  exact ⟨oneLined, oneLined', same_text, (text_unambiguous oneLined oneLined' same_text).2.2.2⟩

/-- With a line feed in it, one label reads as two. -/
example :
    let uid : Uid := ⟨1, by decide⟩
    let stamp : Version := ⟨2024, 1, 0⟩
    let go : Record := ⟨[("name", .str "Go")]⟩
    let hex : Record := ⟨[("name", .str "Hex")]⟩
    let both : Record := ⟨[("name", .str "Go\n- Hex")]⟩
    text stamp stamp ⟨[(uid, both)], [], []⟩ =
      text stamp stamp ⟨[(uid, go), (uid, hex)], [], []⟩ := by
  decide +kernel

end Changelog

end GameCatalog
