import GameCatalog.Catalog.Reader
import GameCatalog.Proofs.Json.Tree

/-!
# The shape of a catalog

Which trees are catalogs, and what catalog each of them describes: an object with one version stamp
and one array of objects under the names for them. Going through the members as the reader does, a
place that may be filled only once is filled exactly when one member has its name.
-/

namespace GameCatalog

open Json

namespace Json

def Only (members : List (String × Tree)) (name : String) (tree : Tree) : Prop :=
  members.filter (fun member => member.1 = name) = [(name, tree)]

namespace Tree

/-- A number written as plain digits, without sign, point or exponent, that 32 bits hold. -/
def IsPart (tree : Tree) : Prop :=
  ∃ digits n stands, tree = .num ⟨false, digits, none, none⟩ n stands ∧
    Numeral.natural digits < UInt32.size

/-- A stamp, as an object with one member for each part or as an array of the three. -/
inductive IsStamp : Tree → Prop where
  | object {members : List (String × Tree)} {year major minor : Tree}
      (year_only : Only members "year" year) (year_part : year.IsPart)
      (major_only : Only members "major" major) (major_part : major.IsPart)
      (minor_only : Only members "minor" minor) (minor_part : minor.IsPart) :
      IsStamp (.obj members)
  | array {year major minor : Tree} (year_part : year.IsPart) (major_part : major.IsPart)
      (minor_part : minor.IsPart) : IsStamp (.arr [year, major, minor])

/-- An object with one stamp and one array of objects, each under its name. -/
inductive IsCatalog : Tree → Prop where
  | object {members : List (String × Tree)} {stamp : Tree} {items : List Tree}
      (version_only : Only members "version" stamp) (stamp_shape : stamp.IsStamp)
      (games_only : Only members "games" (.arr items))
      (items_objects : ∀ item ∈ items, ∃ fields, item = .obj fields) : IsCatalog (.obj members)

/-! ## What a tree describes -/

def Holds (tree : Tree) (part : UInt32) : Prop :=
  ∃ digits n stands, tree = .num ⟨false, digits, none, none⟩ n stands ∧
    Numeral.natural digits = part.toNat

inductive Stamps : Tree → Version → Prop where
  | object {members : List (String × Tree)} {year major minor : Tree} {version : Version}
      (year_only : Only members "year" year) (year_holds : year.Holds version.year)
      (major_only : Only members "major" major) (major_holds : major.Holds version.major)
      (minor_only : Only members "minor" minor) (minor_holds : minor.Holds version.minor) :
      Stamps (.obj members) version
  | array {year major minor : Tree} {version : Version} (year_holds : year.Holds version.year)
      (major_holds : major.Holds version.major) (minor_holds : minor.Holds version.minor) :
      Stamps (.arr [year, major, minor]) version

/-- The members of an object as they are held: each name at its first place with its last value. -/
def heldMembers (members : List (String × Tree)) : Members :=
  Members.ofRepeated (memberValues members)

def others (members : List (String × Tree)) : List (String × Tree) :=
  members.filter fun member => member.1 ≠ "version" ∧ member.1 ≠ "games"

/-- The catalog of a tree: its stamp, a record for each object in the array, and all other members
in order. -/
inductive Describes : Tree → Catalog → Prop where
  | object {members : List (String × Tree)} {stamp : Tree} {version : Version}
      {games : List (List (String × Tree))} (version_only : Only members "version" stamp)
      (stamps : stamp.Stamps version) (games_only : Only members "games" (.arr (games.map .obj))) :
      Describes (.obj members) ⟨version, games.map fun fields => ⟨heldMembers fields⟩,
        heldMembers (others members)⟩

/-! ## Parts of a stamp -/

def part? : Tree → Option UInt32
  | .num _ (.int n _) _ =>
      if 0 ≤ n ∧ n < 0x100000000 then some (UInt32.ofNat n.toNat) else none
  | _ => none

/-- Only plain digits stand for an integer that is not negative. -/
theorem plain_of_value?_int {numeral : Numeral} {n : Int} {inRange : InWideRange n}
    (stands : numeral.value? = some (.int n inRange)) (nonneg : 0 ≤ n) :
    numeral = ⟨false, numeral.whole, none, none⟩ ∧ (Numeral.natural numeral.whole : Int) = n := by
  obtain ⟨⟨no_fraction, no_exponent, nonzero⟩, signed⟩ := Numeral.value?_eq_int_iff.mp stands
  obtain ⟨negative, whole, fraction, exponent⟩ := numeral
  simp only at no_fraction no_exponent nonzero
  subst no_fraction no_exponent
  cases negative with
  | true =>
      have minus : Numeral.integer ⟨true, whole, none, none⟩ = -(Numeral.natural whole : Int) := rfl
      rw [minus] at signed nonzero
      simp only [true_and] at nonzero
      omega
  | false => exact ⟨rfl, signed⟩

theorem part?_eq_some_iff {tree : Tree} {part : UInt32} :
    tree.part? = some part ↔ tree.Holds part := by
  constructor
  · intro h
    cases tree with
    | num numeral n stands =>
        cases n with
        | float x => cases h
        | int n inRange =>
            simp only [part?] at h
            split at h
            next bounds =>
              cases h
              obtain ⟨plain, size⟩ := plain_of_value?_int stands bounds.1
              refine ⟨numeral.whole, .int n inRange, plain ▸ stands, ?_, ?_⟩
              · congr
              · rw [UInt32.toNat_ofNat']
                omega
            next => cases h
    | _ => cases h
  · rintro ⟨digits, n, stands, rfl, size⟩
    have lt := part.toNat_lt
    have inRange : InWideRange (Numeral.natural digits) := by
      unfold InWideRange
      omega
    obtain rfl := Option.some.inj (stands.symm.trans (Numeral.value?_plain inRange))
    simp only [part?]
    rw [if_pos (by omega), size, Int.toNat_natCast, UInt32.ofNat_toNat]

/-! ## Places that are filled once -/

def named (name : String) (members : List (String × Tree)) : List Tree :=
  (members.filter fun member => member.1 = name).map (·.2)

theorem named_cons (name key : String) (tree : Tree) (rest : List (String × Tree)) :
    named name ((key, tree) :: rest) =
      if key = name then tree :: named name rest else named name rest := by
  by_cases h : key = name <;> simp [named, h]

theorem named_eq_singleton_iff {name : String} {members : List (String × Tree)} {tree : Tree} :
    named name members = [tree] ↔ Only members name tree := by
  unfold named Only
  constructor
  · intro h
    obtain ⟨⟨key, held⟩, hm, rfl⟩ := List.map_eq_singleton_iff.mp h
    have key_eq : key = name := by
      have mem : (key, held) ∈ members.filter fun member => member.1 = name := by simp [hm]
      simpa using (List.mem_filter.mp mem).2
    rw [hm, key_eq]
  · intro h
    simp [h]

/-- What a place holds after its members: what it held when there are none, and else what the only
one gives, when it held nothing. -/
inductive Filled (read? : Tree → Option α) : Option α → List Tree → Option α → Prop where
  | kept {held : Option α} : Filled read? held [] held
  | once {tree : Tree} {a : α} (read : read? tree = some a) : Filled read? none [tree] (some a)

section Filled

variable {read? : Tree → Option α} {held final : Option α} {tree : Tree} {trees : List Tree} {a : α}

theorem filled_nil_iff : Filled read? held [] final ↔ final = held := by
  constructor
  · intro h
    cases h
    rfl
  · rintro rfl
    exact .kept

theorem filled_some_iff : Filled read? (some a) trees final ↔ trees = [] ∧ final = some a := by
  constructor
  · intro h
    cases h
    exact ⟨rfl, rfl⟩
  · rintro ⟨rfl, rfl⟩
    exact .kept

theorem filled_cons_iff :
    Filled read? held (tree :: trees) final ↔
      held = none ∧ ∃ a, read? tree = some a ∧ Filled read? (some a) trees final := by
  constructor
  · intro h
    cases h with
    | once read => exact ⟨rfl, _, read, .kept⟩
  · rintro ⟨rfl, a, read, later⟩
    obtain ⟨rfl, rfl⟩ := filled_some_iff.mp later
    exact .once read

theorem filled_none_iff :
    Filled read? none trees (some a) ↔ ∃ tree, trees = [tree] ∧ read? tree = some a := by
  constructor
  · intro h
    cases h with
    | once read => exact ⟨_, rfl, read⟩
  · rintro ⟨tree, rfl, read⟩
    exact .once read

end Filled

end Tree

end Json

/-! ## Stamps -/

namespace Version

open Tree

def Draft.put? (draft : Draft) (member : String × Tree) : Option Draft :=
  if member.1 = "year" then
    if draft.year.isSome then none
    else member.2.part?.map fun part => { draft with year := some part }
  else if member.1 = "major" then
    if draft.major.isSome then none
    else member.2.part?.map fun part => { draft with major := some part }
  else if member.1 = "minor" then
    if draft.minor.isSome then none
    else member.2.part?.map fun part => { draft with minor := some part }
  else some draft

theorem foldlM_put?_eq_some_iff {members : List (String × Tree)} {draft final : Draft} :
    members.foldlM Draft.put? draft = some final ↔
      Filled part? draft.year (named "year" members) final.year ∧
      Filled part? draft.major (named "major" members) final.major ∧
      Filled part? draft.minor (named "minor" members) final.minor := by
  induction members generalizing draft with
  | nil =>
      obtain ⟨year, major, minor⟩ := draft
      obtain ⟨year', major', minor'⟩ := final
      simp [named, filled_nil_iff, eq_comm]
  | cons member rest ih =>
      obtain ⟨name, tree⟩ := member
      rw [List.foldlM_cons]
      by_cases year : name = "year"
      · subst year
        cases held : draft.year <;> cases read : tree.part? <;>
          simp [Draft.put?, named_cons, filled_cons_iff, held, read, ih]
      by_cases major : name = "major"
      · subst major
        cases held : draft.major <;> cases read : tree.part? <;>
          simp [Draft.put?, named_cons, filled_cons_iff, held, read, ih]
      by_cases minor : name = "minor"
      · subst minor
        cases held : draft.minor <;> cases read : tree.part? <;>
          simp [Draft.put?, named_cons, filled_cons_iff, held, read, ih]
      simp [Draft.put?, named_cons, year, major, minor, ih]

theorem ofDraft_eq_ok_iff {draft : Draft} {version : Version} :
    ofDraft draft = .ok version ↔
      draft.year = some version.year ∧ draft.major = some version.major ∧
        draft.minor = some version.minor := by
  obtain ⟨year, major, minor⟩ := draft
  obtain ⟨y, m, n⟩ := version
  cases year <;> cases major <;> cases minor <;> simp [ofDraft]

end Version

namespace Json.Tree

def version? : Tree → Option Version
  | .obj members => (members.foldlM Version.Draft.put? {}).bind fun draft =>
      (Version.ofDraft draft).toOption
  | .arr [year, major, minor] => do
      let year ← year.part?
      let major ← major.part?
      let minor ← minor.part?
      some ⟨year, major, minor⟩
  | _ => none

theorem filled_part_iff {name : String} {members : List (String × Tree)} {part : UInt32} :
    Filled part? none (named name members) (some part) ↔
      ∃ tree, Only members name tree ∧ tree.Holds part := by
  simp only [filled_none_iff, named_eq_singleton_iff, part?_eq_some_iff]

theorem version?_eq_some_iff {tree : Tree} {version : Version} :
    tree.version? = some version ↔ tree.Stamps version := by
  constructor
  · intro h
    unfold version? at h
    split at h
    next members =>
      obtain ⟨draft, folded, made⟩ := Option.bind_eq_some_iff.mp h
      obtain ⟨year_eq, major_eq, minor_eq⟩ :=
        Version.ofDraft_eq_ok_iff.mp (toOption_eq_some_iff.mp made)
      have filled := Version.foldlM_put?_eq_some_iff.mp folded
      rw [year_eq, major_eq, minor_eq] at filled
      obtain ⟨year, major, minor⟩ := filled
      obtain ⟨y, year_only, year_holds⟩ := filled_part_iff.mp year
      obtain ⟨m, major_only, major_holds⟩ := filled_part_iff.mp major
      obtain ⟨n, minor_only, minor_holds⟩ := filled_part_iff.mp minor
      exact .object year_only year_holds major_only major_holds minor_only minor_holds
    next y m n =>
      simp only [Option.bind_eq_bind, Option.bind_eq_some_iff, Option.some.injEq] at h
      obtain ⟨year, hy, major, hm, minor, hn, rfl⟩ := h
      exact .array (part?_eq_some_iff.mp hy) (part?_eq_some_iff.mp hm) (part?_eq_some_iff.mp hn)
    next => cases h
  · intro h
    cases h with
    | @object members y m n version year_only year_holds major_only major_holds minor_only
        minor_holds =>
        have folded : members.foldlM Version.Draft.put? {} =
            some ⟨some version.year, some version.major, some version.minor⟩ :=
          Version.foldlM_put?_eq_some_iff.mpr ⟨filled_part_iff.mpr ⟨y, year_only, year_holds⟩,
            filled_part_iff.mpr ⟨m, major_only, major_holds⟩,
            filled_part_iff.mpr ⟨n, minor_only, minor_holds⟩⟩
        simp [version?, folded, Version.ofDraft]
    | array year_holds major_holds minor_holds =>
        simp [version?, part?_eq_some_iff.mpr year_holds, part?_eq_some_iff.mpr major_holds,
          part?_eq_some_iff.mpr minor_holds]

def record? : Tree → Option Record
  | .obj members => some ⟨heldMembers members⟩
  | _ => none

def games? : Tree → Option (List Record)
  | .arr items => items.mapM record?
  | _ => none

theorem mapM_record?_eq_some_iff {items : List Tree} {records : List Record} :
    items.mapM record? = some records ↔
      ∃ games : List (List (String × Tree)), items = games.map .obj ∧
        records = games.map fun fields => ⟨heldMembers fields⟩ := by
  induction items generalizing records with
  | nil =>
      constructor
      · intro h
        cases h
        exact ⟨[], rfl, rfl⟩
      · rintro ⟨games, items_eq, rfl⟩
        rw [List.map_eq_nil_iff.mp items_eq.symm]
        rfl
  | cons item rest ih =>
      rw [List.mapM_cons]
      constructor
      · intro h
        simp only [Option.bind_eq_bind, Option.bind_eq_some_iff, Option.pure_def,
          Option.some.injEq] at h
        obtain ⟨record, hitem, later, hrest, rfl⟩ := h
        obtain ⟨games, rfl, rfl⟩ := ih.mp hrest
        cases item with
        | obj fields =>
            cases hitem
            exact ⟨fields :: games, rfl, rfl⟩
        | _ => cases hitem
      · rintro ⟨games, items_eq, rfl⟩
        cases games with
        | nil => cases items_eq
        | cons fields games =>
            cases items_eq
            simp [record?, ih.mpr ⟨games, rfl, rfl⟩]

theorem games?_eq_some_iff {tree : Tree} {records : List Record} :
    tree.games? = some records ↔
      ∃ games : List (List (String × Tree)), tree = .arr (games.map .obj) ∧
        records = games.map fun fields => ⟨heldMembers fields⟩ := by
  cases tree with
  | arr items => simp only [games?, mapM_record?_eq_some_iff, Tree.arr.injEq]
  | _ => simp [games?]

end Json.Tree

/-! ## Catalogs -/

namespace Catalog

open Tree

def Draft.put? (draft : Draft) (member : String × Tree) : Option Draft :=
  if member.1 = "version" then
    if draft.version.isSome then none
    else member.2.version?.map fun version => { draft with version := some version }
  else if member.1 = "games" then
    if draft.games.isSome then none
    else member.2.games?.map fun games => { draft with games := some games }
  else some { draft with extra := draft.extra.set member.1 member.2.value }

theorem foldlM_put?_eq_some_iff {members : List (String × Tree)} {draft final : Draft} :
    members.foldlM Draft.put? draft = some final ↔
      Filled version? draft.version (named "version" members) final.version ∧
      Filled games? draft.games (named "games" members) final.games ∧
      final.extra = (memberValues (others members)).foldl
        (fun held member => Members.set member.1 member.2 held) draft.extra := by
  induction members generalizing draft with
  | nil =>
      obtain ⟨version, games, extra⟩ := draft
      obtain ⟨version', games', extra'⟩ := final
      simp [named, others, memberValues, filled_nil_iff, eq_comm]
  | cons member rest ih =>
      obtain ⟨name, tree⟩ := member
      rw [List.foldlM_cons]
      by_cases version : name = "version"
      · subst version
        cases held : draft.version <;> cases read : tree.version? <;>
          simp [Draft.put?, named_cons, others, filled_cons_iff, held, read, ih]
      by_cases games : name = "games"
      · subst games
        cases held : draft.games <;> cases read : tree.games? <;>
          simp [Draft.put?, named_cons, others, filled_cons_iff, held, read, ih]
      simp [Draft.put?, named_cons, others, memberValues, version, games, ih]

theorem ofDraft_eq_ok_iff {draft : Draft} {catalog : Catalog} :
    ofDraft draft = .ok catalog ↔
      draft.version = some catalog.version ∧ draft.games = some catalog.games ∧
        draft.extra = catalog.extra := by
  obtain ⟨version, games, extra⟩ := draft
  obtain ⟨v, g, e⟩ := catalog
  cases version <;> cases games <;> simp [ofDraft]

end Catalog

namespace Json.Tree

def catalog? : Tree → Option Catalog
  | .obj members => (members.foldlM Catalog.Draft.put? {}).bind fun draft =>
      (Catalog.ofDraft draft).toOption
  | _ => none

theorem catalog?_eq_some_iff {tree : Tree} {catalog : Catalog} :
    tree.catalog? = some catalog ↔ tree.Describes catalog := by
  constructor
  · intro h
    cases tree with
    | obj members =>
        obtain ⟨draft, folded, made⟩ := Option.bind_eq_some_iff.mp h
        obtain ⟨version_eq, games_eq, extra_eq⟩ :=
          Catalog.ofDraft_eq_ok_iff.mp (toOption_eq_some_iff.mp made)
        have filled := Catalog.foldlM_put?_eq_some_iff.mp folded
        rw [version_eq, games_eq, extra_eq] at filled
        obtain ⟨version, games, extra⟩ := filled
        obtain ⟨stamp, stamp_named, stamp_read⟩ := filled_none_iff.mp version
        obtain ⟨array, array_named, array_read⟩ := filled_none_iff.mp games
        obtain ⟨records, rfl, records_eq⟩ := games?_eq_some_iff.mp array_read
        have described := Describes.object (named_eq_singleton_iff.mp stamp_named)
          (version?_eq_some_iff.mp stamp_read) (named_eq_singleton_iff.mp array_named)
        rw [Members.foldl_set_eq_ofRepeated] at extra
        obtain ⟨v, g, e⟩ := catalog
        obtain rfl := records_eq
        obtain rfl := extra
        exact described
    | _ => cases h
  · intro h
    cases h with
    | @object members stamp version games version_only stamps games_only =>
        have folded : members.foldlM Catalog.Draft.put? {} =
            some ⟨some version, some (games.map fun fields => ⟨heldMembers fields⟩),
              heldMembers (others members)⟩ :=
          Catalog.foldlM_put?_eq_some_iff.mpr
            ⟨filled_none_iff.mpr ⟨stamp, named_eq_singleton_iff.mpr version_only,
                version?_eq_some_iff.mpr stamps⟩,
              filled_none_iff.mpr ⟨_, named_eq_singleton_iff.mpr games_only,
                games?_eq_some_iff.mpr ⟨games, rfl, rfl⟩⟩,
              (Members.foldl_set_eq_ofRepeated _).symm⟩
        simp [catalog?, folded, Catalog.ofDraft, others]

/-! ## Shapes -/

theorem isPart_iff {tree : Tree} : tree.IsPart ↔ ∃ part, tree.Holds part := by
  constructor
  · rintro ⟨digits, n, stands, rfl, small⟩
    exact ⟨UInt32.ofNat (Numeral.natural digits), digits, n, stands, rfl, by
      rw [UInt32.toNat_ofNat', Nat.mod_eq_of_lt small]⟩
  · rintro ⟨part, digits, n, stands, rfl, size⟩
    exact ⟨digits, n, stands, rfl, size ▸ part.toNat_lt_size⟩

theorem isStamp_iff {tree : Tree} : tree.IsStamp ↔ ∃ version, tree.Stamps version := by
  constructor
  · intro h
    cases h with
    | object year_only year_part major_only major_part minor_only minor_part =>
        obtain ⟨year, year_holds⟩ := isPart_iff.mp year_part
        obtain ⟨major, major_holds⟩ := isPart_iff.mp major_part
        obtain ⟨minor, minor_holds⟩ := isPart_iff.mp minor_part
        exact ⟨⟨year, major, minor⟩,
          .object year_only year_holds major_only major_holds minor_only minor_holds⟩
    | array year_part major_part minor_part =>
        obtain ⟨year, year_holds⟩ := isPart_iff.mp year_part
        obtain ⟨major, major_holds⟩ := isPart_iff.mp major_part
        obtain ⟨minor, minor_holds⟩ := isPart_iff.mp minor_part
        exact ⟨⟨year, major, minor⟩, .array year_holds major_holds minor_holds⟩
  · rintro ⟨version, h⟩
    cases h with
    | object year_only year_holds major_only major_holds minor_only minor_holds =>
        exact .object year_only (isPart_iff.mpr ⟨_, year_holds⟩) major_only
          (isPart_iff.mpr ⟨_, major_holds⟩) minor_only (isPart_iff.mpr ⟨_, minor_holds⟩)
    | array year_holds major_holds minor_holds =>
        exact .array (isPart_iff.mpr ⟨_, year_holds⟩) (isPart_iff.mpr ⟨_, major_holds⟩)
          (isPart_iff.mpr ⟨_, minor_holds⟩)

theorem exists_fields {items : List Tree} (h : ∀ item ∈ items, ∃ fields, item = .obj fields) :
    ∃ games : List (List (String × Tree)), items = games.map .obj := by
  induction items with
  | nil => exact ⟨[], rfl⟩
  | cons item rest ih =>
      obtain ⟨fields, rfl⟩ := h item List.mem_cons_self
      obtain ⟨games, rfl⟩ := ih fun other hm => h other (List.mem_cons_of_mem _ hm)
      exact ⟨fields :: games, rfl⟩

theorem isCatalog_iff {tree : Tree} : tree.IsCatalog ↔ ∃ catalog, tree.Describes catalog := by
  constructor
  · intro h
    cases h with
    | object version_only stamp_shape games_only items_objects =>
        obtain ⟨version, stamps⟩ := isStamp_iff.mp stamp_shape
        obtain ⟨games, rfl⟩ := exists_fields items_objects
        exact ⟨_, .object version_only stamps games_only⟩
  · rintro ⟨catalog, h⟩
    cases h with
    | object version_only stamps games_only =>
        refine .object version_only (isStamp_iff.mpr ⟨_, stamps⟩) games_only fun item hm => ?_
        obtain ⟨fields, -, rfl⟩ := List.mem_map.mp hm
        exact ⟨fields, rfl⟩

end Json.Tree

end GameCatalog
