import GameCatalog.Settings.Basic

/-!
# Texts of variables

A text that has the form of a switch or a number is read as one and written anew, and it is no list.
Every other text counts as it is; it is enough for that to start with no sign, point or digit and to
be none of five words.
-/

namespace GameCatalog

namespace Scalar

/-- A text starts with no sign, point or digit. -/
def StartsPlain (text : List Char) : Prop :=
  ∀ first, text.head? = some first → first ∉ ['+', '-', '.'] ∧ first.isDigit = false

variable {chars : List Char}

theorem splitSign_of_startsPlain (plain : StartsPlain chars) :
    splitSign chars = (false, chars) := by
  unfold splitSign
  split
  · exact absurd (plain '-' rfl).1 (by decide)
  · exact absurd (plain '+' rfl).1 (by decide)
  · rfl

theorem int?_of_startsPlain (plain : StartsPlain chars) : int? chars = none := by
  have none_read : naturalOfDigits? chars = none := by
    cases chars with
    | nil => rfl
    | cons first rest => simp [naturalOfDigits?, (plain first rfl).2]
  simp only [int?, splitSign_of_startsPlain plain, none_read]

theorem double?_of_startsPlain (plain : StartsPlain chars)
    (noWord : ∀ word ∈ ["inf", "infinity", "nan"], chars.map Char.toLower ≠ word.toList) :
    double? chars = none := by
  simp only [List.forall_mem_cons] at noWord
  obtain ⟨noInf, noInfinity, noNan, -⟩ := noWord
  have untaken : chars.takeWhile Char.isDigit = [] ∧ chars.dropWhile Char.isDigit = chars := by
    cases chars with
    | nil => exact ⟨rfl, rfl⟩
    | cons first rest => simp [(plain first rfl).2]
  have pointless : ∀ rest, chars ≠ '.' :: rest := by
    rintro rest rfl
    exact absurd (plain '.' rfl).1 (by decide)
  have finite : ¬(chars.map Char.toLower = ['i', 'n', 'f'] ∨
      chars.map Char.toLower = ['i', 'n', 'f', 'i', 'n', 'i', 't', 'y']) :=
    not_or.mpr ⟨noInf, noInfinity⟩
  have number : chars.map Char.toLower ≠ ['n', 'a', 'n'] := noNan
  unfold double?
  simp only [splitSign_of_startsPlain plain, untaken, if_neg finite, if_neg number]
  rfl

theorem ofWord?_eq_none {text : String} (plain : StartsPlain text.toList)
    (noWord : text.toLower ∉ ["true", "false", "inf", "infinity", "nan"]) :
    ofWord? text = none := by
  have noDouble : double? text.toList = none := by
    refine double?_of_startsPlain plain fun word hm spelled => noWord ?_
    rw [← String.toList_map, String.toList_inj] at spelled
    rw [show text.toLower = word from spelled]
    exact List.mem_cons_of_mem _ (List.mem_cons_of_mem _ hm)
  have noSwitch : text.toLower ≠ "true" ∧ text.toLower ≠ "false" := by
    constructor <;> intro h <;> simp [h] at noWord
  simp [ofWord?, noSwitch, int?_of_startsPlain plain, noDouble]

end Scalar

namespace Settings

/-- The text that a variable gives to a setting. -/
def readAs (text : String) : String := ((Scalar.ofWord? text).map Scalar.toText).getD text

theorem ofVariable_ne_table (name text : String) (members : List (String × Setting)) :
    ofVariable name text ≠ .table members := by
  unfold ofVariable
  split
  · exact nofun
  · split <;> exact nofun

theorem text?_ofVariable {name : String} (h : name ≠ "flatten_fields") (text : String) :
    text? (ofVariable name text) = some (readAs text) := by
  unfold ofVariable readAs
  cases Scalar.ofWord? text with
  | none => simp [h, text?, Scalar.toText]
  | some scalar => rfl

def readAsList? (text : String) : Option (List String) :=
  match Scalar.ofWord? text with
  | none => some ((text.toList.splitOn ',').map String.ofList)
  | some _ => none

theorem ne_nil_of_readAsList? {text : String} {fields : List String}
    (h : readAsList? text = some fields) : fields ≠ [] := by
  unfold readAsList? at h
  split at h
  · rw [← Option.some.inj h, Ne, List.map_eq_nil_iff]
    exact List.splitOn_ne_nil _ _
  · cases h

theorem texts?_ofVariable (text : String) :
    texts? (ofVariable "flatten_fields" text) = readAsList? text := by
  have each : ∀ pieces : List (List Char),
      (pieces.map fun part => Setting.scalar (.text (String.ofList part))).mapM text? =
        some (pieces.map String.ofList) := by
    intro pieces
    induction pieces with
    | nil => rfl
    | cons piece rest ih => simp [ih, text?, Scalar.toText]
  unfold ofVariable readAsList?
  cases Scalar.ofWord? text with
  | none => exact each _
  | some scalar => rfl

/-- A text that stands for nothing else reaches settings as it is, and lists in its parts. -/
theorem readAs_of_startsPlain {text : String} (plain : Scalar.StartsPlain text.toList)
    (noWord : text.toLower ∉ ["true", "false", "inf", "infinity", "nan"]) :
    readAs text = text ∧
      readAsList? text = some ((text.toList.splitOn ',').map String.ofList) := by
  rw [readAs, readAsList?, Scalar.ofWord?_eq_none plain noWord]
  exact ⟨rfl, rfl⟩

example : readAs "007" = "7" ∧ readAs "1.0" = "1" ∧ readAs "TRUE" = "true" ∧
    readAs "gameName" = "gameName" ∧ readAsList? "5" = none ∧
    readAsList? "5,gameName" = some ["5", "gameName"] := by decide +kernel

end Settings

end GameCatalog
