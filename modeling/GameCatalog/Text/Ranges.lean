/-!
# Ranges of code points

Classes of characters are given by ascending ranges of code points, both ends included.
-/

namespace GameCatalog.Text

/-- A code point of `ranges`, which are ascending: the search stops at the first range above it. -/
def inRanges (code : Nat) : List (Nat × Nat) → Bool
  | [] => false
  | (first, last) :: rest =>
      if code < first then false else if code ≤ last then true else inRanges code rest

end GameCatalog.Text
