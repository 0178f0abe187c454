/-!
# Ranges of code points

A class of characters is given by the ranges of code points that it takes up,
in ascending order. A search among them ends at the first range that begins
after the code point in question.
-/

namespace CommonJs
namespace Text

/-- The first and the last code point of a range. -/
abbrev CodeRange := Nat × Nat

/-- Whether a code point lies in one of some ascending ranges. -/
def inRanges (code : Nat) : List CodeRange → Bool
  | [] => false
  | (least, most) :: rest =>
      if code < least then false else code ≤ most || inRanges code rest

end Text
end CommonJs
