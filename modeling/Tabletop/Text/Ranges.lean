/-!
# Ranges of code points

Membership in a list of ranges, both ends included. The tables of character properties in the
neighbouring modules are lists of this kind.
-/
namespace Tabletop.Text

/-- The code point lies in one of the ranges. -/
def inRanges (ranges : List (Nat × Nat)) (code : Nat) : Bool :=
  ranges.any fun range => range.1 ≤ code && code ≤ range.2

end Tabletop.Text
