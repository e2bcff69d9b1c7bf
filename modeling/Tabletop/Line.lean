import Tabletop.Text.Blank

/-!
# Lines of expressions

A line holds any number of expressions, set apart by commas and blanks, however many stand
between two of them or at the ends.
-/
namespace Tabletop.Line

def isSeparator (c : Char) : Bool :=
  c == ',' || Text.isBlank c

/-- A piece in front of others; an empty one is none. -/
def close (piece : List Char) (pieces : List (List Char)) : List (List Char) :=
  if piece.isEmpty then pieces else piece :: pieces

/-- The piece with which the line begins, up to the first separator, and the pieces after it. -/
def cut : List Char → List Char × List (List Char)
  | [] => ([], [])
  | c :: line =>
    let (piece, pieces) := cut line
    if isSeparator c then ([], close piece pieces) else (c :: piece, pieces)

/-- The texts between the separators of a line. -/
def pieces (line : List Char) : List (List Char) :=
  close (cut line).1 (cut line).2

end Tabletop.Line
