import Tabletop.TableError
import Tabletop.TotalRange

/-!
# Table keys

A key is a range of totals with a label, the text under which the table shows it. A key that was
read keeps the text it was read from; any other is labelled with the canonical text of its range.
-/
namespace Tabletop

structure TableKey where
  range : TotalRange
  label : List Char
  deriving DecidableEq

namespace TableKey

/-- The key of a range under its canonical text. -/
def ofRange (range : TotalRange) : TableKey :=
  ⟨range, range.text⟩

/-- The key of one total. -/
def single (n : Bound) : TableKey :=
  ofRange (.single n)

/-- The key of the totals between two bounds, whichever comes first. -/
def spanning (a b : Bound) : TableKey :=
  ofRange (.spanning a b)

/-- The key with these bounds; it needs one of them. -/
def ofBounds (lower upper : Option Bound) : Except TableError TableKey :=
  match TotalRange.ofBounds? lower upper with
  | none => .error .unbounded
  | some range => .ok (ofRange range)

def contains (key : TableKey) (total : Int) : Bool :=
  key.range.contains total

def meets (a b : TableKey) : Bool :=
  a.range.meets b.range

/-- The canonical text, whatever the label. -/
def text (key : TableKey) : List Char :=
  key.range.text

end TableKey

end Tabletop
