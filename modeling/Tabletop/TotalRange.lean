import Tabletop.Text.Decimal

/-!
# Ranges of totals

The totals that one entry of a table answers: those between two bounds, or all from a bound up,
or all from a bound down. A range is open on at most one side and never empty; an open side
reaches as far as totals go.
-/
namespace Tabletop

/-- -2⁶³, the least total. -/
def Bound.least : Int := -9223372036854775808

/-- 2⁶³ - 1, the greatest total. -/
def Bound.greatest : Int := 9223372036854775807

/-- A bound of a range, itself a total. -/
structure Bound where
  val : Int
  least_le : Bound.least ≤ val
  le_greatest : val ≤ Bound.greatest
  deriving DecidableEq

namespace Bound

def ofInt? (n : Int) : Option Bound :=
  if h : least ≤ n ∧ n ≤ greatest then some ⟨n, h.1, h.2⟩ else none

/-- The bound that a run of digits denotes. -/
def ofDigits? (digits : List Char) : Option Bound :=
  ofInt? (Decimal.value digits)

theorem ext_val {a b : Bound} (h : a.val = b.val) : a = b := by
  cases a; cases b; cases h; rfl

end Bound

inductive TotalRange where
  | between (low high : Bound) (ordered : low.val ≤ high.val)
  | atLeast (low : Bound)
  | atMost (high : Bound)
  deriving DecidableEq

namespace TotalRange

/-- The range between two bounds, whichever comes first. -/
def spanning (a b : Bound) : TotalRange :=
  if h : a.val ≤ b.val then between a b h
  else between b a (Int.le_of_lt (Int.lt_of_not_ge h))

/-- The range of one total. -/
def single (n : Bound) : TotalRange :=
  between n n (Int.le_refl n.val)

/-- The range with these bounds, if there is a bound at all. -/
def ofBounds? : Option Bound → Option Bound → Option TotalRange
  | none, none => none
  | some low, none => some (atLeast low)
  | none, some high => some (atMost high)
  | some a, some b => some (spanning a b)

def lower? : TotalRange → Option Bound
  | between low _ _ | atLeast low => some low
  | atMost _ => none

def upper? : TotalRange → Option Bound
  | between _ high _ | atMost high => some high
  | atLeast _ => none

/-- The least total in the range. -/
def first (range : TotalRange) : Int :=
  (range.lower?.map Bound.val).getD Bound.least

/-- The greatest total in the range. -/
def last (range : TotalRange) : Int :=
  (range.upper?.map Bound.val).getD Bound.greatest

def contains (range : TotalRange) (total : Int) : Bool :=
  match range with
  | between low high _ => low.val ≤ total && total ≤ high.val
  | atLeast low => low.val ≤ total
  | atMost high => total ≤ high.val

/-- Some total is in both ranges. -/
def meets (a b : TotalRange) : Bool :=
  max a.first b.first ≤ min a.last b.last

/-- The order in which a table is searched: by first total, then by last. -/
def precedes (a b : TotalRange) : Bool :=
  a.first < b.first || (a.first == b.first && a.last ≤ b.last)

/-- The canonical text. -/
def text : TotalRange → List Char
  | between low high _ =>
    if low.val = high.val then Decimal.ofInt low.val
    else Decimal.ofInt low.val ++ '-' :: Decimal.ofInt high.val
  | atLeast low => Decimal.ofInt low.val ++ ['+']
  | atMost high => Decimal.ofInt high.val ++ " or lower".toList

theorem first_le_last (range : TotalRange) : range.first ≤ range.last := by
  cases range with
  | between low high ordered => exact ordered
  | atLeast low => exact low.le_greatest
  | atMost high => exact high.least_le

theorem least_le_first (range : TotalRange) : Bound.least ≤ range.first := by
  cases range with
  | between low high ordered => exact low.least_le
  | atLeast low => exact low.least_le
  | atMost high => exact Int.le_refl _

theorem last_le_greatest (range : TotalRange) : range.last ≤ Bound.greatest := by
  cases range with
  | between low high ordered => exact high.le_greatest
  | atLeast low => exact Int.le_refl _
  | atMost high => exact high.le_greatest

/-- Among the totals that there are, an open side is no different from a bound. -/
theorem contains_iff (range : TotalRange) {total : Int} (hleast : Bound.least ≤ total)
    (hgreatest : total ≤ Bound.greatest) :
    range.contains total = true ↔ range.first ≤ total ∧ total ≤ range.last := by
  cases range with
  | between low high ordered => simp [contains, first, last, lower?, upper?]
  | atLeast low => simp [contains, first, last, lower?, upper?, hgreatest]
  | atMost high => simp [contains, first, last, lower?, upper?, hleast]

theorem precedes_iff (a b : TotalRange) :
    a.precedes b = true ↔ a.first < b.first ∨ a.first = b.first ∧ a.last ≤ b.last := by
  simp [precedes]

theorem precedes_trans (a b c : TotalRange) (h₁ : a.precedes b = true) (h₂ : b.precedes c = true) :
    a.precedes c = true := by
  rw [precedes_iff] at *
  omega

theorem precedes_total (a b : TotalRange) : (a.precedes b || b.precedes a) = true := by
  rw [Bool.or_eq_true, precedes_iff, precedes_iff]
  omega

end TotalRange

end Tabletop
