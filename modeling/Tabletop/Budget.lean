import Tabletop.Count
import Tabletop.Text.Decimal

/-!
# Budgets

How many dice may be rolled before a reset, and how many were. A request that would exceed the
limit is refused as a whole and leaves the budget as it was. Counting stops at the greatest
count.
-/
namespace Tabletop

structure Budget where
  /-- The greatest number of dice; none for no limit. -/
  limit : Option Nat
  used : Nat := 0
  deriving DecidableEq

/-- The count that a refused request would have led to, and the limit that it exceeds. -/
structure OverBudget where
  requested : Nat
  limit : Nat
  deriving DecidableEq

def OverBudget.message (e : OverBudget) : String :=
  "too many dice rolled: " ++ String.ofList (Decimal.ofNat e.requested) ++
    " would exceed the limit of " ++ String.ofList (Decimal.ofNat e.limit)

namespace Budget

/-- The limit where none is set. -/
def standard : Nat := 1000

/-- Counts so many dice, or refuses them. -/
def charge (budget : Budget) (dice : Count) : Except OverBudget Budget :=
  let requested := min (budget.used + dice.val) Count.greatest
  match budget.limit with
  | none => .ok { budget with used := requested }
  | some limit =>
    if limit < requested then .error ⟨requested, limit⟩
    else .ok { budget with used := requested }

/-- Forgets the dice counted so far. -/
def reset (budget : Budget) : Budget :=
  { budget with used := 0 }

end Budget

end Tabletop
