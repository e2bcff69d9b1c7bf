import Tabletop.Count
import Tabletop.Text.Decimal

/-!
# Selections

Which dice of a roll count toward its total. The dice are put in ascending order, equal values
in the order in which they fell, and a selection keeps one end of that order; of any dice at
all it keeps at least one.
-/
namespace Tabletop

inductive Selection where
  | keepAll
  | keepHighest (count : Count)
  | keepLowest (count : Count)
  | dropLowest (count : Count)
  deriving DecidableEq

namespace Selection

/-- The number written after the selection. -/
def count? : Selection → Option Count
  | keepAll => none
  | keepHighest count | keepLowest count | dropLowest count => some count

def text : Selection → List Char
  | keepAll => []
  | keepHighest count => 'k' :: 'h' :: Decimal.ofNat count.val
  | keepLowest count => 'k' :: 'l' :: Decimal.ofNat count.val
  | dropLowest count => 'd' :: 'l' :: Decimal.ofNat count.val

/-- The places of the rolls, from 0, in ascending order of their values. -/
def placesByValue (rolls : List Nat) : List Nat :=
  (rolls.zipIdx.mergeSort fun a b => a.1 ≤ b.1).map Prod.snd

/-- The part of an ascending order that the selection keeps. -/
def choose {α : Type} (selection : Selection) (order : List α) : List α :=
  match selection with
  | keepAll => order
  | keepHighest count => order.drop (order.length - min count.val order.length)
  | keepLowest count => order.take (min count.val order.length)
  | dropLowest count => order.drop (min count.val (order.length - 1))

/-- A flag for each place below `size`, raised at the chosen places. -/
def raise (size : Nat) (chosen : List Nat) : List Bool :=
  (chosen.foldl (fun raised place => raised.setIfInBounds place true)
    (Array.replicate size false)).toList

/-- For each roll, in the order in which they fell, whether it is kept. -/
def flags (selection : Selection) (rolls : List Nat) : List Bool :=
  raise rolls.length (selection.choose (placesByValue rolls))

/-- How many of that many dice the selection keeps. -/
def keptCount (selection : Selection) (size : Nat) : Nat :=
  match selection with
  | keepAll => size
  | keepHighest count | keepLowest count => min count.val size
  | dropLowest count => size - min count.val (size - 1)

theorem length_choose {α : Type} (selection : Selection) (order : List α) :
    (selection.choose order).length = selection.keptCount order.length := by
  cases selection with
  | keepAll => rfl
  | keepHighest count =>
    simp only [choose, keptCount, List.length_drop]
    omega
  | keepLowest count =>
    simp only [choose, keptCount, List.length_take]
    omega
  | dropLowest count => simp only [choose, keptCount, List.length_drop]

end Selection

end Tabletop
