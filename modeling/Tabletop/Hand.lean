import Tabletop.Die
import Tabletop.Modifier
import Tabletop.Selection

/-!
# Hands

The dice that lie on the table after one expression was rolled, in the order in which they fell,
each with its value and whether it counts.
-/
namespace Tabletop

structure Throw where
  value : Nat
  kept : Bool
  deriving DecidableEq

/-- A one, or the greatest value of the die. -/
def Throw.isNotable (throw : Throw) (die : Die) : Bool :=
  throw.value == 1 || throw.value == die.faces.val

structure Hand where
  /-- The kind of die that was thrown. -/
  die : Die
  throws : List Throw
  modifier : Option Modifier
  deriving DecidableEq

namespace Hand

/-- The hand of these rolls under a selection. -/
def ofRolls (rolls : List Nat) (die : Die) (selection : Selection) (modifier : Option Modifier) :
    Hand where
  die := die
  throws := List.zipWith Throw.mk rolls (selection.flags rolls)
  modifier := modifier

/-- The values of all dice. -/
def rolled (hand : Hand) : List Nat :=
  hand.throws.map Throw.value

/-- The values of the dice that count. -/
def kept (hand : Hand) : List Nat :=
  (hand.throws.filter (·.kept)).map Throw.value

/-- The values of the dice that do not count. -/
def dropped (hand : Hand) : List Nat :=
  (hand.throws.filter (!·.kept)).map Throw.value

/-- The sum of the dice that count. -/
def subtotal (hand : Hand) : Int :=
  hand.kept.foldr (fun value sum => Int.ofNat value + sum) 0

/-- The subtotal with the modifier applied. -/
def total (hand : Hand) : Int :=
  match hand.modifier with
  | none => hand.subtotal
  | some modifier => modifier.apply hand.subtotal

end Hand

end Tabletop
