import Tabletop.Expression
import Tabletop.Hand
import Tabletop.ResultTable

/-!
# Rolls

An expression with the hand that it gave, and such a roll with the table entry that answers its
total.
-/
namespace Tabletop

structure Roll where
  expression : Expression
  hand : Hand
  deriving DecidableEq

def Roll.total (roll : Roll) : Int :=
  roll.hand.total

structure AnsweredRoll (α : Type) where
  roll : Roll
  entry : Entry α

end Tabletop
