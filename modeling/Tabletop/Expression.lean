import Tabletop.Count
import Tabletop.Die
import Tabletop.Modifier
import Tabletop.Selection

/-!
# Dice expressions

What a player asks to roll: so many dice of one kind, moved along the die chain, a selection of
them, and a modifier. Every expression has one canonical text, such as `4d6dl1` or `1d20+d1+5`.
-/
namespace Tabletop

structure Expression where
  count : Count
  die : Die
  step : Step := Step.zero
  selection : Selection := .keepAll
  modifier : Option Modifier := none
  deriving DecidableEq

/-- How a net step is written, nothing for none. -/
def Step.text (step : Step) : List Char :=
  if 0 < step.val then '+' :: 'd' :: Decimal.ofNat step.val.natAbs
  else if step.val < 0 then '-' :: 'd' :: Decimal.ofNat step.val.natAbs
  else []

namespace Expression

/-- The die that is thrown, once the steps are taken. -/
def movedDie (e : Expression) : Die :=
  e.die.move e.step.val

/-- The canonical text. -/
def text (e : Expression) : List Char :=
  Decimal.ofNat e.count.val ++ 'd' :: e.die.text ++ e.step.text ++ e.selection.text ++
    (e.modifier.map Modifier.text).getD []

end Expression

end Tabletop
