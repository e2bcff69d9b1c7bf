import Tabletop.Roll
import Tabletop.Text.Blank

/-!
# Styles

How rolls are shown. A roll is shown on one line: the expression, the dice in parentheses, the
total. The markdown style marks what the plain one leaves to the reader: extreme dice are bold,
dice that do not count are struck through, and the total stands between backticks.
-/
namespace Tabletop

inductive Style where
  | simple
  | markdown
  deriving DecidableEq

namespace Style

/-- The style of that name, around which blanks may stand; case does not matter. -/
def ofName? (text : List Char) : Option Style :=
  let name := String.ofList ((Text.trim text).map Char.toLower)
  if name = "simple" then some simple
  else if name = "markdown" ∨ name = "md" then some markdown
  else none

/-- One die of a hand. -/
def throwText (style : Style) (die : Die) (throw : Throw) : List Char :=
  let value := Decimal.ofNat throw.value
  match style with
  | simple => value
  | markdown =>
    let value := if throw.isNotable die then "**".toList ++ value ++ "**".toList else value
    if throw.kept then value else "~~".toList ++ value ++ "~~".toList

/-- The dice of a hand, in the order in which they fell. -/
def diceText (style : Style) (hand : Hand) : List Char :=
  List.intercalate ", ".toList (hand.throws.map (style.throwText hand.die))

def totalText (style : Style) (total : Int) : List Char :=
  match style with
  | simple => Decimal.ofInt total
  | markdown => '\x60' :: Decimal.ofInt total ++ ['\x60']

/-- The expression, and after steps the die that was thrown. -/
def headText (roll : Roll) : List Char :=
  if roll.expression.step.val = 0 then roll.expression.text
  else roll.expression.text ++ " as d".toList ++ roll.hand.die.text

def rollText (style : Style) (roll : Roll) : List Char :=
  headText roll ++ " (".toList ++ style.diceText roll.hand ++ ") = ".toList ++
    style.totalText roll.total

/-- One roll a line. -/
def rollsText (style : Style) (rolls : List Roll) : List Char :=
  List.intercalate ['\n'] (rolls.map style.rollText)

/-- The roll, then the key and the entry that answer it. -/
def answeredRollText {α : Type} (style : Style) (resultText : α → List Char)
    (answered : AnsweredRoll α) : List Char :=
  style.rollText answered.roll ++ " → ".toList ++ answered.entry.key.text ++ ": ".toList ++
    resultText answered.entry.result

end Style

end Tabletop
