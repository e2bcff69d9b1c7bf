import Tabletop.Budget
import Tabletop.DiceSource
import Tabletop.Expression.Parser
import Tabletop.Line
import Tabletop.Roll

/-!
# Sessions

Rolling dice on one budget, from one source. Every operation gives its result together with the
session after it, also when it fails: a text that cannot be read and a refused request leave the
session alone, while dice that were rolled before a failure stay rolled and counted.
-/
namespace Tabletop

/-- Why an operation has no result. -/
inductive Failure where
  | unreadable (error : ExpressionError)
  | overBudget (error : OverBudget)
  | table (error : TableError)
  deriving DecidableEq

def Failure.message : Failure → String
  | unreadable error => error.message
  | overBudget error => error.message
  | table error => error.message

structure Session (σ : Type) where
  budget : Budget
  source : σ

namespace Session

variable {σ α : Type} [DiceSource σ]

/-- A session under a limit on the number of dice, or under none. -/
def start (limit : Option Nat) (source : σ) : Session σ :=
  ⟨{ limit }, source⟩

/-- Forgets the dice counted so far. -/
def reset (session : Session σ) : Session σ :=
  { session with budget := session.budget.reset }

/-- Throws so many dice of one kind. -/
def throwDice (session : Session σ) (dice : Count) (die : Die) :
    Except OverBudget (List Nat) × Session σ :=
  match session.budget.charge dice with
  | .error e => (.error e, session)
  | .ok budget =>
    let (values, source) := DiceSource.rollMany die.faces dice.val session.source
    (.ok values, ⟨budget, source⟩)

/-- Throws the dice of an expression and selects among them. -/
def eval (session : Session σ) (e : Expression) : Except OverBudget Hand × Session σ :=
  let (result, session) := session.throwDice e.count e.movedDie
  (result.map fun rolls => Hand.ofRolls rolls e.movedDie e.selection e.modifier, session)

/-- Reads one expression and rolls it. -/
def roll (session : Session σ) (text : List Char) : Except Failure Roll × Session σ :=
  match Expression.parse text with
  | .error e => (.error (.unreadable e), session)
  | .ok expression =>
    let (result, session) := session.eval expression
    ((result.map fun hand => ⟨expression, hand⟩).mapError .overBudget, session)

/-- Rolls one text after the other, up to the first that fails. -/
def rollAll (session : Session σ) : List (List Char) → Except Failure (List Roll) × Session σ
  | [] => (.ok [], session)
  | text :: texts =>
    match session.roll text with
    | (.error e, session) => (.error e, session)
    | (.ok first, session) =>
      let (result, session) := session.rollAll texts
      (result.map fun rolls => first :: rolls, session)

/-- Rolls the expressions of a line; there is no result unless all of them succeed. -/
def rollLine (session : Session σ) (line : List Char) : Except Failure (List Roll) × Session σ :=
  session.rollAll (Line.pieces line)

/-- Rolls one expression and looks its total up. -/
def rollOn (session : Session σ) (text : List Char) (table : ResultTable α) :
    Except Failure (AnsweredRoll α) × Session σ :=
  match session.roll text with
  | (.error e, session) => (.error e, session)
  | (.ok roll, session) =>
    match table.lookup roll.total with
    | .error e => (.error (.table e), session)
    | .ok entry => (.ok ⟨roll, entry⟩, session)

end Session

end Tabletop
