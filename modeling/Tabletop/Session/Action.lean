import Tabletop.Session

/-!
# Actions and their outcomes

The operations of a session as data, so that whole runs can be written down: a list of actions,
and the list of what each of them gave.
-/
namespace Tabletop

/-- One operation on a session; `α` is what the entries of tables hold. -/
inductive Action (α : Type) where
  | reset
  | throwDice (dice : Count) (die : Die)
  | eval (expression : Expression)
  | roll (text : List Char)
  | rollLine (line : List Char)
  | rollOn (text : List Char) (table : ResultTable α)

inductive Outcome (α : Type) where
  | done
  | values (rolls : List Nat)
  | hand (hand : Hand)
  | roll (roll : Roll)
  | rolls (rolls : List Roll)
  | answered (roll : AnsweredRoll α)
  | failed (failure : Failure)

namespace Outcome

variable {α β ε : Type}

/-- The outcome of an operation that can fail. -/
def ofResult (failure : ε → Failure) (outcome : β → Outcome α) : Except ε β → Outcome α
  | .error e => failed (failure e)
  | .ok result => outcome result

end Outcome

namespace Session

variable {σ α : Type} [DiceSource σ]

/-- What an action gives, and the session after it. -/
def perform (session : Session σ) : Action α → Outcome α × Session σ
  | .reset => (.done, session.reset)
  | .throwDice dice die =>
    (session.throwDice dice die).map (.ofResult .overBudget .values) id
  | .eval expression => (session.eval expression).map (.ofResult .overBudget .hand) id
  | .roll text => (session.roll text).map (.ofResult id .roll) id
  | .rollLine line => (session.rollLine line).map (.ofResult id .rolls) id
  | .rollOn text table => (session.rollOn text table).map (.ofResult id .answered) id

/-- Performs the actions in order, with the session after each. -/
def run (session : Session σ) : List (Action α) → List (Outcome α × Session σ)
  | [] => []
  | action :: actions =>
    let (outcome, session) := session.perform action
    (outcome, session) :: session.run actions

end Session

end Tabletop
