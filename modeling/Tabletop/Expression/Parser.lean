import Tabletop.Expression
import Tabletop.Expression.Error
import Tabletop.Text.Blank

/-!
# Reading dice expressions

An expression is read from left to right, one part after the other: count, die, steps along the
chain, selection, modifier. Each reader takes the tokens that are left and gives back its part
with the tokens after it. A fault keeps the tokens from the one to blame on, which is all that
is needed to tell its position.
-/
namespace Tabletop

/-- What is wrong, and the tokens from the one to blame on. -/
structure Fault where
  cause : ExpressionError.Cause
  rest : List Token
  deriving DecidableEq

namespace Fault

/-- The next token, or the end of the text, is none of the expected kinds. -/
def unexpected (expected : List TokenKind) (rest : List Token) : Fault :=
  match rest with
  | [] => ⟨.ended expected, []⟩
  | ⟨.unknown, _⟩ :: _ => ⟨.meaningless expected, rest⟩
  | ⟨found, _⟩ :: _ => ⟨.misplaced found expected, rest⟩

/-- The fault with its position in the text that was read. -/
def locate (source : List Char) (fault : Fault) : ExpressionError :=
  let start := Text.width source - Text.width (Token.texts fault.rest)
  match fault.rest with
  | [] => ⟨fault.cause, start, start, []⟩
  | token :: _ => ⟨fault.cause, start, start + token.width, token.text⟩

end Fault

namespace Expression

/-- The greatest length of one step, 2³¹ - 1. -/
def greatestStep : Nat := 2147483647

/-- How many dice are thrown; one where no number is written. -/
def readCount : List Token → Except Fault (Count × List Token)
  | ⟨.integer, digits⟩ :: rest =>
    match Decimal.upTo? Count.greatest digits with
    | none => .error ⟨.numberTooLarge, ⟨.integer, digits⟩ :: rest⟩
    | some n =>
      match Count.ofNat? n with
      | none => .error ⟨.noDice, ⟨.integer, digits⟩ :: rest⟩
      | some count => .ok (count, rest)
  | ⟨.dice, text⟩ :: rest => .ok (Count.one, ⟨.dice, text⟩ :: rest)
  | rest => .error (.unexpected [.integer, .dice] rest)

/-- The letter between the count and the kind of die. -/
def readLetter : List Token → Except Fault (List Token)
  | ⟨.dice, _⟩ :: rest => .ok rest
  | rest => .error (.unexpected [.dice] rest)

/-- The kind of die. -/
def readDie : List Token → Except Fault (Die × List Token)
  | ⟨.percent, _⟩ :: rest => .ok (.percentile, rest)
  | ⟨.integer, digits⟩ :: rest =>
    match Decimal.upTo? Faces.greatest digits with
    | none => .error ⟨.numberTooLarge, ⟨.integer, digits⟩ :: rest⟩
    | some n =>
      match Die.ofFaces? n with
      | none => .error ⟨.tooFewFaces, ⟨.integer, digits⟩ :: rest⟩
      | some die => .ok (die, rest)
  | rest => .error (.unexpected [.integer, .percent] rest)

/-- The net of the steps, after those already taken. A step without a number is one step. -/
def readSteps (net : Step) : List Token → Except Fault (Step × List Token)
  | ⟨.sign sign, _⟩ :: ⟨.dice, _⟩ :: ⟨.integer, digits⟩ :: rest =>
    match Decimal.upTo? greatestStep digits with
    | none => .error ⟨.numberTooLarge, ⟨.integer, digits⟩ :: rest⟩
    | some n => readSteps (Step.clamp (net.val + sign.apply n)) rest
  | ⟨.sign sign, _⟩ :: ⟨.dice, _⟩ :: rest => readSteps (Step.clamp (net.val + sign.apply 1)) rest
  | rest => .ok (net, rest)

/-- How many dice a selection names; one where a modifier or the end follows at once. -/
def readSelected : List Token → Except Fault (Count × List Token)
  | ⟨.integer, digits⟩ :: rest =>
    match Decimal.upTo? Count.greatest digits with
    | none => .error ⟨.numberTooLarge, ⟨.integer, digits⟩ :: rest⟩
    | some n =>
      match Count.ofNat? n with
      | none => .error ⟨.nothingSelected, ⟨.integer, digits⟩ :: rest⟩
      | some count => .ok (count, rest)
  | [] => .ok (Count.one, [])
  | ⟨.sign sign, text⟩ :: rest => .ok (Count.one, ⟨.sign sign, text⟩ :: rest)
  | rest => .error (.unexpected [.integer] rest)

/-- The selection that a reader of its count completes. -/
def selecting (selection : Count → Selection) (rest : List Token) :
    Except Fault (Selection × List Token) :=
  (readSelected rest).map fun (count, rest) => (selection count, rest)

/-- Which dice are kept; all of them where nothing is written, and the highest after a bare
`k`. -/
def readSelection : List Token → Except Fault (Selection × List Token)
  | ⟨.keep, _⟩ :: ⟨.highest, _⟩ :: rest => selecting .keepHighest rest
  | ⟨.keep, _⟩ :: ⟨.lowest, _⟩ :: rest => selecting .keepLowest rest
  | [⟨.keep, _⟩] => selecting .keepHighest []
  | ⟨.keep, _⟩ :: ⟨.integer, digits⟩ :: rest => selecting .keepHighest (⟨.integer, digits⟩ :: rest)
  | ⟨.keep, _⟩ :: ⟨.sign sign, text⟩ :: rest => selecting .keepHighest (⟨.sign sign, text⟩ :: rest)
  | ⟨.keep, _⟩ :: rest => .error (.unexpected [.integer, .highest, .lowest] rest)
  | ⟨.dropLowest, _⟩ :: rest => selecting .dropLowest rest
  | rest => .ok (.keepAll, rest)

/-- The modifier, if a sign announces one. -/
def readModifier : List Token → Except Fault (Option Modifier × List Token)
  | ⟨.sign sign, _⟩ :: ⟨.integer, digits⟩ :: rest =>
    match (Decimal.upTo? Modifier.greatest digits).bind (Modifier.ofNat? sign) with
    | none => .error ⟨.numberTooLarge, ⟨.integer, digits⟩ :: rest⟩
    | some modifier => .ok (some modifier, rest)
  | ⟨.sign _, _⟩ :: rest => .error (.unexpected [.integer] rest)
  | rest => .ok (none, rest)

/-- The kinds of token with which an expression could go on after its last part. -/
def continuations (selection : Selection) (modifier : Option Modifier) : List TokenKind :=
  if modifier.isSome then []
  else if selection = .keepAll then [.sign .plus, .sign .minus, .keep, .dropLowest]
  else [.sign .plus, .sign .minus]

/-- Reads the tokens of one expression, all of them. -/
def ofTokens (tokens : List Token) : Except Fault Expression := do
  let (count, rest) ← readCount tokens
  let rest ← readLetter rest
  let (die, rest) ← readDie rest
  let (step, rest) ← readSteps Step.zero rest
  let (selection, rest) ← readSelection rest
  let (modifier, rest) ← readModifier rest
  if rest.isEmpty then .ok { count, die, step, selection, modifier }
  else .error (.unexpected (continuations selection modifier) rest)

/-- Reads the text of one expression, around which blanks may stand. -/
def parse (text : List Char) : Except ExpressionError Expression :=
  let source := Text.trim text
  (ofTokens (Token.lex source)).mapError (Fault.locate source)

end Expression

end Tabletop
