import Tabletop.Expression.Token
import Tabletop.Text.Quoted

/-!
# Errors in dice expressions

What can be wrong with the text of an expression, and where. An error names the stretch of the
text that is to blame by its bytes, and repeats the text that stands there; at the end of the
text the stretch is empty.
-/
namespace Tabletop

inductive ExpressionError.Cause where
  /-- The text ends where one of the kinds was expected. -/
  | ended (expected : List TokenKind)
  /-- A token of another kind stands where one of the kinds was expected. -/
  | misplaced (found : TokenKind) (expected : List TokenKind)
  /-- A character without meaning stands where one of the kinds was expected. -/
  | meaningless (expected : List TokenKind)
  | numberTooLarge
  | noDice
  | tooFewFaces
  | nothingSelected
  deriving DecidableEq

namespace ExpressionError.Cause

/-- Alternatives as a phrase; where nothing is expected, the text should have ended. -/
def alternatives : List TokenKind → String
  | [] => "end of expression"
  | [kind] => kind.name
  | [kind, other] => kind.name ++ " or " ++ other.name
  | kind :: kinds => enumerated kind kinds
where
  enumerated (kind : TokenKind) : List TokenKind → String
    | [] => "or " ++ kind.name
    | next :: kinds => kind.name ++ ", " ++ enumerated next kinds

def message : ExpressionError.Cause → String
  | ended expected => "unexpected end of expression, expected " ++ alternatives expected
  | misplaced found expected =>
    "unexpected token: found " ++ found.name ++ ", expected " ++ alternatives expected
  | meaningless expected => "expected " ++ alternatives expected
  | numberTooLarge => "number is too large"
  | noDice => "must roll at least one die"
  | tooFewFaces => "a die must have at least 2 sides"
  | nothingSelected => "must keep or drop at least one die"

/-- The kinds that would have been right, where the wrong kind is the cause. -/
def expected? : ExpressionError.Cause → Option (List TokenKind)
  | ended expected | misplaced _ expected | meaningless expected => some expected
  | _ => none

end ExpressionError.Cause

/-- A cause with the stretch of the text from byte `start` to before byte `stop`, and the text
that stands there. -/
structure ExpressionError where
  cause : ExpressionError.Cause
  start : Nat
  stop : Nat
  slice : List Char
  deriving DecidableEq

def ExpressionError.message (e : ExpressionError) : String :=
  "error at position " ++ String.ofList (Decimal.ofNat e.start) ++ " (" ++ Text.quoted e.slice ++
    "): " ++ e.cause.message

end Tabletop
