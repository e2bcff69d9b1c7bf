import Tabletop.Modifier
import Tabletop.Text.Width

/-!
# Tokens of dice expressions

The pieces into which an expression's text falls: runs of digits, the letters and signs of the
notation, and single characters that mean nothing. A token keeps its text, so the texts of the
tokens put together are the text that was cut, and positions are widths of what comes before.
-/
namespace Tabletop

inductive TokenKind where
  | integer
  | dice
  | percent
  | sign (sign : Sign)
  | keep
  | dropLowest
  | highest
  | lowest
  | unknown
  deriving DecidableEq

namespace TokenKind

/-- The kind of a token that is this character alone. -/
def ofChar (c : Char) : TokenKind :=
  if c.isDigit then integer
  else match c with
    | 'd' => dice
    | '%' => percent
    | '+' => sign .plus
    | '-' => sign .minus
    | 'k' => keep
    | 'h' => highest
    | 'l' => lowest
    | _ => unknown

/-- What messages call the kind. -/
def name : TokenKind → String
  | integer => "<integer>"
  | dice => "'d'"
  | percent => "'%'"
  | sign .plus => "'+'"
  | sign .minus => "'-'"
  | keep => "'k'"
  | dropLowest => "'dl'"
  | highest => "'h'"
  | lowest => "'l'"
  | unknown => "<error>"

end TokenKind

structure Token where
  kind : TokenKind
  text : List Char
  deriving DecidableEq

namespace Token

/-- Puts a character before the tokens that follow it: a digit joins the digits it stands before,
a `d` joins an `l`, and anything else is a token of its own. -/
def push (c : Char) (later : List Token) : List Token :=
  match TokenKind.ofChar c, later with
  | .integer, ⟨.integer, digits⟩ :: rest => ⟨.integer, c :: digits⟩ :: rest
  | .dice, ⟨.lowest, letter⟩ :: rest => ⟨.dropLowest, c :: letter⟩ :: rest
  | kind, later => ⟨kind, [c]⟩ :: later

/-- Cuts a text into its tokens. -/
def lex (text : List Char) : List Token :=
  text.foldr push []

def width (token : Token) : Nat :=
  Text.width token.text

/-- The text that the tokens cover. -/
def texts (tokens : List Token) : List Char :=
  tokens.flatMap Token.text

theorem texts_push (c : Char) (later : List Token) : texts (push c later) = c :: texts later := by
  unfold push
  split <;> simp [texts]

/-- Cutting a text loses nothing of it. -/
theorem texts_lex (text : List Char) : texts (lex text) = text := by
  induction text with
  | nil => rfl
  | cons c text ih =>
    have h : lex (c :: text) = push c (lex text) := rfl
    rw [h, texts_push, ih]

end Token

end Tabletop
