import Tabletop.TableKey

/-!
# Reading table keys

A key is written `N`, `N-M`, `N+` or `N or lower`, where spaces and tabs may stand anywhere
between the parts and must stand around the word `or`.
-/
namespace Tabletop

inductive KeyWord where
  | number (digits : List Char)
  | plus
  | minus
  | or
  | lower
  deriving DecidableEq

/-- A part of a key, and whether spaces or tabs stand before it. -/
structure KeyPart where
  word : KeyWord
  spaced : Bool
  deriving DecidableEq

namespace KeyPart

/-- Puts a digit before the parts that follow it; it joins a number that it touches. -/
def pushDigit (c : Char) (spaced : Bool) : List KeyPart → List KeyPart
  | ⟨.number digits, false⟩ :: rest => ⟨.number (c :: digits), spaced⟩ :: rest
  | rest => ⟨.number [c], spaced⟩ :: rest

/-- Cuts a text into parts, if it consists of such parts. -/
def lex (spaced : Bool) : List Char → Option (List KeyPart)
  | [] => some []
  | '+' :: text => (lex false text).map (⟨.plus, spaced⟩ :: ·)
  | '-' :: text => (lex false text).map (⟨.minus, spaced⟩ :: ·)
  | 'o' :: 'r' :: text => (lex false text).map (⟨.or, spaced⟩ :: ·)
  | 'l' :: 'o' :: 'w' :: 'e' :: 'r' :: text => (lex false text).map (⟨.lower, spaced⟩ :: ·)
  | c :: text =>
    if c = ' ' ∨ c = '\t' then lex true text
    else if c.isDigit then (lex false text).map (pushDigit c spaced)
    else none

end KeyPart

namespace TableKey

/-- The range that the parts of a key denote. -/
def rangeOf? : List KeyPart → Option TotalRange
  | [⟨.number n, _⟩] => (Bound.ofDigits? n).map .single
  | [⟨.number n, _⟩, ⟨.plus, _⟩] => (Bound.ofDigits? n).map .atLeast
  | [⟨.number n, _⟩, ⟨.or, true⟩, ⟨.lower, true⟩] => (Bound.ofDigits? n).map .atMost
  | [⟨.number n, _⟩, ⟨.minus, _⟩, ⟨.number m, _⟩] =>
    match Bound.ofDigits? n, Bound.ofDigits? m with
    | some a, some b => some (.spanning a b)
    | _, _ => none
  | _ => none

/-- Reads a key, which keeps the text as its label. -/
def parse (text : List Char) : Except TableError TableKey :=
  match (KeyPart.lex false text).bind rangeOf? with
  | none => .error (.invalidKey text)
  | some range => .ok ⟨range, text⟩

end TableKey

end Tabletop
