import Tabletop.Text.Combining
import Tabletop.Text.Ignorable
import Tabletop.Text.Invisible
import Tabletop.Text.Unassigned

/-!
# Quoted texts

The form in which messages quote what was typed: between double quotes, with a backslash before
a quote or a backslash, short escapes for tab, line feed, carriage return and NUL, and the code
point of any other character that would not show by itself.
-/
namespace Tabletop.Text

/-- The character would not show by itself: it is invisible or ignorable, hangs on the one before
it, or is none at all. -/
def isHidden (c : Char) : Bool :=
  if c.toNat < 0x7F then c.toNat < 0x20
  else isInvisible c || isIgnorable c || isCombining c || isUnassigned c

/-- The code point in hexadecimal between braces. -/
def codePointEscape (c : Char) : List Char :=
  ['\\', 'u', '\x7b'] ++ Nat.toDigits 16 c.toNat ++ ['\x7d']

/-- One character as it stands between the quotes. -/
def quotedChar (c : Char) : List Char :=
  match c with
  | '\t' => ['\\', 't']
  | '\n' => ['\\', 'n']
  | '\r' => ['\\', 'r']
  | '\x00' => ['\\', '0']
  | '"' => ['\\', '"']
  | '\\' => ['\\', '\\']
  | c => if isHidden c then codePointEscape c else [c]

/-- The text between double quotes. -/
def quoted (text : List Char) : String :=
  String.ofList ('"' :: text.flatMap quotedChar ++ ['"'])

end Tabletop.Text
