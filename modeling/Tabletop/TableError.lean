import Tabletop.Text.Decimal
import Tabletop.Text.Quoted

/-!
# Errors of range tables

What can be wrong with a key, with a table, or with looking a total up in one.
-/
namespace Tabletop

inductive TableError where
  /-- The text is no key. -/
  | invalidKey (text : List Char)
  /-- A key was to have no bound at all. -/
  | unbounded
  /-- No entry answers the total. -/
  | noMatch (total : Int)
  /-- The keys with these labels share a total. -/
  | overlap (first second : List Char)
  deriving DecidableEq

def TableError.message : TableError → String
  | invalidKey text =>
    "invalid table key " ++ Text.quoted text ++ ": expected N, N-M, N+ or \"N or lower\""
  | unbounded => "a table key needs at least one bound"
  | noMatch total => "no result for total " ++ String.ofList (Decimal.ofInt total)
  | overlap first second =>
    "table keys " ++ Text.quoted first ++ " and " ++ Text.quoted second ++ " overlap"

end Tabletop
