/-!
# Decimal numerals

Numbers written in the ten ASCII digits. A reader has a limit, the greatest number it accepts;
leading zeros are allowed, however many.
-/
namespace Tabletop.Decimal

/-- The numeral of a number, without leading zeros. -/
def ofNat (n : Nat) : List Char :=
  Nat.toDigits 10 n

/-- The numeral of an integer, with a minus sign when it is negative. -/
def ofInt (n : Int) : List Char :=
  if n < 0 then '-' :: ofNat n.natAbs else ofNat n.natAbs

/-- The number that a run of digits denotes. -/
def value (digits : List Char) : Nat :=
  Nat.ofDigitChars 10 digits 0

/-- The number that a run of digits denotes, unless it is beyond the limit. -/
def upTo? (limit : Nat) (digits : List Char) : Option Nat :=
  if value digits ≤ limit then some (value digits) else none

/-- Reads a text that is a numeral and nothing else, after at most one plus sign. -/
def read? (limit : Nat) (text : List Char) : Option Nat :=
  let digits := match text with
    | '+' :: rest => rest
    | _ => text
  if digits.isEmpty || !digits.all Char.isDigit then none else upTo? limit digits

@[simp] theorem value_ofNat (n : Nat) : value (ofNat n) = n :=
  Nat.ofDigitChars_ten_toDigits

theorem ofNat_ne_nil (n : Nat) : ofNat n ≠ [] :=
  Nat.toDigits_ne_nil

theorem isDigit_of_mem_ofNat {n : Nat} {c : Char} (h : c ∈ ofNat n) : c.isDigit = true :=
  Nat.isDigit_of_mem_toDigits (by decide) (by decide) h

theorem upTo?_eq_some_iff {limit n : Nat} {digits : List Char} :
    upTo? limit digits = some n ↔ value digits = n ∧ n ≤ limit := by
  unfold upTo?
  split
  · simp only [Option.some.injEq]
    omega
  · simp only [reduceCtorEq, false_iff]
    omega

theorem upTo?_eq_none_iff {limit : Nat} {digits : List Char} :
    upTo? limit digits = none ↔ limit < value digits := by
  unfold upTo?
  split
  · simp only [reduceCtorEq, false_iff]
    omega
  · simp only [true_iff]
    omega

end Tabletop.Decimal
