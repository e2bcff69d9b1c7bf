import Tabletop.Text.Decimal

/-!
# Modifiers

A flat amount that is added to the kept dice, or taken from them.
-/
namespace Tabletop

inductive Sign where
  | plus
  | minus
  deriving DecidableEq

namespace Sign

/-- The number with this sign in front. -/
def apply (sign : Sign) (n : Int) : Int :=
  match sign with
  | plus => n
  | minus => -n

def char : Sign → Char
  | plus => '+'
  | minus => '-'

end Sign

/-- 2³² - 1, the greatest amount of a modifier. -/
def Modifier.greatest : Nat := 4294967295

structure Modifier where
  sign : Sign
  value : Nat
  le_greatest : value ≤ Modifier.greatest
  deriving DecidableEq

namespace Modifier

def ofNat? (sign : Sign) (value : Nat) : Option Modifier :=
  if h : value ≤ greatest then some ⟨sign, value, h⟩ else none

theorem ofNat?_eq_some_iff {sign : Sign} {value : Nat} {modifier : Modifier} :
    ofNat? sign value = some modifier ↔ sign = modifier.sign ∧ value = modifier.value := by
  unfold ofNat?
  split
  · rw [Option.some.injEq]
    constructor
    · rintro rfl
      exact ⟨rfl, rfl⟩
    · rintro ⟨rfl, rfl⟩
      rfl
  · next hn =>
    simp only [reduceCtorEq, false_iff]
    rintro ⟨-, rfl⟩
    exact hn modifier.le_greatest

/-- What the modifier adds, negative when it takes away. -/
def amount (modifier : Modifier) : Int :=
  modifier.sign.apply modifier.value

def apply (modifier : Modifier) (subtotal : Int) : Int :=
  subtotal + modifier.amount

def text (modifier : Modifier) : List Char :=
  modifier.sign.char :: Decimal.ofNat modifier.value

end Modifier

end Tabletop
