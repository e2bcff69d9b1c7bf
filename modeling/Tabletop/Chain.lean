/-!
# The die chain

The ordered die sizes along which a roll can be stepped up or down. A step past either end holds
at the extreme die, and a size that is not on the chain does not move.
-/
namespace Tabletop

namespace Chain

/-- The sizes on the chain, in order. -/
def sizes : List Nat := [3, 4, 5, 6, 7, 8, 10, 12, 14, 16, 20, 24, 30]

/-- From any size on the chain, so many steps reach the end. -/
def maxSteps : Nat := sizes.length

/-- Where on the chain a size stands, from 0. -/
def place? (size : Nat) : Option Nat :=
  sizes.idxOf? size

def isOn (size : Nat) : Bool :=
  (place? size).isSome

/-- The place `delta` steps away, held at the ends of the chain. -/
def shift (place : Nat) (delta : Int) : Nat :=
  min ((place : Int) + delta).toNat (sizes.length - 1)

theorem shift_lt (place : Nat) (delta : Int) : shift place delta < sizes.length :=
  Nat.lt_of_le_of_lt (Nat.min_le_right _ _) (by decide)

/-- The size `delta` steps along the chain. -/
def move (size : Nat) (delta : Int) : Nat :=
  match place? size with
  | none => size
  | some place => sizes.get ⟨shift place delta, shift_lt place delta⟩

theorem move_eq_or_mem (size : Nat) (delta : Int) :
    move size delta = size ∨ move size delta ∈ sizes := by
  unfold move
  split
  · exact Or.inl rfl
  · exact Or.inr (List.get_mem _ _)

theorem bounds_of_mem {size : Nat} (h : size ∈ sizes) : 3 ≤ size ∧ size ≤ 30 := by
  revert size
  decide

end Chain

/-- A net number of steps along the chain; more than its length either way would change nothing. -/
structure Step where
  val : Int
  neg_le : -Chain.maxSteps ≤ val
  le_max : val ≤ Chain.maxSteps
  deriving DecidableEq

namespace Step

/-- The number of steps, cut to the length of the chain either way. -/
def clamp (n : Int) : Step :=
  ⟨max (-Chain.maxSteps) (min n Chain.maxSteps), by omega, by omega⟩

/-- Staying put. -/
def zero : Step := ⟨0, by decide, by decide⟩

theorem ext_val {a b : Step} (h : a.val = b.val) : a = b := by
  cases a; cases b; cases h; rfl

theorem clamp_val (step : Step) : clamp step.val = step := by
  have h₁ := step.neg_le
  have h₂ := step.le_max
  apply ext_val
  show max (-(Chain.maxSteps : Int)) (min step.val Chain.maxSteps) = step.val
  omega

end Step

end Tabletop
