import Tabletop.Die

/-!
# Sources of dice

A source rolls one die after the other. Its state changes from roll to roll; whatever the state,
a die shows one of its faces.
-/
namespace Tabletop

class DiceSource (σ : Type) where
  /-- What a die with so many faces shows, and the state for the next roll. -/
  roll : Faces → σ → Nat × σ
  one_le_roll : ∀ faces state, 1 ≤ (roll faces state).1
  roll_le_faces : ∀ faces state, (roll faces state).1 ≤ faces.val

namespace DiceSource

variable {σ : Type} [DiceSource σ]

/-- Rolls so many equal dice, one after the other. -/
def rollMany (faces : Faces) : Nat → σ → List Nat × σ
  | 0, state => ([], state)
  | n + 1, state =>
    let (value, state) := roll faces state
    let (values, state) := rollMany faces n state
    (value :: values, state)

theorem length_rollMany (faces : Faces) (n : Nat) (state : σ) :
    (rollMany faces n state).1.length = n := by
  induction n generalizing state with
  | zero => rfl
  | succ n ih => simp [rollMany, ih]

theorem mem_rollMany_bounds (faces : Faces) (n : Nat) (state : σ) :
    ∀ value ∈ (rollMany faces n state).1, 1 ≤ value ∧ value ≤ faces.val := by
  induction n generalizing state with
  | zero => simp [rollMany]
  | succ n ih =>
    intro value h
    simp only [rollMany, List.mem_cons] at h
    rcases h with rfl | h
    · exact ⟨one_le_roll faces state, roll_le_faces faces state⟩
    · exact ih _ value h

end DiceSource

end Tabletop
