import Tabletop.DiceSource

/-!
# Replayed rolls

A recording of rolls that is played back in order, and from its beginning again once it runs
out. Each recorded value is reduced to the faces of the die that is rolled, so a recording made
on large dice can drive small ones; a zero counts as a one.
-/
namespace Tabletop

structure Replay where
  draws : Array Nat
  draws_ne : 0 < draws.size
  /-- How many rolls were made so far. -/
  played : Nat := 0

namespace Replay

/-- A recording that has not been played yet; there is none without a roll. -/
def ofList? (draws : List Nat) : Option Replay :=
  if h : 0 < draws.toArray.size then some { draws := draws.toArray, draws_ne := h } else none

/-- The recorded value that comes next. -/
def next (replay : Replay) : Nat :=
  have : replay.played % replay.draws.size < replay.draws.size :=
    Nat.mod_lt _ replay.draws_ne
  replay.draws[replay.played % replay.draws.size]

/-- The face of the die to which a recorded value belongs. -/
def reduce (faces : Faces) (value : Nat) : Nat :=
  (max value 1 - 1) % faces.val + 1

theorem one_le_reduce (faces : Faces) (value : Nat) : 1 ≤ reduce faces value :=
  Nat.le_add_left 1 _

theorem reduce_le_faces (faces : Faces) (value : Nat) : reduce faces value ≤ faces.val :=
  Nat.mod_lt _ faces.one_le

/-- A value on the die stands for itself. -/
theorem reduce_of_le {faces : Faces} {value : Nat} (h₁ : 1 ≤ value) (h₂ : value ≤ faces.val) :
    reduce faces value = value := by
  unfold reduce
  rw [Nat.mod_eq_of_lt (by omega)]
  omega

instance : DiceSource Replay where
  roll faces replay :=
    (reduce faces replay.next, { replay with played := replay.played + 1 })
  one_le_roll faces replay := one_le_reduce faces replay.next
  roll_le_faces faces replay := reduce_le_faces faces replay.next

end Replay

end Tabletop
