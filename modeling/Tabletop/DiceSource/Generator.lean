import Tabletop.DiceSource

/-!
# Rolls from a pseudorandom generator

The standard generator as a source of dice, for play at the console.
-/
namespace Tabletop

instance : DiceSource StdGen where
  roll faces generator :=
    let (value, generator) := randNat generator 0 (faces.val - 1)
    (value % faces.val + 1, generator)
  one_le_roll _ _ := Nat.le_add_left 1 _
  roll_le_faces faces _ := Nat.mod_lt _ faces.one_le

end Tabletop
