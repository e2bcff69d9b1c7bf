import Tabletop.Expression
import Tabletop.Proofs.Chain

/-!
# Moves one after the other

What two moves come to is told by the places of the chain alone: a move takes the place of a size
to the place so many steps away, and holds it at the two ends. So moves in one direction add up, a
move that was not held is taken back by its opposite, and a net that is cut at the length of the
chain leads to the die to which the whole number of steps would lead.
-/
namespace Tabletop

namespace Chain

theorem place?_get (place : Fin sizes.length) : place? (sizes.get place) = some place.val := by
  revert place
  decide

/-- The chain ascends. -/
theorem get_le_get {first second : Fin sizes.length} (h : first ≤ second) :
    sizes.get first ≤ sizes.get second := by
  revert first second
  decide

theorem place?_eq_some_iff (size place : Nat) :
    place? size = some place ↔ sizes[place]? = some size := by
  constructor
  · intro h
    obtain ⟨hlt, hat, -⟩ := List.idxOf?_eq_some_iff.1 h
    exact List.getElem?_eq_some_iff.2 ⟨hlt, hat⟩
  · intro h
    obtain ⟨hlt, rfl⟩ := List.getElem?_eq_some_iff.1 h
    exact place?_get ⟨place, hlt⟩

/-- From a place of the chain a move leads so many places away. -/
theorem getElem?_shift {size place : Nat} (h : sizes[place]? = some size) (delta : Int) :
    sizes[shift place delta]? = some (move size delta) := by
  rw [move_of_place?_eq_some ((place?_eq_some_iff size place).2 h)]
  exact List.getElem?_eq_getElem (shift_lt place delta)

/-- All that a move does to the place of a size. -/
theorem place?_move (size : Nat) (delta : Int) :
    place? (move size delta) = (place? size).map fun place => shift place delta := by
  cases hplace : place? size with
  | none => rw [move_of_place?_eq_none hplace, hplace, Option.map_none]
  | some place => rw [move_of_place?_eq_some hplace, place?_get, Option.map_some]

theorem isOn_move (size : Nat) (delta : Int) : isOn (move size delta) = isOn size := by
  rw [isOn, place?_move, Option.isSome_map, isOn]

theorem move_of_not_isOn {size : Nat} (h : isOn size = false) (delta : Int) :
    move size delta = size := by
  apply move_of_place?_eq_none
  rwa [isOn, Option.isSome_eq_false_iff, Option.isNone_iff_eq_none] at h

/-- More steps lead to no smaller size. -/
theorem move_mono {a b : Int} (h : a ≤ b) (size : Nat) : move size a ≤ move size b := by
  cases hplace : place? size with
  | none =>
    apply Nat.le_of_eq
    rw [move_of_place?_eq_none hplace, move_of_place?_eq_none hplace]
  | some place =>
    rw [move_of_place?_eq_some hplace, move_of_place?_eq_some hplace]
    exact get_le_get (shift_mono h place)

theorem shift_zero {place : Nat} (h : place < maxSteps) : shift place 0 = place := by
  rw [shift_eq]
  omega

theorem move_zero (size : Nat) : move size 0 = size := by
  cases hplace : place? size with
  | none => exact move_of_place?_eq_none hplace 0
  | some place =>
    obtain ⟨hlt, hat, -⟩ := List.idxOf?_eq_some_iff.1 hplace
    rw [move_of_place?_eq_some hplace, ← hat]
    simp only [shift_zero hlt]
    rfl

theorem move_move_eq_iff (size : Nat) (a b c : Int) :
    move (move size a) b = move size c ↔
      ∀ place ∈ place? size, shift (shift place a) b = shift place c := by
  cases hplace : place? size with
  | none => simp [move_of_place?_eq_none hplace]
  | some place =>
    have hmoved : place? (move size a) = some (shift place a) := by
      rw [place?_move, hplace, Option.map_some]
    rw [move_of_place?_eq_some hmoved, move_of_place?_eq_some hplace, nodup_sizes.get_inj_iff,
      Fin.mk.injEq]
    simp

/-- The move would lead past an end of the chain, and is cut off there. -/
def IsCutOff (size : Nat) (delta : Int) : Prop :=
  ∃ place ∈ place? size, (place : Int) + delta < 0 ∨ (sizes.length : Int) ≤ place + delta

instance (size : Nat) (delta : Int) : Decidable (IsCutOff size delta) :=
  inferInstanceAs (Decidable (∃ place ∈ place? size, _ ∨ _))

/-- Moves in one direction add up. -/
theorem move_move {a b : Int} (h : (0 ≤ a ∧ 0 ≤ b) ∨ (a ≤ 0 ∧ b ≤ 0)) (size : Nat) :
    move (move size a) b = move size (a + b) := by
  rw [move_move_eq_iff]
  intro place hplace
  have hbound := lt_of_place?_eq_some hplace
  rw [shift_eq, shift_eq, shift_eq]
  omega

/-- The opposite move leads back, unless steps were lost at an end. -/
theorem move_neg_move {size : Nat} {a : Int} (h : ¬ IsCutOff size a) :
    move (move size a) (-a) = size := by
  have hback : move (move size a) (-a) = move size 0 := by
    rw [move_move_eq_iff]
    intro place hplace
    have hbound := lt_of_place?_eq_some hplace
    have hinside : ¬ ((place : Int) + a < 0 ∨ (sizes.length : Int) ≤ place + a) :=
      fun hout => h ⟨place, hplace, hout⟩
    have hlength : sizes.length = maxSteps := rfl
    rw [shift_eq, shift_eq, shift_eq]
    omega
  rw [hback, move_zero]

/-- No size is further from an end than the greatest net either way. -/
theorem shift_clamp {place : Nat} (h : place < maxSteps) (steps : Int) :
    shift place (Step.clamp steps).val = shift place steps := by
  have hval : (Step.clamp steps).val = max (-(maxSteps : Int)) (min steps maxSteps) := rfl
  rw [shift_eq, shift_eq, hval]
  omega

end Chain

namespace Die

theorem move_zero (die : Die) : die.move 0 = die := by
  cases die with
  | percentile => rfl
  | poly faces =>
    have hfaces : faces.move 0 = faces := Faces.ext_val (Chain.move_zero faces.val)
    exact congrArg poly hfaces

theorem move_eq_self_iff (die : Die) (steps : Int) :
    die.move steps = die ↔ ∀ place ∈ die.place?, Chain.shift place steps = place := by
  have hstays := die.move_eq_move_iff steps 0
  rw [move_zero] at hstays
  rw [hstays]
  apply forall₂_congr
  intro place hplace
  rw [Chain.shift_zero (lt_of_place?_eq_some hplace)]

theorem move_clamp (die : Die) (steps : Int) : die.move (Step.clamp steps).val = die.move steps := by
  rw [move_eq_move_iff]
  intro place hplace
  exact Chain.shift_clamp (lt_of_place?_eq_some hplace) steps

end Die

namespace Chain

/-- Moves lead so many places along the chain, held at its ends. They act on the sizes of the chain
and on no others, in the order of the sizes; those in one direction add up, and one that is not cut
off is taken back by its opposite. The die of an expression whose net is held at the length of the
chain is the one that all its steps lead to. -/
theorem moves_act_on_the_chain :
    (∀ (size place : Nat) (a : Int), sizes[place]? = some size →
      sizes[min ((place : Int) + a).toNat (sizes.length - 1)]? = some (move size a)) ∧
    (∀ (size : Nat) (a : Int),
      place? (move size a) = (place? size).map fun place => shift place a) ∧
    (∀ (size : Nat) (a : Int), (isOn (move size a) = true ↔ isOn size = true) ∧
      (isOn size = false → move size a = size)) ∧
    (∀ (size : Nat) (a b : Int), a ≤ b → move size a ≤ move size b) ∧
    (∀ (size : Nat) (a b : Int), (0 ≤ a ∧ 0 ≤ b) ∨ (a ≤ 0 ∧ b ≤ 0) →
      move (move size a) b = move size (a + b)) ∧
    (∀ (size : Nat) (a : Int), ¬ IsCutOff size a → move (move size a) (-a) = size) ∧
    ∀ (e : Expression) (steps : Int),
      { e with step := Step.clamp steps }.movedDie = e.die.move steps := by
  refine ⟨fun size place a h => getElem?_shift h a, place?_move, ?_,
    fun size a b h => move_mono h size, fun size a b h => move_move h size,
    fun size a h => move_neg_move h, fun e steps => e.die.move_clamp steps⟩
  intro size a
  rw [isOn_move]
  exact ⟨Iff.rfl, fun h => move_of_not_isOn h a⟩

/-- One step up from the d20, moves at the limits of 32 bits, and the longest move from the d7 that
is not cut off. -/
theorem moves_act_on_the_chain_at_the_limits :
    (sizes[10]? = some 20 ∧ sizes[11]? = some (move 20 1) ∧ move 20 1 = 24 ∧
      place? (move 20 1) = some 11) ∧
    (isOn 9 = false ∧ move 9 2147483647 = 9) ∧
    ((-2147483648 : Int) ≤ 2147483647 ∧ move 4 (-2147483648) ≤ move 4 2147483647) ∧
    (((-2147483647 : Int) ≤ 0 ∧ (-1 : Int) ≤ 0) ∧
      move (move 24 (-2147483647)) (-1) = move 24 (-2147483647 + -1)) ∧
    ¬ IsCutOff 7 8 ∧ IsCutOff 7 9 ∧ move (move 7 8) (-8) = 7 := by
  obtain ⟨hleads, hplace, hon, hmono, hadd, hback, -⟩ := moves_act_on_the_chain
  have hleast : (-2147483648 : Int) ≤ 2147483647 := by decide
  have hdown : (-2147483647 : Int) ≤ 0 ∧ (-1 : Int) ≤ 0 := by decide
  have hinside : ¬ IsCutOff 7 8 := by decide
  exact ⟨⟨rfl, hleads 20 10 1 rfl, rfl, hplace 20 1⟩, ⟨rfl, (hon 9 2147483647).2 rfl⟩,
    ⟨hleast, hmono 4 _ _ hleast⟩, ⟨hdown, hadd 24 _ _ (.inr hdown)⟩, hinside, by decide,
    hback 7 8 hinside⟩

end Chain

end Tabletop
