import Mathlib.Data.List.Nodup
import Tabletop.Die

/-!
# Moves along the chain

A die on the chain is counted along it, and held at its two ends; any other stays. Two moves of a
die come out the same exactly when they lead to the same place of the chain, or when the die has
no place there.
-/
namespace Tabletop

namespace Chain

theorem nodup_sizes : sizes.Nodup := by decide

/-- The chain has two ends. -/
theorem two_le_maxSteps : 2 ≤ maxSteps := by decide

theorem shift_eq (place : Nat) (delta : Int) :
    shift place delta = min ((place : Int) + delta).toNat (maxSteps - 1) :=
  rfl

theorem shift_mono {a b : Int} (h : a ≤ b) (place : Nat) : shift place a ≤ shift place b := by
  rw [shift_eq, shift_eq]
  omega

/-- Between two moves to one place there is no move to another. -/
theorem shift_eq_of_between {low between high : Int} (hlow : low ≤ between) (hhigh : between ≤ high)
    {place : Nat} (h : shift place low = shift place high) :
    shift place between = shift place low := by
  apply Nat.le_antisymm
  · rw [h]
    exact shift_mono hhigh place
  · exact shift_mono hlow place

theorem lt_of_place?_eq_some {size place : Nat} (h : place? size = some place) :
    place < maxSteps := by
  obtain ⟨hlt, -⟩ := List.findIdx?_eq_some_iff_getElem.1 h
  exact hlt

theorem move_of_place?_eq_none {size : Nat} (h : place? size = none) (delta : Int) :
    move size delta = size := by
  rw [move, h]

theorem move_of_place?_eq_some {size place : Nat} (h : place? size = some place) (delta : Int) :
    move size delta = sizes.get ⟨shift place delta, shift_lt place delta⟩ := by
  rw [move, h]

theorem move_eq_move_iff (size : Nat) (a b : Int) :
    move size a = move size b ↔ ∀ place ∈ place? size, shift place a = shift place b := by
  cases hplace : place? size with
  | none => simp [move_of_place?_eq_none hplace]
  | some place =>
    rw [move_of_place?_eq_some hplace, move_of_place?_eq_some hplace, nodup_sizes.get_inj_iff,
      Fin.mk.injEq]
    constructor
    · intro h place' hp
      obtain rfl := Option.some.inj hp
      exact h
    · intro h
      exact h place rfl

end Chain

namespace Die

/-- Where on the chain the die stands, if it does. -/
def place? : Die → Option Nat
  | poly faces => Chain.place? faces.val
  | percentile => none

/-- The second die is so many steps along the chain from the first. -/
inductive Moved (steps : Int) : Die → Die → Prop
  | along {faces moved : Faces} {place target : Nat}
      (start : Chain.sizes[place]? = some faces.val)
      (held : (target : Int) = max 0 (min (place + steps) (Chain.sizes.length - 1)))
      (stop : Chain.sizes[target]? = some moved.val) : Moved steps (poly faces) (poly moved)
  | offChain {faces : Faces} (off : faces.val ∉ Chain.sizes) : Moved steps (poly faces) (poly faces)
  | percentile : Moved steps percentile percentile

theorem moved_move (die : Die) (steps : Int) : Moved steps die (die.move steps) := by
  cases die with
  | percentile => exact .percentile
  | poly faces =>
    show Moved steps (poly faces) (poly (faces.move steps))
    cases hplace : Chain.place? faces.val with
    | none =>
      have hstays : faces.move steps = faces :=
        Faces.ext_val (Chain.move_of_place?_eq_none hplace steps)
      rw [hstays]
      exact .offChain (List.idxOf?_eq_none_iff.1 hplace)
    | some place =>
      obtain ⟨hlt, hat, -⟩ := List.idxOf?_eq_some_iff.1 hplace
      have hmove := Chain.move_of_place?_eq_some hplace steps
      have hlength : Chain.sizes.length = Chain.maxSteps := rfl
      have hshift := Chain.shift_eq place steps
      refine .along (List.getElem?_eq_some_iff.2 ⟨hlt, hat⟩) ?_
        (List.getElem?_eq_some_iff.2 ⟨Chain.shift_lt place steps, hmove.symm⟩)
      omega

theorem lt_of_place?_eq_some {die : Die} {place : Nat} (h : die.place? = some place) :
    place < Chain.maxSteps := by
  cases die with
  | poly faces => exact Chain.lt_of_place?_eq_some h
  | percentile => contradiction

theorem move_eq_move_iff (die : Die) (a b : Int) :
    die.move a = die.move b ↔ ∀ place ∈ die.place?, Chain.shift place a = Chain.shift place b := by
  cases die with
  | percentile => simp [move, place?]
  | poly faces =>
    show poly (faces.move a) = poly (faces.move b) ↔ _
    rw [poly.injEq]
    refine Iff.trans ?_ (Chain.move_eq_move_iff faces.val a b)
    exact ⟨fun h => congrArg Faces.val h, fun h => Faces.ext_val h⟩

end Die

end Tabletop
