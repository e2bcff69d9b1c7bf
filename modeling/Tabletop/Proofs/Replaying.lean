import Tabletop.DiceSource.Replay
import Tabletop.Proofs.Totals

/-!
# Rolls of a recording

Rolling many dice from a recording gives its values from the place where it stands, round and
round, each reduced to the die. What dice with so many faces have shown is given back as it was.
-/
namespace Tabletop

namespace Replay

/-- The recorded value that a roll reads, by the number of rolls before it. -/
def valueAt (replay : Replay) (before : Nat) : Nat :=
  have : before % replay.draws.size < replay.draws.size := Nat.mod_lt _ replay.draws_ne
  replay.draws[before % replay.draws.size]

theorem rollMany_eq (faces : Faces) (n : Nat) (replay : Replay) :
    DiceSource.rollMany faces n replay =
      ((List.range n).map fun i => reduce faces (replay.valueAt (replay.played + i)),
        { replay with played := replay.played + n }) := by
  induction n generalizing replay with
  | zero => rfl
  | succ n ih =>
    have hnext : DiceSource.roll faces replay =
        (reduce faces (replay.valueAt replay.played), { replay with played := replay.played + 1 }) :=
      rfl
    have hrest : ∀ before, Replay.valueAt { replay with played := replay.played + 1 } before =
        replay.valueAt before := fun _ => rfl
    rw [DiceSource.rollMany, hnext]
    dsimp only
    rw [ih, List.range_succ_eq_map]
    simp only [hrest, List.map_cons, List.map_map, Nat.add_zero, Function.comp_def,
      Nat.succ_eq_add_one, Nat.add_assoc, Nat.add_comm 1]

theorem ofList?_eq_some_iff {draws : List Nat} {replay : Replay} :
    ofList? draws = some replay ↔ replay.draws = draws.toArray ∧ replay.played = 0 := by
  unfold ofList?
  split
  · next hne =>
    rw [Option.some.injEq]
    constructor
    · intro h
      rw [← h]
      exact ⟨rfl, rfl⟩
    · intro h
      obtain ⟨recorded, hrecorded, played⟩ := replay
      obtain ⟨rfl, rfl⟩ := h
      rfl
  · next hempty =>
    simp only [reduceCtorEq, false_iff]
    intro h
    have hne := replay.draws_ne
    rw [h.1] at hne
    exact hempty hne

/-- Past the end of the recording, it is read from the beginning again. -/
theorem getElem?_eq_valueAt {replay : Replay} {draws : List Nat} (hdraws : replay.draws = draws.toArray)
    (before : Nat) : draws[before % draws.length]? = some (replay.valueAt before) := by
  obtain ⟨_, hne, played⟩ := replay
  subst hdraws
  exact List.getElem?_eq_getElem (Nat.mod_lt before hne)

theorem valueAt_of_lt {replay : Replay} {draws : List Nat} (hdraws : replay.draws = draws.toArray)
    {place : Nat} (hplace : place < draws.length) : replay.valueAt place = draws[place] := by
  have hvalue := getElem?_eq_valueAt hdraws place
  rw [Nat.mod_eq_of_lt hplace, List.getElem?_eq_getElem hplace] at hvalue
  exact (Option.some.inj hvalue).symm

/-- What dice have shown comes up again on dice of their kind, once all that was recorded before it
is played. -/
theorem rollMany_of_recorded {faces : Faces} {before rolls after : List Nat} {replay : Replay}
    (hdraws : replay.draws = (before ++ rolls ++ after).toArray) (hplayed : replay.played = before.length)
    (hrolls : faces.CanShow rolls) : DiceSource.rollMany faces rolls.length replay =
      (rolls, { replay with played := (before ++ rolls).length }) := by
  rw [rollMany_eq, List.length_append, hplayed]
  congr 1
  refine List.ext_getElem (by simp) ?_
  intro i _ hi
  have hplace : before.length + i < (before ++ rolls ++ after).length := by
    simp only [List.length_append]
    omega
  have hvalue : replay.valueAt (before.length + i) = rolls[i] := by
    rw [valueAt_of_lt hdraws hplace, List.getElem_append_left (by simp only [List.length_append]; omega),
      List.getElem_append_right (Nat.le_add_right _ _)]
    simp only [Nat.add_sub_cancel_left]
  have hshown := hrolls rolls[i] (List.getElem_mem hi)
  simp only [List.getElem_map, List.getElem_range, hvalue]
  exact reduce_of_le hshown.1 hshown.2

theorem rollMany_of_canShow {faces : Faces} {rolls : List Nat} {replay : Replay}
    (hreplay : ofList? rolls = some replay) (hrolls : faces.CanShow rolls) :
    (DiceSource.rollMany faces rolls.length replay).1 = rolls := by
  obtain ⟨hdraws, hplayed⟩ := ofList?_eq_some_iff.1 hreplay
  have hwhole : replay.draws = ([] ++ rolls ++ []).toArray := by
    rw [hdraws, List.append_nil, List.nil_append]
  rw [rollMany_of_recorded hwhole hplayed hrolls]

end Replay

end Tabletop
