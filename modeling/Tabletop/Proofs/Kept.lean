import Mathlib.Data.List.Nodup
import Mathlib.Data.List.Perm.Basic
import Tabletop.Hand

/-!
# The dice that are kept

The flags of a hand say which dice count by their places. What counts in the end is their values:
those that the selection chooses of the values in ascending order.
-/
namespace Tabletop

namespace Selection

/-! ## Choosing -/

theorem choose_map {α β : Type} (f : α → β) (selection : Selection) (order : List α) :
    selection.choose (order.map f) = (selection.choose order).map f := by
  cases selection with
  | keepAll => rfl
  | keepHighest count => simp only [choose, List.length_map, List.map_drop]
  | keepLowest count => simp only [choose, List.length_map, List.map_take]
  | dropLowest count => simp only [choose, List.length_map, List.map_drop]

theorem choose_sublist {α : Type} (selection : Selection) (order : List α) :
    (selection.choose order).Sublist order := by
  cases selection with
  | keepAll => exact List.Sublist.refl _
  | keepHighest count => exact List.drop_sublist _ _
  | keepLowest count => exact List.take_sublist _ _
  | dropLowest count => exact List.drop_sublist _ _

theorem keptCount_le (selection : Selection) (size : Nat) : selection.keptCount size ≤ size := by
  cases selection with
  | keepAll => exact Nat.le_refl _
  | keepHighest count => exact Nat.min_le_right _ _
  | keepLowest count => exact Nat.min_le_right _ _
  | dropLowest count => exact Nat.sub_le _ _

/-! ## Flags by place -/

private theorem getElem?_foldl_raise (chosen : List Nat) (raised : Array Bool) (i : Nat) :
    (chosen.foldl (fun raised place => raised.setIfInBounds place true) raised)[i]? =
      raised[i]?.map fun flag => flag || decide (i ∈ chosen) := by
  induction chosen generalizing raised with
  | nil => simp
  | cons place chosen ih =>
    rw [List.foldl_cons, ih, Array.getElem?_setIfInBounds]
    by_cases hplace : place = i
    · subst hplace
      by_cases hlt : place < raised.size
      · simp [hlt]
      · simp [hlt]
    · have hne : ¬ i = place := fun h => hplace h.symm
      simp [hplace, hne]

theorem raise_eq_map (size : Nat) (chosen : List Nat) :
    raise size chosen = (List.range size).map fun i => decide (i ∈ chosen) := by
  apply List.ext_getElem?
  intro i
  rw [raise, Array.getElem?_toList, getElem?_foldl_raise]
  by_cases hi : i < size
  · simp [hi]
  · simp [hi]

/-- The rolls with their places, in ascending order of their values. -/
def placedByValue (rolls : List Nat) : List (Nat × Nat) :=
  rolls.zipIdx.mergeSort fun a b => a.1 ≤ b.1

theorem placedByValue_perm (rolls : List Nat) : (placedByValue rolls).Perm rolls.zipIdx :=
  List.mergeSort_perm _ _

theorem map_fst_placedByValue (rolls : List Nat) :
    (placedByValue rolls).map Prod.fst = rolls.mergeSort (· ≤ ·) := by
  have h : (placedByValue rolls).map Prod.fst = (rolls.zipIdx.map Prod.fst).mergeSort (· ≤ ·) :=
    List.map_mergeSort fun a _ b _ => rfl
  rwa [List.zipIdx_map_fst] at h

theorem nodup_map_snd_placedByValue (rolls : List Nat) :
    ((placedByValue rolls).map Prod.snd).Nodup := by
  rw [((placedByValue_perm rolls).map Prod.snd).nodup_iff, List.zipIdx_map_snd]
  exact List.nodup_range'

/-- The chosen rolls with their places. -/
def chosen (selection : Selection) (rolls : List Nat) : List (Nat × Nat) :=
  selection.choose (placedByValue rolls)

theorem flags_eq_map (selection : Selection) (rolls : List Nat) : selection.flags rolls =
    (List.range rolls.length).map fun i => decide (i ∈ (selection.chosen rolls).map Prod.snd) := by
  rw [flags, raise_eq_map, chosen, ← choose_map]
  rfl

theorem length_flags (selection : Selection) (rolls : List Nat) :
    (selection.flags rolls).length = rolls.length := by
  rw [flags_eq_map, List.length_map, List.length_range]

/-- What is picked from a list without repeated keys can be told by the keys. -/
private theorem filter_key_mem_eq {α β : Type} [DecidableEq β] (key : α → β) {picked all : List α}
    (h : picked.Sublist all) (hnodup : (all.map key).Nodup) :
    all.filter (fun a => decide (key a ∈ picked.map key)) = picked := by
  induction h with
  | slnil => rfl
  | @cons picked all a hsub ih =>
    obtain ⟨hnew, hrest⟩ := List.nodup_cons.1 hnodup
    have hnot : key a ∉ picked.map key := fun hmem => hnew ((hsub.map key).subset hmem)
    rw [List.filter_cons_of_neg (by simpa using hnot), ih hrest]
  | @cons_cons picked all a hsub ih =>
    obtain ⟨hnew, hrest⟩ := List.nodup_cons.1 hnodup
    rw [List.filter_cons_of_pos (by simp)]
    congr 1
    refine Eq.trans (List.filter_congr ?_) (ih hrest)
    intro b hb
    have hne : key b ≠ key a := fun heq => hnew (heq ▸ List.mem_map_of_mem hb)
    simp [hne]

end Selection

namespace Hand

open Selection

theorem throws_ofRolls (rolls : List Nat) (die : Die) (selection : Selection)
    (modifier : Option Modifier) : (ofRolls rolls die selection modifier).throws =
      rolls.zipIdx.map fun placed =>
        ⟨placed.1, decide (placed.2 ∈ (selection.chosen rolls).map Prod.snd)⟩ := by
  show List.zipWith Throw.mk rolls (selection.flags rolls) = _
  rw [flags_eq_map, List.zipWith_map_right, List.zipIdx_eq_zip_range', ← List.range_eq_range',
    List.map_zip_eq_zipWith]
  rfl

theorem rolled_ofRolls (rolls : List Nat) (die : Die) (selection : Selection)
    (modifier : Option Modifier) : (ofRolls rolls die selection modifier).rolled = rolls := by
  rw [rolled, throws_ofRolls, List.map_map]
  exact List.zipIdx_map_fst 0 rolls

/-- The throws are the rolls with their flags, side by side. -/
theorem throws_ofRolls_eq_map_zip (rolls : List Nat) (die : Die) (selection : Selection)
    (modifier : Option Modifier) : (ofRolls rolls die selection modifier).throws =
      (rolls.zip (selection.flags rolls)).map fun marked => ⟨marked.1, marked.2⟩ :=
  List.map_uncurry_zip_eq_zipWith.symm

theorem map_kept_throws_ofRolls (rolls : List Nat) (die : Die) (selection : Selection)
    (modifier : Option Modifier) :
    (ofRolls rolls die selection modifier).throws.map Throw.kept = selection.flags rolls := by
  rw [throws_ofRolls_eq_map_zip, List.map_map]
  exact List.map_snd_zip (Nat.le_of_eq (selection.length_flags rolls))

/-- The values of the dice that count are those the selection chooses from the ascending values. -/
theorem kept_ofRolls_perm (rolls : List Nat) (die : Die) (selection : Selection)
    (modifier : Option Modifier) :
    (ofRolls rolls die selection modifier).kept.Perm (selection.choose (rolls.mergeSort (· ≤ ·))) := by
  have hkept : (ofRolls rolls die selection modifier).kept =
      (rolls.zipIdx.filter fun placed =>
        decide (placed.2 ∈ (selection.chosen rolls).map Prod.snd)).map Prod.fst := by
    rw [kept, throws_ofRolls, List.filter_map, List.map_map]
    rfl
  have hchosen : ((placedByValue rolls).filter fun placed =>
      decide (placed.2 ∈ (selection.chosen rolls).map Prod.snd)) = selection.chosen rolls :=
    filter_key_mem_eq Prod.snd (selection.choose_sublist _) (nodup_map_snd_placedByValue rolls)
  rw [hkept, ← map_fst_placedByValue, choose_map]
  refine List.Perm.map Prod.fst ?_
  refine ((placedByValue_perm rolls).symm.filter _).trans ?_
  rw [hchosen]
  exact List.Perm.refl _

end Hand

end Tabletop
