import Mathlib.Data.List.FinRange
import Tabletop.Proofs.Kept
import Tabletop.Proofs.StableSort

/-!
# Which dice are kept

Whether a die is kept is told here without sorting, by how many of the other dice rank below it or
above it. Of dice that show the same, the one that fell earlier ranks lower.
-/
namespace Tabletop.Selection

/-! ## Ranks -/

/-- The die at place `j` ranks below the one at place `i`: it shows less, or as much and fell
earlier. -/
def RanksBelow (rolls : List Nat) (j i : Fin rolls.length) : Prop :=
  rolls[j] < rolls[i] ∨ rolls[j] = rolls[i] ∧ j < i

instance (rolls : List Nat) (j i : Fin rolls.length) : Decidable (RanksBelow rolls j i) :=
  inferInstanceAs (Decidable (_ ∨ _))

/-- How many dice rank below the one at place `i`. -/
def countBelow (rolls : List Nat) (i : Fin rolls.length) : Nat :=
  (List.finRange rolls.length).countP fun j => decide (RanksBelow rolls j i)

/-- How many dice rank above the one at place `i`. -/
def countAbove (rolls : List Nat) (i : Fin rolls.length) : Nat :=
  (List.finRange rolls.length).countP fun j => decide (RanksBelow rolls i j)

theorem RanksBelow.asymm {rolls : List Nat} {i j : Fin rolls.length} (h : RanksBelow rolls i j) :
    ¬ RanksBelow rolls j i := by
  unfold RanksBelow at *
  omega

/-- The places of the dice, from the lowest rank to the highest. -/
def ranking (rolls : List Nat) : List (Fin rolls.length) :=
  (List.finRange rolls.length).mergeSort fun i j => rolls[i] ≤ rolls[j]

theorem ranking_perm (rolls : List Nat) : (ranking rolls).Perm (List.finRange rolls.length) :=
  List.mergeSort_perm _ _

theorem pairwise_ranking (rolls : List Nat) : (ranking rolls).Pairwise (RanksBelow rolls) := by
  have htrans : ∀ i j k : Fin rolls.length, decide (rolls[i] ≤ rolls[j]) = true →
      decide (rolls[j] ≤ rolls[k]) = true → decide (rolls[i] ≤ rolls[k]) = true := by
    intro i j k hij hjk
    rw [decide_eq_true_iff] at *
    omega
  have htotal : ∀ i j : Fin rolls.length,
      (decide (rolls[i] ≤ rolls[j]) || decide (rolls[j] ≤ rolls[i])) = true := by
    intro i j
    rw [Bool.or_eq_true, decide_eq_true_iff, decide_eq_true_iff]
    omega
  refine (StableSort.pairwise_mergeSort_and htrans htotal
    (List.pairwise_lt_finRange rolls.length)).imp ?_
  intro i j h
  obtain ⟨hle, htied⟩ := h
  rw [decide_eq_true_iff] at hle htied
  unfold RanksBelow
  by_cases hlt : rolls[i] < rolls[j]
  · exact .inl hlt
  · exact .inr ⟨by omega, htied (by omega)⟩

theorem placesByValue_eq_map_ranking (rolls : List Nat) :
    placesByValue rolls = (ranking rolls).map Fin.val := by
  have hplaced : (List.finRange rolls.length).map (fun i => (rolls[i], i.val)) = rolls.zipIdx :=
    List.ext_getElem (by simp) (by simp)
  have hsorted : (ranking rolls).map (fun i => (rolls[i], i.val)) = placedByValue rolls := by
    rw [placedByValue, ← hplaced]
    exact List.map_mergeSort fun _ _ _ _ => rfl
  show (placedByValue rolls).map Prod.snd = _
  rw [← hsorted, List.map_map]
  rfl

/-- Before a die in the ranking stand those that rank below it, and behind it those above. -/
theorem exists_ranking_eq (rolls : List Nat) (i : Fin rolls.length) : ∃ lower higher,
    ranking rolls = lower ++ i :: higher ∧ i ∉ lower ∧
      lower.length = countBelow rolls i ∧ higher.length = countAbove rolls i := by
  have hmem : i ∈ ranking rolls := (ranking_perm rolls).mem_iff.2 (List.mem_finRange i)
  obtain ⟨lower, higher, hsplit⟩ := List.append_of_mem hmem
  have hpairwise := pairwise_ranking rolls
  rw [hsplit, List.pairwise_append, List.pairwise_cons] at hpairwise
  obtain ⟨-, ⟨hbehind, -⟩, hacross⟩ := hpairwise
  have hbefore : ∀ j ∈ lower, RanksBelow rolls j i := fun j hj => hacross j hj i List.mem_cons_self
  have hself : ¬ RanksBelow rolls i i := fun h => h.asymm h
  have hbelow : countBelow rolls i = lower.length := by
    rw [countBelow, ← (ranking_perm rolls).countP_eq, hsplit, List.countP_append,
      List.countP_cons_of_neg (by simpa using hself),
      List.countP_eq_length.2 (by simpa using hbefore),
      List.countP_eq_zero.2 (by simpa using fun j hj => (hbehind j hj).asymm), Nat.add_zero]
  have habove : countAbove rolls i = higher.length := by
    rw [countAbove, ← (ranking_perm rolls).countP_eq, hsplit, List.countP_append,
      List.countP_cons_of_neg (by simpa using hself),
      List.countP_eq_zero.2 (by simpa using fun j hj => (hbefore j hj).asymm),
      List.countP_eq_length.2 (by simpa using hbehind), Nat.zero_add]
  exact ⟨lower, higher, hsplit, fun h => hself (hbefore i h), hbelow.symm, habove.symm⟩

theorem length_ranking (rolls : List Nat) : (ranking rolls).length = rolls.length := by
  rw [(ranking_perm rolls).length_eq, List.length_finRange]

theorem countBelow_add_countAbove (rolls : List Nat) (i : Fin rolls.length) :
    countBelow rolls i + countAbove rolls i + 1 = rolls.length := by
  obtain ⟨lower, higher, hsplit, -, hbelow, habove⟩ := exists_ranking_eq rolls i
  have hlength := length_ranking rolls
  rw [hsplit, List.length_append, List.length_cons] at hlength
  omega

theorem mem_take_ranking_iff (rolls : List Nat) (i : Fin rolls.length) (size : Nat) :
    i ∈ (ranking rolls).take size ↔ countBelow rolls i < size := by
  have hmem : i ∈ ranking rolls := (ranking_perm rolls).mem_iff.2 (List.mem_finRange i)
  obtain ⟨lower, higher, hsplit, hlower, hbelow, -⟩ := exists_ranking_eq rolls i
  rw [List.mem_take_iff_idxOf_lt hmem, hsplit, List.idxOf_append_of_notMem hlower,
    List.idxOf_cons_self, Nat.add_zero, hbelow]

theorem mem_drop_ranking_iff (rolls : List Nat) (i : Fin rolls.length) (size : Nat) :
    i ∈ (ranking rolls).drop size ↔ size ≤ countBelow rolls i := by
  have hmem : i ∈ ranking rolls := (ranking_perm rolls).mem_iff.2 (List.mem_finRange i)
  have hnodup : (ranking rolls).Nodup :=
    (ranking_perm rolls).nodup_iff.2 (List.nodup_finRange rolls.length)
  have hone : i ∈ (ranking rolls).drop size ↔ i ∉ (ranking rolls).take size := by
    constructor
    · intro hdrop htake
      exact List.disjoint_take_drop hnodup (Nat.le_refl size) htake hdrop
    · intro hnot
      rw [← List.take_append_drop size (ranking rolls), List.mem_append] at hmem
      exact hmem.resolve_left hnot
  rw [hone, mem_take_ranking_iff, Nat.not_lt]

/-! ## Flags -/

/-- Where each place of the ranking is told to be chosen or not, so are the flags. -/
theorem flags_eq_map_of_mem_iff {selection : Selection} {rolls : List Nat}
    {p : Fin rolls.length → Prop} [DecidablePred p]
    (h : ∀ i, i ∈ selection.choose (ranking rolls) ↔ p i) :
    selection.flags rolls = (List.finRange rolls.length).map fun i => decide (p i) := by
  rw [flags, raise_eq_map, placesByValue_eq_map_ranking, choose_map,
    ← List.map_coe_finRange_eq_range, List.map_map]
  refine List.map_congr_left ?_
  intro i _
  exact decide_eq_decide.2 ((List.mem_map_of_injective Fin.val_injective).trans (h i))

theorem flags_keepAll (rolls : List Nat) : keepAll.flags rolls = List.replicate rolls.length true := by
  have hall : ∀ i, i ∈ keepAll.choose (ranking rolls) ↔ True := by
    intro i
    exact iff_true_intro ((ranking_perm rolls).mem_iff.2 (List.mem_finRange i))
  rw [flags_eq_map_of_mem_iff hall, List.map_const', List.length_finRange]
  rfl

theorem flags_keepHighest (count : Count) (rolls : List Nat) : (keepHighest count).flags rolls =
    (List.finRange rolls.length).map fun i => decide (countAbove rolls i < count.val) := by
  refine flags_eq_map_of_mem_iff ?_
  intro i
  have hcounts := countBelow_add_countAbove rolls i
  rw [choose, length_ranking, mem_drop_ranking_iff]
  omega

theorem flags_keepLowest (count : Count) (rolls : List Nat) : (keepLowest count).flags rolls =
    (List.finRange rolls.length).map fun i => decide (countBelow rolls i < count.val) := by
  refine flags_eq_map_of_mem_iff ?_
  intro i
  have hcounts := countBelow_add_countAbove rolls i
  rw [choose, length_ranking, mem_take_ranking_iff]
  omega

theorem flags_dropLowest (count : Count) (rolls : List Nat) : (dropLowest count).flags rolls =
    (List.finRange rolls.length).map fun i =>
      decide (min count.val (rolls.length - 1) ≤ countBelow rolls i) := by
  refine flags_eq_map_of_mem_iff ?_
  intro i
  rw [choose, length_ranking, mem_drop_ranking_iff]

theorem getElem?_map_decide_iff {length : Nat} (p : Fin length → Prop) [DecidablePred p]
    (i : Fin length) :
    ((List.finRange length).map fun i => decide (p i))[i.val]? = some true ↔ p i := by
  rw [List.getElem?_map, List.getElem?_eq_getElem (by simp)]
  simp

/-- To drop the lowest dice is to keep the highest of them, as many as are left. -/
theorem flags_dropLowest_eq_keepHighest {count kept : Count} {rolls : List Nat}
    (hkept : kept.val = rolls.length - min count.val (rolls.length - 1)) :
    (dropLowest count).flags rolls = (keepHighest kept).flags rolls := by
  rw [flags_dropLowest, flags_keepHighest]
  refine List.map_congr_left ?_
  intro i _
  have hcounts := countBelow_add_countAbove rolls i
  exact decide_eq_decide.2 (by omega)

/-- Where dice are left to be kept, those that are dropped are those that would have been kept as
the lowest. -/
theorem flags_dropLowest_eq_not {count : Count} {rolls : List Nat}
    (hcount : count.val < rolls.length) :
    (dropLowest count).flags rolls = ((keepLowest count).flags rolls).map (!·) := by
  rw [flags_dropLowest, flags_keepLowest, List.map_map]
  refine List.map_congr_left ?_
  intro i _
  have hother : min count.val (rolls.length - 1) ≤ countBelow rolls i ↔
      ¬ countBelow rolls i < count.val := by
    omega
  rw [Function.comp, decide_eq_decide.2 hother, decide_not]

/-- There is a flag for each roll. Of the highest dice those are kept above which fewer rank than
are to be kept, of the lowest those below which fewer rank; where the lowest are dropped, those are
kept below which as many rank as are to be dropped, or all others. So dropping the lowest dice is
keeping the highest, as many as are left, and it spares what is not among the lowest. -/
theorem flags_by_rank (rolls : List Nat) (count : Count) :
    (∀ selection : Selection, (selection.flags rolls).length = rolls.length) ∧
    (∀ i : Fin rolls.length,
      (((keepHighest count).flags rolls)[i.val]? = some true ↔
        countAbove rolls i < count.val) ∧
      (((keepLowest count).flags rolls)[i.val]? = some true ↔
        countBelow rolls i < count.val) ∧
      (((dropLowest count).flags rolls)[i.val]? = some true ↔
        min count.val (rolls.length - 1) ≤ countBelow rolls i)) ∧
    (∀ kept : Count, kept.val = rolls.length - min count.val (rolls.length - 1) →
      (dropLowest count).flags rolls = (keepHighest kept).flags rolls) ∧
    (count.val < rolls.length →
      (dropLowest count).flags rolls = ((keepLowest count).flags rolls).map (!·)) := by
  refine ⟨fun selection => selection.length_flags rolls, ?_,
    fun _ => flags_dropLowest_eq_keepHighest, flags_dropLowest_eq_not⟩
  intro i
  rw [flags_keepHighest, flags_keepLowest, flags_dropLowest]
  exact ⟨getElem?_map_decide_iff _ i, getElem?_map_decide_iff _ i, getElem?_map_decide_iff _ i⟩

/-- Three fives and two twos; of the fives the first ranks lowest. -/
def fivesAndTwos : List Nat := [5, 2, 5, 2, 5]

theorem flags_by_rank_of_fivesAndTwos : ∃ three two : Count, three.val = 3 ∧
    two.val = fivesAndTwos.length - min three.val (fivesAndTwos.length - 1) ∧
    three.val < fivesAndTwos.length ∧
    (dropLowest three).flags fivesAndTwos = (keepHighest two).flags fivesAndTwos ∧
    (dropLowest three).flags fivesAndTwos = ((keepLowest three).flags fivesAndTwos).map (!·) ∧
    (dropLowest three).flags fivesAndTwos = [false, false, true, false, true] := by
  let three : Count := ⟨3, by decide, by decide⟩
  let two : Count := ⟨2, by decide, by decide⟩
  obtain ⟨-, -, hhighest, hlowest⟩ := flags_by_rank fivesAndTwos three
  have hkept : two.val = fivesAndTwos.length - min three.val (fivesAndTwos.length - 1) := by decide
  have hleft : three.val < fivesAndTwos.length := by decide
  refine ⟨three, two, rfl, hkept, hleft, hhighest two hkept, hlowest hleft, ?_⟩
  rw [flags_dropLowest]
  decide

end Tabletop.Selection
