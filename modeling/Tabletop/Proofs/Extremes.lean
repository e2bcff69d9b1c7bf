import Mathlib.Algebra.Order.BigOperators.Group.List
import Mathlib.Algebra.Order.Group.Nat
import Mathlib.Data.List.Sort
import Mathlib.Order.Bounds.Defs
import Tabletop.Proofs.Totals

/-!
# Subtotals as extremes

The subtotal of a selection is told here by all ways to choose so many of the dice: it is the
greatest sum that can be chosen, or the least. So it does not matter in which order the dice fell,
and no die that shows more makes a total less.
-/
namespace Tabletop

namespace Selection

/-- The sums of so many of the dice. -/
def sumsOf (rolls : List Nat) (size : Nat) : Set Int :=
  {sum | ∃ chosen : List Nat, chosen.Sublist rolls ∧ chosen.length = size ∧ sum = chosen.sum}

/-! ## Choices from sorted dice -/

/-- One by one, the first of a sorted list come before any others that are chosen from it. -/
theorem forall₂_take_of_sublist {α : Type} {R : α → α → Prop} (hrefl : ∀ a, R a a)
    {order chosen : List α} (hsorted : order.Pairwise R) (h : chosen.Sublist order) :
    List.Forall₂ R (order.take chosen.length) chosen := by
  induction order generalizing chosen with
  | nil =>
    obtain rfl := List.sublist_nil.1 h
    exact .nil
  | cons first order ih =>
    obtain ⟨hfirst, hrest⟩ := List.pairwise_cons.1 hsorted
    cases chosen with
    | nil => exact .nil
    | cons a chosen =>
      cases h with
      | cons _ h =>
        exact .cons (hfirst a (h.subset List.mem_cons_self))
          (ih hrest ((List.sublist_cons_self a chosen).trans h))
      | cons_cons _ h => exact .cons (hrefl first) (ih hrest h)

/-- What is chosen from one list has a counterpart in the other, at the same places. -/
theorem exists_sublist_of_forall₂ {α : Type} {R : α → α → Prop} {first second : List α}
    (h : List.Forall₂ R first second) {chosen : List α} (hsub : chosen.Sublist first) :
    ∃ counterpart : List α, counterpart.Sublist second ∧ List.Forall₂ R chosen counterpart := by
  induction h generalizing chosen with
  | nil =>
    obtain rfl := List.sublist_nil.1 hsub
    exact ⟨[], .slnil, .nil⟩
  | @cons a b first second hab _ ih =>
    cases hsub with
    | cons _ hsub =>
      obtain ⟨counterpart, hcounterpart, hall⟩ := ih hsub
      exact ⟨counterpart, hcounterpart.cons b, hall⟩
    | cons_cons _ hsub =>
      obtain ⟨counterpart, hcounterpart, hall⟩ := ih hsub
      exact ⟨b :: counterpart, hcounterpart.cons_cons b, .cons hab hall⟩

section Sorted

variable {rolls chosen : List Nat}

theorem mergeSort_sublist_of_sublist (h : chosen.Sublist rolls) :
    (chosen.mergeSort (· ≤ ·)).Sublist (rolls.mergeSort (· ≤ ·)) := by
  have hsub : (chosen.mergeSort (· ≤ ·)).Subperm (rolls.mergeSort (· ≤ ·)) :=
    (List.mergeSort_perm chosen _).subperm.trans
      (h.subperm.trans (List.mergeSort_perm rolls _).symm.subperm)
  exact List.sublist_of_subperm_of_pairwise hsub (List.pairwise_mergeSort' (· ≤ ·) chosen)
    (List.pairwise_mergeSort' (· ≤ ·) rolls)

/-- No choice of so many dice has a lesser sum than the lowest of them. -/
theorem sum_lowest_le (h : chosen.Sublist rolls) :
    ((rolls.mergeSort (· ≤ ·)).take chosen.length).sum ≤ chosen.sum := by
  have hlowest := forall₂_take_of_sublist Nat.le_refl (List.pairwise_mergeSort' (· ≤ ·) rolls)
    (mergeSort_sublist_of_sublist h)
  rw [List.length_mergeSort] at hlowest
  exact Nat.le_trans hlowest.sum_le_sum (Nat.le_of_eq (List.mergeSort_perm chosen _).sum_eq)

/-- No choice of so many dice has a greater sum than the highest of them. -/
theorem sum_le_highest (h : chosen.Sublist rolls) :
    chosen.sum ≤ ((rolls.mergeSort (· ≤ ·)).drop (rolls.length - chosen.length)).sum := by
  have hbackwards : (rolls.mergeSort (· ≤ ·)).reverse.Pairwise (· ≥ ·) :=
    List.pairwise_reverse.2 (List.pairwise_mergeSort' (· ≤ ·) rolls)
  have hlast := forall₂_take_of_sublist (R := (· ≥ ·)) Nat.le_refl hbackwards
    (mergeSort_sublist_of_sublist h).reverse
  rw [List.length_reverse, List.take_reverse, List.forall₂_reverse_iff, List.length_mergeSort,
    List.length_mergeSort] at hlast
  have hhighest : List.Forall₂ (· ≤ ·) (chosen.mergeSort (· ≤ ·))
      ((rolls.mergeSort (· ≤ ·)).drop (rolls.length - chosen.length)) := .flip hlast
  exact Nat.le_trans (Nat.le_of_eq (List.mergeSort_perm chosen _).sum_eq.symm) hhighest.sum_le_sum

end Sorted

/-- But for one selection, they all keep the highest dice. -/
theorem choose_eq_drop {selection : Selection} (h : ∀ count, selection ≠ keepLowest count)
    {α : Type} (order : List α) :
    selection.choose order = order.drop (order.length - selection.keptCount order.length) := by
  cases selection with
  | keepAll => simp [choose, keptCount]
  | keepHighest count => rfl
  | keepLowest count => exact absurd rfl (h count)
  | dropLowest count =>
    simp only [choose, keptCount]
    congr 1
    omega

end Selection

namespace Hand

open Selection

variable (rolls : List Nat) (die : Die) (selection : Selection) (modifier : Option Modifier)

/-- The dice that count are themselves a choice. -/
theorem kept_sublist : (ofRolls rolls die selection modifier).kept.Sublist rolls := by
  have hrolled := rolled_ofRolls rolls die selection modifier
  have hsub : (ofRolls rolls die selection modifier).kept.Sublist
      (ofRolls rolls die selection modifier).rolled := List.filter_sublist.map Throw.value
  rwa [hrolled] at hsub

theorem subtotal_mem_sumsOf : (ofRolls rolls die selection modifier).subtotal ∈
    sumsOf rolls (selection.keptCount rolls.length) :=
  ⟨_, kept_sublist rolls die selection modifier, length_kept_ofRolls rolls die selection modifier,
    subtotal_eq_sum _⟩

theorem subtotal_eq_choose : (ofRolls rolls die selection modifier).subtotal =
    (selection.choose (rolls.mergeSort (· ≤ ·))).sum := by
  rw [subtotal_eq_sum, (kept_ofRolls_perm rolls die selection modifier).sum_eq]

theorem subtotal_isGreatest (h : ∀ count, selection ≠ keepLowest count) :
    IsGreatest (sumsOf rolls (selection.keptCount rolls.length))
      (ofRolls rolls die selection modifier).subtotal := by
  refine ⟨subtotal_mem_sumsOf rolls die selection modifier, ?_⟩
  intro sum hsum
  obtain ⟨chosen, hsub, hlength, rfl⟩ := hsum
  rw [subtotal_eq_choose, choose_eq_drop h, List.length_mergeSort, ← hlength]
  exact Int.ofNat_le.2 (sum_le_highest hsub)

theorem subtotal_isLeast (count : Count) :
    IsLeast (sumsOf rolls ((keepLowest count).keptCount rolls.length))
      (ofRolls rolls die (keepLowest count) modifier).subtotal := by
  refine ⟨subtotal_mem_sumsOf rolls die (keepLowest count) modifier, ?_⟩
  intro sum hsum
  obtain ⟨chosen, hsub, hlength, rfl⟩ := hsum
  have htake : (keepLowest count).choose (rolls.mergeSort (· ≤ ·)) =
      (rolls.mergeSort (· ≤ ·)).take chosen.length := by
    rw [choose, List.length_mergeSort, hlength]
    rfl
  rw [subtotal_eq_choose, htake]
  exact Int.ofNat_le.2 (sum_lowest_le hsub)

/-! ## Other orders -/

variable {rolls} {others : List Nat}

theorem kept_perm (h : rolls.Perm others) :
    (ofRolls rolls die selection modifier).kept.Perm (ofRolls others die selection modifier).kept := by
  have hsorted : rolls.mergeSort (· ≤ ·) = others.mergeSort (· ≤ ·) :=
    ((List.mergeSort_perm rolls _).trans (h.trans (List.mergeSort_perm others _).symm)).eq_of_pairwise'
      (List.pairwise_mergeSort' (· ≤ ·) rolls) (List.pairwise_mergeSort' (· ≤ ·) others)
  have hkept := kept_ofRolls_perm rolls die selection modifier
  rw [hsorted] at hkept
  exact hkept.trans (kept_ofRolls_perm others die selection modifier).symm

/-- Each die counts or does not count. -/
theorem kept_append_dropped_perm (hand : Hand) : (hand.kept ++ hand.dropped).Perm hand.rolled := by
  rw [kept, dropped, rolled, ← List.map_append]
  exact (List.filter_append_perm _ _).map Throw.value

theorem dropped_perm (h : rolls.Perm others) :
    (ofRolls rolls die selection modifier).dropped.Perm
      (ofRolls others die selection modifier).dropped := by
  have hfirst := kept_append_dropped_perm (ofRolls rolls die selection modifier)
  have hsecond := kept_append_dropped_perm (ofRolls others die selection modifier)
  rw [rolled_ofRolls] at hfirst hsecond
  have hkept := kept_perm die selection modifier h
  exact (List.perm_append_left_iff _).1
    ((hkept.append_right _).symm.trans (hfirst.trans (h.trans hsecond.symm)))

theorem subtotal_eq_of_perm (h : rolls.Perm others) :
    (ofRolls rolls die selection modifier).subtotal =
      (ofRolls others die selection modifier).subtotal := by
  rw [subtotal_eq_sum, subtotal_eq_sum, (kept_perm die selection modifier h).sum_eq]

/-! ## Higher dice -/

theorem subtotal_mono (h : List.Forall₂ (· ≤ ·) rolls others) :
    (ofRolls rolls die selection modifier).subtotal ≤
      (ofRolls others die selection modifier).subtotal := by
  by_cases hlowest : ∃ count, selection = keepLowest count
  · obtain ⟨count, rfl⟩ := hlowest
    obtain ⟨chosen, hsub, hlength, hsum⟩ :=
      subtotal_mem_sumsOf others die (keepLowest count) modifier
    have hlower : List.Forall₂ (· ≥ ·) others rolls := .flip h
    obtain ⟨counterpart, hcounterpart, hall⟩ := exists_sublist_of_forall₂ hlower hsub
    have hle : List.Forall₂ (· ≤ ·) counterpart chosen := .flip hall
    have hmem : (counterpart.sum : Int) ∈
        sumsOf rolls ((keepLowest count).keptCount rolls.length) :=
      ⟨counterpart, hcounterpart, by rw [hle.length_eq, hlength, h.length_eq], rfl⟩
    rw [hsum]
    exact Int.le_trans ((subtotal_isLeast rolls die modifier count).2 hmem)
      (Int.ofNat_le.2 hle.sum_le_sum)
  · have hhighest : ∀ count, selection ≠ keepLowest count := fun count heq => hlowest ⟨count, heq⟩
    obtain ⟨chosen, hsub, hlength, hsum⟩ := subtotal_mem_sumsOf rolls die selection modifier
    obtain ⟨counterpart, hcounterpart, hle⟩ := exists_sublist_of_forall₂ h hsub
    have hmem : (counterpart.sum : Int) ∈ sumsOf others (selection.keptCount others.length) :=
      ⟨counterpart, hcounterpart, by rw [← hle.length_eq, hlength, h.length_eq], rfl⟩
    rw [hsum]
    exact Int.le_trans (Int.ofNat_le.2 hle.sum_le_sum)
      ((subtotal_isGreatest others die selection modifier hhighest).2 hmem)

/-- The highest dice have the greatest sum of all choices of as many, and the lowest the least; to
drop the lowest is to choose the greatest sum of as many as are left. In whatever order the dice
fell, the same values count and do not count, and dice that show more never make less. -/
theorem subtotals_are_extremes (rolls : List Nat) (die : Die) (modifier : Option Modifier) :
    (∀ count : Count,
      IsGreatest (sumsOf rolls (min count.val rolls.length))
        (ofRolls rolls die (keepHighest count) modifier).subtotal ∧
      IsLeast (sumsOf rolls (min count.val rolls.length))
        (ofRolls rolls die (keepLowest count) modifier).subtotal ∧
      IsGreatest (sumsOf rolls (rolls.length - min count.val (rolls.length - 1)))
        (ofRolls rolls die (dropLowest count) modifier).subtotal) ∧
    (∀ (selection : Selection) (others : List Nat), rolls.Perm others →
      (ofRolls rolls die selection modifier).subtotal =
        (ofRolls others die selection modifier).subtotal ∧
      (ofRolls rolls die selection modifier).total =
        (ofRolls others die selection modifier).total ∧
      (ofRolls rolls die selection modifier).kept.Perm
        (ofRolls others die selection modifier).kept ∧
      (ofRolls rolls die selection modifier).dropped.Perm
        (ofRolls others die selection modifier).dropped) ∧
    (∀ (selection : Selection) (others : List Nat), List.Forall₂ (· ≤ ·) rolls others →
      (ofRolls rolls die selection modifier).subtotal ≤
        (ofRolls others die selection modifier).subtotal ∧
      (ofRolls rolls die selection modifier).total ≤
        (ofRolls others die selection modifier).total) := by
  refine ⟨?_, ?_, ?_⟩
  · intro count
    exact ⟨subtotal_isGreatest rolls die (keepHighest count) modifier (by simp),
      subtotal_isLeast rolls die modifier count,
      subtotal_isGreatest rolls die (dropLowest count) modifier (by simp)⟩
  · intro selection others h
    have hsubtotal := subtotal_eq_of_perm die selection modifier h
    refine ⟨hsubtotal, ?_, kept_perm die selection modifier h,
      dropped_perm die selection modifier h⟩
    rw [total_eq_add, total_eq_add, hsubtotal]
    rfl
  · intro selection others h
    have hsubtotal := subtotal_mono die selection modifier h
    refine ⟨hsubtotal, ?_⟩
    rw [total_eq_add, total_eq_add]
    exact Int.add_le_add_right hsubtotal _

/-- The three higher of four dice, also in another order, and with one die that shows more. -/
theorem subtotals_are_extremes_of_fourDice :
    ([10, 20, 40, 40] : List Nat).Perm [40, 10, 40, 20] ∧
    List.Forall₂ (· ≤ ·) ([10, 20, 40, 40] : List Nat) [10, 30, 40, 40] ∧
    IsGreatest (sumsOf [10, 20, 40, 40] 3)
      (ofRolls [10, 20, 40, 40] .percentile (dropLowest Count.one) none).subtotal ∧
    (ofRolls [10, 20, 40, 40] .percentile (dropLowest Count.one) none).subtotal =
      (ofRolls [40, 10, 40, 20] .percentile (dropLowest Count.one) none).subtotal ∧
    (ofRolls [10, 20, 40, 40] .percentile (dropLowest Count.one) none).subtotal ≤
      (ofRolls [10, 30, 40, 40] .percentile (dropLowest Count.one) none).subtotal ∧
    (ofRolls [10, 20, 40, 40] .percentile (dropLowest Count.one) none).subtotal = 100 ∧
    (ofRolls [10, 30, 40, 40] .percentile (dropLowest Count.one) none).subtotal = 110 := by
  have hperm : ([10, 20, 40, 40] : List Nat).Perm [40, 10, 40, 20] := by decide
  have hle : List.Forall₂ (· ≤ ·) ([10, 20, 40, 40] : List Nat) [10, 30, 40, 40] := by simp
  obtain ⟨hextremes, horder, hhigher⟩ := subtotals_are_extremes [10, 20, 40, 40] .percentile none
  refine ⟨hperm, hle, (hextremes Count.one).2.2, (horder _ _ hperm).1, (hhigher _ _ hle).1, ?_, ?_⟩
  · rw [subtotal_eq_choose, List.mergeSort_of_pairwise (by decide)]
    rfl
  · rw [subtotal_eq_choose, List.mergeSort_of_pairwise (by decide)]
    rfl

end Hand

end Tabletop
