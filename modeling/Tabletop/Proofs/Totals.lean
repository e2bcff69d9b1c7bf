import Mathlib.Algebra.GroupWithZero.Nat
import Mathlib.Algebra.Order.BigOperators.Group.List
import Mathlib.Algebra.Order.Group.Nat
import Mathlib.Data.List.Sort
import Tabletop.Expression
import Tabletop.Proofs.Kept
import Tabletop.TotalRange

/-!
# Totals

The totals of an expression make up an interval. It begins where all dice that count show ones and
ends where they all show their last face; whatever lies between comes up on some roll, under every
selection.
-/
namespace Tabletop

/-- Dice with so many faces can show these values. -/
def Faces.CanShow (faces : Faces) (rolls : List Nat) : Prop :=
  ∀ roll ∈ rolls, 1 ≤ roll ∧ roll ≤ faces.val

namespace Faces

variable {faces : Faces} {rolls : List Nat}

theorem CanShow.perm (h : faces.CanShow rolls) {others : List Nat} (hperm : others.Perm rolls) :
    faces.CanShow others :=
  fun roll hroll => h roll (hperm.subset hroll)

theorem CanShow.append (h : faces.CanShow rolls) {others : List Nat} (hothers : faces.CanShow others) :
    faces.CanShow (rolls ++ others) := by
  intro roll hroll
  rcases List.mem_append.1 hroll with hroll | hroll
  · exact h roll hroll
  · exact hothers roll hroll

theorem canShow_replicate (n : Nat) {roll : Nat} (hone : 1 ≤ roll) (hlast : roll ≤ faces.val) :
    faces.CanShow (List.replicate n roll) := by
  intro other hother
  rw [List.eq_of_mem_replicate hother]
  exact ⟨hone, hlast⟩

theorem CanShow.sum_within (h : faces.CanShow rolls) :
    rolls.length ≤ rolls.sum ∧ rolls.sum ≤ rolls.length * faces.val := by
  have hlow := List.card_nsmul_le_sum rolls 1 fun roll hroll => (h roll hroll).1
  have hhigh := List.sum_le_card_nsmul rolls faces.val fun roll hroll => (h roll hroll).2
  rw [Nat.nsmul_eq_mul, Nat.mul_one] at hlow
  rw [Nat.nsmul_eq_mul] at hhigh
  exact ⟨hlow, hhigh⟩

/-- Each die takes as much of the sum as it can while leaving a one for every other. -/
theorem exists_canShow_sum (faces : Faces) {size sum : Nat} (hlow : size ≤ sum)
    (hhigh : sum ≤ size * faces.val) :
    ∃ rolls : List Nat, rolls.length = size ∧ faces.CanShow rolls ∧ rolls.sum = sum := by
  have hone := faces.one_le
  induction size generalizing sum with
  | zero =>
    refine ⟨[], rfl, by simp [CanShow], ?_⟩
    rw [Nat.zero_mul] at hhigh
    exact (Nat.le_zero.1 hhigh).symm
  | succ size ih =>
    rw [Nat.succ_mul] at hhigh
    have hsize : size ≤ size * faces.val := Nat.le_mul_of_pos_right size hone
    obtain ⟨rolls, hlength, hrolls, hsum⟩ :=
      ih (by omega : size ≤ sum - min faces.val (sum - size)) (by omega)
    refine ⟨min faces.val (sum - size) :: rolls, by rw [List.length_cons, hlength], ?_, ?_⟩
    · intro roll hroll
      rcases List.mem_cons.1 hroll with rfl | hroll
      · omega
      · exact hrolls roll hroll
    · rw [List.sum_cons, hsum]
      omega

theorem exists_ascending_sum (faces : Faces) {size sum : Nat} (hlow : size ≤ sum)
    (hhigh : sum ≤ size * faces.val) :
    ∃ rolls : List Nat, rolls.length = size ∧ faces.CanShow rolls ∧ rolls.Pairwise (· ≤ ·) ∧
      rolls.sum = sum := by
  obtain ⟨rolls, hlength, hrolls, hsum⟩ := faces.exists_canShow_sum hlow hhigh
  have hperm : (rolls.mergeSort (· ≤ ·)).Perm rolls := List.mergeSort_perm _ _
  exact ⟨rolls.mergeSort (· ≤ ·), hperm.length_eq.trans hlength, hrolls.perm hperm,
    List.pairwise_mergeSort' (· ≤ ·) rolls, hperm.sum_eq.trans hsum⟩

end Faces

namespace Selection

/-! ## Rolls of which the selection keeps given dice -/

/-- The dice to be kept, among as many others as there are, which are ones where the highest are
kept and show the last face where the lowest are. -/
def fill (selection : Selection) (faces : Faces) (others : Nat) (kept : List Nat) : List Nat :=
  match selection with
  | keepAll => kept
  | keepHighest _ | dropLowest _ => List.replicate others 1 ++ kept
  | keepLowest _ => kept ++ List.replicate others faces.val

theorem canShow_fill (selection : Selection) {faces : Faces} (others : Nat) {kept : List Nat}
    (hkept : faces.CanShow kept) : faces.CanShow (selection.fill faces others kept) := by
  have hone := faces.one_le
  cases selection with
  | keepAll => exact hkept
  | keepHighest count => exact (Faces.canShow_replicate others (Nat.le_refl 1) hone).append hkept
  | keepLowest count => exact hkept.append (Faces.canShow_replicate others hone (Nat.le_refl _))
  | dropLowest count => exact (Faces.canShow_replicate others (Nat.le_refl 1) hone).append hkept

theorem length_fill (selection : Selection) (faces : Faces) {size : Nat} {kept : List Nat}
    (hlength : kept.length = selection.keptCount size) :
    (selection.fill faces (size - kept.length) kept).length = size := by
  have hle := selection.keptCount_le size
  cases selection with
  | keepAll => exact hlength
  | keepHighest count =>
    rw [fill, List.length_append, List.length_replicate]
    omega
  | keepLowest count =>
    rw [fill, List.length_append, List.length_replicate]
    omega
  | dropLowest count =>
    rw [fill, List.length_append, List.length_replicate]
    omega

theorem pairwise_fill (selection : Selection) {faces : Faces} (others : Nat) {kept : List Nat}
    (hkept : faces.CanShow kept) (hsorted : kept.Pairwise (· ≤ ·)) :
    (selection.fill faces others kept).Pairwise (· ≤ ·) := by
  have hones : (List.replicate others 1 ++ kept).Pairwise (· ≤ ·) := by
    refine List.pairwise_append.2 ⟨List.pairwise_replicate.2 (.inr (Nat.le_refl _)), hsorted, ?_⟩
    intro a ha b hb
    rw [List.eq_of_mem_replicate ha]
    exact (hkept b hb).1
  have hlasts : (kept ++ List.replicate others faces.val).Pairwise (· ≤ ·) := by
    refine List.pairwise_append.2 ⟨hsorted, List.pairwise_replicate.2 (.inr (Nat.le_refl _)), ?_⟩
    intro a ha b hb
    rw [List.eq_of_mem_replicate hb]
    exact (hkept a ha).2
  cases selection with
  | keepAll => exact hsorted
  | keepHighest count => exact hones
  | keepLowest count => exact hlasts
  | dropLowest count => exact hones

theorem choose_fill (selection : Selection) (faces : Faces) {size : Nat} {kept : List Nat}
    (hlength : kept.length = selection.keptCount size) :
    selection.choose (selection.fill faces (size - kept.length) kept) = kept := by
  have hsize := selection.length_fill faces hlength
  have hle := selection.keptCount_le size
  cases selection with
  | keepAll => rfl
  | keepHighest count =>
    rw [choose, hsize, fill]
    exact List.drop_left' (by rw [List.length_replicate, hlength]; rfl)
  | keepLowest count =>
    rw [choose, hsize, fill]
    exact List.take_left' hlength
  | dropLowest count =>
    rw [choose, hsize, fill]
    refine List.drop_left' ?_
    have hcount : (dropLowest count).keptCount size = size - min count.val (size - 1) := rfl
    rw [List.length_replicate, hlength]
    omega

end Selection

namespace Hand

variable (rolls : List Nat) (die : Die) (selection : Selection) (modifier : Option Modifier)

theorem subtotal_eq_sum (hand : Hand) : hand.subtotal = (hand.kept.sum : Nat) := by
  rw [subtotal]
  induction hand.kept with
  | nil => rfl
  | cons value kept ih =>
    rw [List.foldr_cons, ih, List.sum_cons, Int.natCast_add]
    rfl

theorem total_eq_add (hand : Hand) :
    hand.total = hand.subtotal + (hand.modifier.map Modifier.amount).getD 0 := by
  unfold total
  cases hand.modifier with
  | none => exact (Int.add_zero _).symm
  | some modifier => rfl

theorem length_kept_ofRolls : (ofRolls rolls die selection modifier).kept.length =
    selection.keptCount rolls.length := by
  rw [(kept_ofRolls_perm rolls die selection modifier).length_eq, Selection.length_choose,
    List.length_mergeSort]

theorem canShow_kept_ofRolls {faces : Faces} (h : faces.CanShow rolls) :
    faces.CanShow (ofRolls rolls die selection modifier).kept := by
  have hsorted : faces.CanShow (rolls.mergeSort (· ≤ ·)) := h.perm (List.mergeSort_perm _ _)
  refine Faces.CanShow.perm ?_ (kept_ofRolls_perm rolls die selection modifier)
  intro roll hroll
  exact hsorted roll ((selection.choose_sublist _).subset hroll)

end Hand

namespace Expression

/-- How many of the dice count. -/
def keptCount (e : Expression) : Nat :=
  e.selection.keptCount e.count.val

/-- What is added to the dice, negative when it is taken away. -/
def bonus (e : Expression) : Int :=
  (e.modifier.map Modifier.amount).getD 0

/-- All dice that count show ones. -/
def leastTotal (e : Expression) : Int :=
  e.keptCount + e.bonus

/-- All dice that count show their last face. -/
def greatestTotal (e : Expression) : Int :=
  e.keptCount * e.movedDie.faces.val + e.bonus

/-- What the expression makes of the rolls of its dice. -/
def handOf (e : Expression) (rolls : List Nat) : Hand :=
  Hand.ofRolls rolls e.movedDie e.selection e.modifier

theorem rolled_handOf (e : Expression) (rolls : List Nat) : (e.handOf rolls).rolled = rolls :=
  Hand.rolled_ofRolls rolls _ _ _

theorem total_handOf (e : Expression) (rolls : List Nat) :
    (e.handOf rolls).total = ((e.handOf rolls).kept.sum : Nat) + e.bonus := by
  rw [Hand.total_eq_add, Hand.subtotal_eq_sum]
  rfl

theorem total_within (e : Expression) {rolls : List Nat} (hlength : rolls.length = e.count.val)
    (hrolls : e.movedDie.faces.CanShow rolls) :
    e.leastTotal ≤ (e.handOf rolls).total ∧ (e.handOf rolls).total ≤ e.greatestTotal := by
  have hwithin := (Hand.canShow_kept_ofRolls rolls e.movedDie e.selection e.modifier hrolls).sum_within
  rw [Hand.length_kept_ofRolls, hlength] at hwithin
  have hlow : (e.keptCount : Int) ≤ ((e.handOf rolls).kept.sum : Nat) := Int.ofNat_le.2 hwithin.1
  have hhigh : (((e.handOf rolls).kept.sum : Nat) : Int) ≤ e.keptCount * e.movedDie.faces.val := by
    rw [← Int.natCast_mul]
    exact Int.ofNat_le.2 hwithin.2
  rw [total_handOf, leastTotal, greatestTotal]
  omega

theorem exists_rolls_of_total (e : Expression) {total : Int} (hlow : e.leastTotal ≤ total)
    (hhigh : total ≤ e.greatestTotal) :
    ∃ rolls : List Nat, rolls.length = e.count.val ∧ e.movedDie.faces.CanShow rolls ∧
      (e.handOf rolls).total = total := by
  rw [leastTotal] at hlow
  rw [greatestTotal, ← Int.natCast_mul] at hhigh
  obtain ⟨kept, hlength, hshow, hsorted, hsum⟩ := e.movedDie.faces.exists_ascending_sum
    (by omega : e.keptCount ≤ (total - e.bonus).toNat) (by omega)
  let rolls := e.selection.fill e.movedDie.faces (e.count.val - kept.length) kept
  have hrolls : rolls.Pairwise (· ≤ ·) := e.selection.pairwise_fill _ hshow hsorted
  have hperm : (e.handOf rolls).kept.Perm (e.selection.choose (rolls.mergeSort (· ≤ ·))) :=
    Hand.kept_ofRolls_perm rolls e.movedDie e.selection e.modifier
  rw [List.mergeSort_eq_self (· ≤ ·) hrolls, e.selection.choose_fill _ hlength] at hperm
  refine ⟨rolls, e.selection.length_fill _ hlength, e.selection.canShow_fill _ hshow, ?_⟩
  rw [total_handOf, hperm.sum_eq, hsum]
  omega

/-! ## Totals that 64 bits hold -/

/-- 2³¹ - 1, up to which any dice have totals within 64 bits. -/
def tightCount : Nat := 2147483647

theorem bonus_within (e : Expression) :
    -(Modifier.greatest : Int) ≤ e.bonus ∧ e.bonus ≤ Modifier.greatest := by
  unfold bonus
  cases e.modifier with
  | none => decide
  | some modifier =>
    have hvalue := modifier.le_greatest
    show -(Modifier.greatest : Int) ≤ modifier.sign.apply modifier.value ∧
      modifier.sign.apply modifier.value ≤ Modifier.greatest
    cases modifier.sign with
    | plus =>
      show -(Modifier.greatest : Int) ≤ modifier.value ∧ (modifier.value : Int) ≤ Modifier.greatest
      omega
    | minus =>
      show -(Modifier.greatest : Int) ≤ -modifier.value ∧ -(modifier.value : Int) ≤ Modifier.greatest
      omega

theorem leastTotal_le_greatestTotal (e : Expression) : e.leastTotal ≤ e.greatestTotal := by
  have hdice : e.keptCount ≤ e.keptCount * e.movedDie.faces.val :=
    Nat.le_mul_of_pos_right _ e.movedDie.faces.one_le
  unfold leastTotal greatestTotal
  rw [← Int.natCast_mul]
  omega

theorem totals_within_64_bits (e : Expression) (hcount : e.count.val ≤ tightCount) :
    Bound.least ≤ e.leastTotal ∧ e.greatestTotal ≤ Bound.greatest := by
  have hbonus := e.bonus_within
  have hkept : e.keptCount ≤ tightCount := Nat.le_trans (e.selection.keptCount_le _) hcount
  have hdice : e.keptCount * e.movedDie.faces.val ≤ tightCount * Faces.greatest :=
    Nat.mul_le_mul hkept e.movedDie.faces.le_greatest
  have hlimit : tightCount * Faces.greatest + Modifier.greatest ≤ 9223372036854775807 := by decide
  have hleast : Bound.least ≤ -(Modifier.greatest : Int) := by decide
  unfold leastTotal greatestTotal Bound.greatest
  rw [← Int.natCast_mul]
  omega

end Expression

end Tabletop
