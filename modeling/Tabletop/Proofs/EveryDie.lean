import Tabletop.Proofs.Extremes
import Tabletop.Proofs.Ranks

/-!
# Every die accounted for

A hand is made of its rolls and of the flags of its selection, read off one after the other. No roll
is left without a flag, so each die lies on the table once, either among those that count or among
those that do not, and the sums of the two are the sum of all.
-/
namespace Tabletop

/-- At least one of any dice is kept. -/
theorem Selection.one_le_keptCount (selection : Selection) {size : Nat} (hsize : 1 ≤ size) :
    1 ≤ selection.keptCount size := by
  cases selection with
  | keepAll => exact hsize
  | keepHighest count => exact Nat.le_min.2 ⟨count.one_le, hsize⟩
  | keepLowest count => exact Nat.le_min.2 ⟨count.one_le, hsize⟩
  | dropLowest count =>
    rw [keptCount]
    omega

namespace Hand

/-- Each roll with the next of the flags and, once they have run out, with the fallback. -/
def mark (fallback : Bool) : List Nat → List Bool → List Throw
  | [], _ => []
  | roll :: rolls, flags => ⟨roll, flags.headD fallback⟩ :: mark fallback rolls flags.tail

theorem mark_eq_zipWith (fallback : Bool) {rolls : List Nat} {flags : List Bool}
    (h : rolls.length ≤ flags.length) :
    mark fallback rolls flags = List.zipWith Throw.mk rolls flags := by
  induction rolls generalizing flags with
  | nil => rfl
  | cons roll rolls ih =>
    cases flags with
    | nil => exact absurd h (Nat.not_succ_le_zero _)
    | cons flag flags =>
      have hrest : mark fallback rolls flags = List.zipWith Throw.mk rolls flags :=
        ih (Nat.le_of_succ_le_succ h)
      rw [mark, List.zipWith_cons_cons, List.headD_cons, List.tail_cons, hrest]

/-- What is known of a hand from its rolls, its die, its selection and its modifier. -/
structure Accounts (rolls : List Nat) (die : Die) (selection : Selection)
    (modifier : Option Modifier) (hand : Hand) : Prop where
  die : hand.die = die
  rolled : hand.rolled = rolls
  flags : hand.throws.map Throw.kept = selection.flags rolls
  /-- Whatever the fallback were, the dice would be the same. -/
  marked : ∀ fallback, hand.throws = mark fallback rolls (selection.flags rolls)
  keptInOrder : hand.kept.Sublist rolls
  droppedInOrder : hand.dropped.Sublist rolls
  parted : (hand.kept ++ hand.dropped).Perm rolls
  keepAll : selection = .keepAll → hand.kept.length = rolls.length
  keepHighest : ∀ count, selection = .keepHighest count →
    hand.kept.length = min count.val rolls.length
  keepLowest : ∀ count, selection = .keepLowest count →
    hand.kept.length = min count.val rolls.length
  dropLowest : ∀ count, selection = .dropLowest count →
    hand.kept.length = rolls.length - min count.val (rolls.length - 1)
  someKept : 1 ≤ hand.kept.length
  sums : hand.subtotal + (hand.dropped.sum : Nat) = (rolls.sum : Nat)
  unmodified : modifier = none → hand.total - hand.subtotal = 0
  added : ∀ value h, modifier = some ⟨.plus, value, h⟩ → hand.total - hand.subtotal = value
  taken : ∀ value h, modifier = some ⟨.minus, value, h⟩ → hand.total - hand.subtotal = -value

/-- The dice that do not count are in the order in which they fell. -/
theorem dropped_sublist (hand : Hand) : hand.dropped.Sublist hand.rolled :=
  List.filter_sublist.map Throw.value

theorem subtotal_add_sum_dropped (hand : Hand) :
    hand.subtotal + (hand.dropped.sum : Nat) = (hand.rolled.sum : Nat) := by
  have hsum : hand.kept.sum + hand.dropped.sum = hand.rolled.sum := by
    rw [← List.sum_append, hand.kept_append_dropped_perm.sum_eq]
  rw [subtotal_eq_sum, ← Int.natCast_add, hsum]

theorem total_sub_subtotal (hand : Hand) :
    hand.total - hand.subtotal = (hand.modifier.map Modifier.amount).getD 0 := by
  rw [total_eq_add]
  exact add_sub_cancel_left _ _

theorem throws_ofRolls_eq_mark (rolls : List Nat) (die : Die) (selection : Selection)
    (modifier : Option Modifier) (fallback : Bool) :
    (ofRolls rolls die selection modifier).throws = mark fallback rolls (selection.flags rolls) := by
  rw [mark_eq_zipWith fallback (Nat.le_of_eq (selection.length_flags rolls).symm)]
  rfl

/-- A hand accounts for every die of which it is made. -/
theorem accounts_ofRolls (rolls : List Nat) (hrolls : rolls ≠ []) (die : Die)
    (selection : Selection) (modifier : Option Modifier) :
    Accounts rolls die selection modifier (ofRolls rolls die selection modifier) := by
  have hrolled := rolled_ofRolls rolls die selection modifier
  have hdropped := dropped_sublist (ofRolls rolls die selection modifier)
  have hparted := kept_append_dropped_perm (ofRolls rolls die selection modifier)
  have hsums := subtotal_add_sum_dropped (ofRolls rolls die selection modifier)
  rw [hrolled] at hdropped hparted hsums
  have hlength : ∀ kind, selection = kind →
      (ofRolls rolls die selection modifier).kept.length = kind.keptCount rolls.length := by
    intro kind h
    rw [length_kept_ofRolls, h]
  have hdifference : ∀ modifier?, modifier = modifier? →
      (ofRolls rolls die selection modifier).total - (ofRolls rolls die selection modifier).subtotal =
        (modifier?.map Modifier.amount).getD 0 := by
    intro modifier? h
    rw [total_sub_subtotal, ← h]
    rfl
  constructor
  case die => rfl
  case rolled => exact hrolled
  case flags => exact map_kept_throws_ofRolls rolls die selection modifier
  case marked => exact throws_ofRolls_eq_mark rolls die selection modifier
  case keptInOrder => exact kept_sublist rolls die selection modifier
  case droppedInOrder => exact hdropped
  case parted => exact hparted
  case keepAll => exact hlength .keepAll
  case keepHighest => exact fun count => hlength (.keepHighest count)
  case keepLowest => exact fun count => hlength (.keepLowest count)
  case dropLowest => exact fun count => hlength (.dropLowest count)
  case someKept =>
    rw [hlength selection rfl]
    exact selection.one_le_keptCount (List.length_pos_of_ne_nil hrolls)
  case sums => exact hsums
  case unmodified => exact hdifference none
  case added => exact fun value h => hdifference (some ⟨.plus, value, h⟩)
  case taken => exact fun value h => hdifference (some ⟨.minus, value, h⟩)

/-- Of three nines the two that fell first count; the last one and the fourteen do not. -/
theorem accounts_of_threeNines : ([9, 14, 9, 9] : List Nat) ≠ [] ∧
    ∃ (die : Die) (two : Count) (minusFive : Modifier) (hand : Hand),
      Accounts [9, 14, 9, 9] die (.keepLowest two) minusFive hand ∧
      hand.throws = [⟨9, true⟩, ⟨14, false⟩, ⟨9, true⟩, ⟨9, false⟩] ∧
      hand.kept = [9, 9] ∧ hand.dropped = [14, 9] ∧ hand.subtotal = 18 ∧ hand.total = 13 := by
  let die : Die := .poly ⟨20, by decide, by decide⟩
  let two : Count := ⟨2, by decide, by decide⟩
  let minusFive : Modifier := ⟨.minus, 5, by decide⟩
  have hne : ([9, 14, 9, 9] : List Nat) ≠ [] := List.cons_ne_nil 9 [14, 9, 9]
  have hflags : (Selection.keepLowest two).flags [9, 14, 9, 9] = [true, false, true, false] := by
    rw [Selection.flags_keepLowest]
    decide
  have hhand : ofRolls [9, 14, 9, 9] die (.keepLowest two) minusFive =
      ⟨die, [⟨9, true⟩, ⟨14, false⟩, ⟨9, true⟩, ⟨9, false⟩], minusFive⟩ := by
    rw [ofRolls, hflags]
    rfl
  have haccounts := accounts_ofRolls [9, 14, 9, 9] hne die (.keepLowest two) minusFive
  rw [hhand] at haccounts
  exact ⟨hne, die, two, minusFive, _, haccounts, rfl, rfl, rfl, rfl, rfl⟩

end Hand

end Tabletop
