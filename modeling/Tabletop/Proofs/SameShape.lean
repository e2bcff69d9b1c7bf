import Mathlib.Data.List.Basic
import Tabletop.DiceSource.Replay
import Tabletop.Proofs.Matching

/-!
# What the dice do not decide

Two runs of the same actions on different sources differ in nothing but the values: which texts
can be read, which requests the budget grants, how many dice are rolled and how many of them count
is all settled before a die falls.
-/
namespace Tabletop

/-- Hands of the same die and modifier with as many dice, of which as many count. -/
structure Hand.SameShape (first second : Hand) : Prop where
  die : first.die = second.die
  modifier : first.modifier = second.modifier
  rolled : first.rolled.length = second.rolled.length
  kept : first.kept.length = second.kept.length
  dropped : first.dropped.length = second.dropped.length

namespace Hand

theorem length_rolled_eq_add (hand : Hand) :
    hand.rolled.length = hand.kept.length + hand.dropped.length := by
  simp only [rolled, kept, dropped, List.length_map]
  exact List.length_eq_length_filter_add _

/-- How many dice count depends on how many there are, not on their values or on ties. -/
theorem sameShape_ofRolls {first second : List Nat} (hlength : first.length = second.length)
    (die : Die) (selection : Selection) (modifier : Option Modifier) :
    SameShape (ofRolls first die selection modifier) (ofRolls second die selection modifier) := by
  have hrolled : (ofRolls first die selection modifier).rolled.length =
      (ofRolls second die selection modifier).rolled.length := by
    rw [rolled_ofRolls, rolled_ofRolls, hlength]
  have hkept : (ofRolls first die selection modifier).kept.length =
      (ofRolls second die selection modifier).kept.length := by
    rw [length_kept_ofRolls, length_kept_ofRolls, hlength]
  refine ⟨rfl, rfl, hrolled, hkept, ?_⟩
  rw [length_rolled_eq_add, length_rolled_eq_add, hkept] at hrolled
  exact Nat.add_left_cancel hrolled

end Hand

/-- As many values. -/
def SameLength (first second : List Nat) : Prop :=
  first.length = second.length

/-- All sessions with the same budget match, whatever their sources. -/
def Matching.shapes (σ τ : Type) [DiceSource σ] [DiceSource τ] : Matching σ τ where
  values := SameLength
  hands := Hand.SameShape
  hands_handOf e h := Hand.sameShape_ofRolls h e.movedDie e.selection e.modifier
  sessions first second := first.budget = second.budget
  within _ := True
  within_of_throwDice _ := trivial
  within_of_reset _ := trivial
  throwDice := by
    intro first second dice die h _
    cases hcharge : first.budget.charge dice with
    | error e =>
      rw [Session.throwDice_of_charge_error hcharge]
      rw [h] at hcharge
      rw [Session.throwDice_of_charge_error hcharge]
      exact ⟨.error e, h⟩
    | ok budget =>
      rw [Session.throwDice_of_charge_ok hcharge]
      rw [h] at hcharge
      rw [Session.throwDice_of_charge_ok hcharge]
      refine ⟨.ok ?_, rfl⟩
      rw [SameLength, DiceSource.length_rollMany, DiceSource.length_rollMany]
  reset h := congrArg Budget.reset h

namespace Session

variable {σ τ α : Type} [DiceSource σ] [DiceSource τ]

/-- Where no total is looked up, the dice decide values alone: on any two sources an action fails
for the same reason or succeeds on both, with the same expressions, dice of the same kind, and as
many dice that are rolled, that count and that do not; and the budgets stay the same. -/
theorem run_independent_of_dice (limit : Option Nat) (source : σ) (other : τ)
    (actions : List (Action α)) (hactions : ∀ action ∈ actions, action.isLookup = false) :
    List.Forall₂ (fun one two => Outcome.Alike SameLength Hand.SameShape one.1 two.1 ∧
        one.2.budget = two.2.budget)
      ((start limit source).run actions) ((start limit other).run actions) := by
  have hlookup : ∀ action ∈ actions, action.isLookup = true → (Matching.shapes σ τ).Exact := by
    intro action hmem htrue
    rw [hactions action hmem] at htrue
    contradiction
  have hmatch : (Matching.shapes σ τ).sessions (start limit source) (start limit other) := rfl
  exact ((Matching.shapes σ τ).run hmatch actions hlookup trivial).1

/-- A line that four dice do not allow to the end, and after a reset three dice. -/
def cutShort : List (Action Unit) :=
  [.rollLine "4d6kl2 2d8".toList, .reset, .roll "3d6dl1+2".toList]

theorem run_cutShort_independent_of_dice :
    (∀ action ∈ cutShort, action.isLookup = false) ∧
    List.Forall₂ (fun one two => Outcome.Alike SameLength Hand.SameShape one.1 two.1 ∧
        one.2.budget = two.2.budget)
      ((start (some 4) (Replay.mk #[6, 6, 6, 6, 1] (by decide) 0)).run cutShort)
      ((start (some 4) (Replay.mk #[2, 5, 3] (by decide) 0)).run cutShort) := by
  have hactions : ∀ action ∈ cutShort, action.isLookup = false := by decide
  exact ⟨hactions, run_independent_of_dice _ _ _ cutShort hactions⟩

end Session

end Tabletop
