import Tabletop.Proofs.Chain
import Tabletop.Proofs.NetStep
import Tabletop.Proofs.Unambiguous

/-!
# The die that the steps lead to

A net that is not the sum of the steps may still lead to the die to which the sum leads, since
the chain holds at its ends as well. What counts is the place at which the die stands.
-/
namespace Tabletop

namespace Step

/-- From the place, the net of the steps leads where their sum leads: either the sum is a net at
which the steps can end, or both are beyond the same end of the chain. -/
def SettlesAt (place : Nat) (moves : List Int) : Prop :=
  (floor moves ≤ moves.sum ∨ place + floor moves ≤ 0 ∨ Chain.maxSteps ≤ place + moves.sum + 1) ∧
    (moves.sum ≤ ceiling moves ∨ Chain.maxSteps ≤ place + ceiling moves + 1 ∨ place + moves.sum ≤ 0)

instance (place : Nat) (moves : List Int) : Decidable (SettlesAt place moves) :=
  inferInstanceAs (Decidable ((_ ∨ _) ∧ (_ ∨ _)))

theorem shift_takeAll_eq_iff (place : Nat) (moves : List Int) :
    Chain.shift place (zero.takeAll moves).val = Chain.shift place moves.sum ↔
      SettlesAt place moves := by
  have hval := val_takeAll zero moves
  have hle := floor_le_ceiling moves
  have hends := Chain.two_le_maxSteps
  have hzero : zero.val = 0 := rfl
  rw [Chain.shift_eq, Chain.shift_eq, hval, hzero]
  unfold SettlesAt
  omega

/-- No order of the steps is cut short, or the chain is at an end before anything is lost: the
steps back are too few to leave that end again, even when all the others come first. -/
def Commutes (place : Nat) (moves : List Int) : Prop :=
  (rise moves ≤ Chain.maxSteps ∧ fall moves ≤ Chain.maxSteps) ∨ fall moves ≤ place + 1 ∨
    rise moves + place ≤ Chain.maxSteps

instance (place : Nat) (moves : List Int) : Decidable (Commutes place moves) :=
  inferInstanceAs (Decidable (_ ∨ _ ∨ _))

/-- The steps commute where the two extreme orders lead to one place. -/
theorem shift_netRisingFirst_eq_iff (moves : List Int) {place : Nat} (hplace : place < Chain.maxSteps) :
    Chain.shift place (netRisingFirst moves) = Chain.shift place (netFallingFirst moves) ↔
      Commutes place moves := by
  have hrise := rise_nonneg moves
  have hfall := fall_nonneg moves
  have hends := Chain.two_le_maxSteps
  have hleast := val_least
  have hgreatest := val_greatest
  rw [Chain.shift_eq, Chain.shift_eq]
  unfold netRisingFirst netFallingFirst
  constructor
  · intro hsame
    by_cases hdown : fall moves ≤ place + 1
    · exact .inr (.inl hdown)
    · by_cases hup : rise moves + place ≤ Chain.maxSteps
      · exact .inr (.inr hup)
      · exact .inl ⟨by omega, by omega⟩
  · intro hcommutes
    rcases hcommutes with ⟨hup, hdown⟩ | hdown | hup
    · omega
    · omega
    · omega

theorem shift_takeAll_perm_iff {α : Type} (move : α → Int) (steps : List α) {place : Nat}
    (hplace : place < Chain.maxSteps) :
    (∀ order : List α, order.Perm steps →
        Chain.shift place (zero.takeAll (order.map move)).val =
          Chain.shift place (zero.takeAll (steps.map move)).val) ↔
      Commutes place (steps.map move) := by
  rw [← shift_netRisingFirst_eq_iff (steps.map move) hplace]
  constructor
  · intro h
    obtain ⟨first, hfirst, hlow⟩ := exists_perm_netRisingFirst move steps
    obtain ⟨last, hlast, hhigh⟩ := exists_perm_netFallingFirst move steps
    rw [← hlow, ← hhigh]
    exact (h first hfirst).trans (h last hlast).symm
  · intro hsame order horder
    have hextreme : ∀ order : List α, order.Perm steps →
        Chain.shift place (zero.takeAll (order.map move)).val =
          Chain.shift place (netRisingFirst (steps.map move)) := by
      intro order horder
      obtain ⟨hlow, hhigh⟩ := takeAll_zero_between (horder.map move)
      exact Chain.shift_eq_of_between hlow hhigh hsame
    rw [hextreme order horder, hextreme steps (List.Perm.refl steps)]

end Step

namespace Expression

theorem movedDie_of_denotes {form : ExpressionForm} {e : Expression} (h : form.Denotes e) :
    e.movedDie = e.die.move (Step.zero.takeAll form.moves).val := by
  rw [movedDie, h.step]

theorem movedDie_eq_iff {form : ExpressionForm} {e : Expression} (h : form.Denotes e) :
    e.movedDie = e.die.move form.moves.sum ↔
      ∀ place ∈ e.die.place?, Step.SettlesAt place form.moves := by
  rw [movedDie_of_denotes h, Die.move_eq_move_iff]
  constructor
  · intro hshift place hplace
    exact (Step.shift_takeAll_eq_iff place form.moves).1 (hshift place hplace)
  · intro hsettles place hplace
    exact (Step.shift_takeAll_eq_iff place form.moves).2 (hsettles place hplace)

/-- The same steps in another order are accepted too. -/
theorem parse_reordered {form : ExpressionForm} {e : Expression} (h : form.Denotes e)
    {steps : List StepForm} (hperm : steps.Perm form.steps) :
    ∃ e', parse { form with steps }.text = .ok e' ∧ e'.die = e.die ∧
      e'.step = Step.zero.takeAll (steps.map StepForm.move) := by
  refine ⟨{ e with step := Step.zero.takeAll (steps.map StepForm.move) }, ?_, rfl, rfl⟩
  refine parse_eq_ok_of_denotes (ExpressionForm.trim_text { form with steps }).symm ?_
  exact ⟨h.count, h.die, fun step hs => h.lengths step (hperm.subset hs), rfl, h.selection, h.modifier⟩

theorem movedDie_perm_iff {form : ExpressionForm} {e : Expression} (h : form.Denotes e) :
    (∀ steps : List StepForm, steps.Perm form.steps →
        ∃ e', parse { form with steps }.text = .ok e' ∧ e'.movedDie = e.movedDie) ↔
      ∀ place ∈ e.die.place?, Step.Commutes place form.moves := by
  have hmoved : ∀ {e' : Expression} {steps : List StepForm}, e'.die = e.die →
      e'.step = Step.zero.takeAll (steps.map StepForm.move) →
      (e'.movedDie = e.movedDie ↔ ∀ place ∈ e.die.place?,
        Chain.shift place (Step.zero.takeAll (steps.map StepForm.move)).val =
          Chain.shift place (Step.zero.takeAll form.moves).val) := by
    intro e' steps hdie hstep
    rw [movedDie_of_denotes h, movedDie, hdie, hstep, Die.move_eq_move_iff]
  constructor
  · intro hall place hplace
    refine (Step.shift_takeAll_perm_iff StepForm.move form.steps (Die.lt_of_place?_eq_some hplace)).1 ?_
    intro order horder
    obtain ⟨e₁, h₁, hsame⟩ := hall order horder
    obtain ⟨e₂, h₂, hdie, hstep⟩ := parse_reordered h horder
    obtain rfl : e₁ = e₂ := Except.ok.inj (h₁.symm.trans h₂)
    exact (hmoved hdie hstep).1 hsame place hplace
  · intro hcommutes steps hperm
    obtain ⟨e', hparse, hdie, hstep⟩ := parse_reordered h hperm
    refine ⟨e', hparse, (hmoved hdie hstep).2 ?_⟩
    intro place hplace
    exact (Step.shift_takeAll_perm_iff StepForm.move form.steps (Die.lt_of_place?_eq_some hplace)).2
      (hcommutes place hplace) steps hperm

/-- When the steps of an accepted text come to their sum: as a net, at the die that is thrown,
and in every order. -/
theorem steps_come_to_their_sum_iff {source : List Char} {e : Expression}
    (h : parse source = .ok e) :
    (∃ form : ExpressionForm, form.text = Text.trim source) ∧
    ∀ form : ExpressionForm, form.text = Text.trim source →
      (e.step = Step.clamp form.moves.sum ↔ Step.Settles form.moves) ∧
      (e.movedDie = e.die.move form.moves.sum ↔
        ∀ place ∈ e.die.place?, Step.SettlesAt place form.moves) ∧
      ((∀ steps : List StepForm, steps.Perm form.steps →
          ∃ e', parse { form with steps }.text = .ok e' ∧ e'.movedDie = e.movedDie) ↔
        ∀ place ∈ e.die.place?, Step.Commutes place form.moves) := by
  constructor
  · obtain ⟨form, htext, -⟩ := exists_form_of_parse_eq_ok h
    exact ⟨form, htext⟩
  · intro form htext
    have hdenotes := ExpressionForm.denotes_of_parse_eq_ok h htext
    refine ⟨?_, movedDie_eq_iff hdenotes, movedDie_perm_iff hdenotes⟩
    rw [hdenotes.step]
    exact Step.takeAll_eq_clamp_sum_iff form.moves

/-- One twenty-sided die, twenty steps down and then five steps up. -/
def downAndUp : ExpressionForm where
  count? := some (Numeral.ofNat 1)
  die := .faces (Numeral.ofNat 20)
  steps := [⟨.minus, some (Numeral.ofNat 20)⟩, ⟨.plus, some (Numeral.ofNat 5)⟩]
  selection := .all
  modifier? := none

theorem steps_of_downAndUp_do_not_come_to_their_sum : ∃ e, parse downAndUp.text = .ok e ∧
    e.step ≠ Step.clamp downAndUp.moves.sum ∧ e.movedDie ≠ e.die.move downAndUp.moves.sum ∧
    ¬ ∀ steps : List StepForm, steps.Perm downAndUp.steps →
      ∃ e', parse { downAndUp with steps }.text = .ok e' ∧ e'.movedDie = e.movedDie := by
  obtain ⟨e, h⟩ : ∃ e, parse downAndUp.text = .ok e := ⟨_, rfl⟩
  obtain ⟨hnet, hdie, horder⟩ := (steps_come_to_their_sum_iff h).2 downAndUp downAndUp.trim_text.symm
  obtain rfl := Except.ok.inj h
  refine ⟨_, h, ?_, ?_, ?_⟩
  · intro hs
    exact absurd (hnet.1 hs) (by decide)
  · intro hs
    exact absurd (hdie.1 hs 10 rfl) (by decide)
  · intro hs
    exact absurd (horder.1 hs 10 rfl) (by decide)

/-- Twenty down and five up is eight down in all and leads to the d5; five up and twenty down is
thirteen down and leads to the d3, as their sum does. -/
theorem order_of_downAndUp_matters : ∃ e e' : Expression,
    parse "1d20-d20+d5".toList = .ok e ∧ downAndUp.text = "1d20-d20+d5".toList ∧
      e.step.val = -8 ∧ (Step.clamp downAndUp.moves.sum).val = -13 ∧
      e.movedDie.text = ['5'] ∧ (e.die.move downAndUp.moves.sum).text = ['3'] ∧
      parse "1d20+d5-d20".toList = .ok e' ∧ e'.step.val = -13 ∧ e'.movedDie.text = ['3'] :=
  ⟨_, _, rfl, rfl, rfl, rfl, rfl, rfl, rfl, rfl, rfl⟩

end Expression

end Tabletop
