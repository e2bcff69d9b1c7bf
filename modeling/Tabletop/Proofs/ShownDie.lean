import Tabletop.DiceSource.Replay
import Tabletop.Proofs.Markup
import Tabletop.Proofs.Ranks
import Tabletop.Proofs.Stepping
import Tabletop.Proofs.Throws

/-!
# The die that the head of a roll shows

The head of a roll shows the die that was thrown wherever the net of the steps is not zero. That is
more often than the die moves: a die that is not on the chain, and one that stands at the end to
which the steps lead, are thrown as they were written. So the head never keeps a move silent, and
what it shows is the die that was thrown, but it tells of a move exactly when there is room for it.
-/
namespace Tabletop

theorem Chain.shift_ne_self_iff {place : Nat} (h : place < maxSteps) (steps : Int) :
    shift place steps ≠ place ↔
      (0 < steps ∧ place + 1 < sizes.length) ∨ (steps < 0 ∧ 0 < place) := by
  have hlength : sizes.length = maxSteps := rfl
  rw [shift_eq]
  omega

namespace Die

/-- The chain goes on from the die in the direction of the steps. -/
def CanMove (die : Die) (steps : Int) : Prop :=
  ∃ place ∈ die.place?, (0 < steps ∧ place + 1 < Chain.sizes.length) ∨ (steps < 0 ∧ 0 < place)

instance (die : Die) (steps : Int) : Decidable (die.CanMove steps) :=
  inferInstanceAs (Decidable (∃ place ∈ die.place?, _ ∨ _))

/-- One step of room is enough for the die to become another. -/
theorem move_ne_self_iff (die : Die) (steps : Int) : die.move steps ≠ die ↔ die.CanMove steps := by
  rw [Ne, move_eq_self_iff]
  constructor
  · intro h
    obtain ⟨place, hleaves⟩ := not_forall.1 h
    obtain ⟨hplace, hne⟩ := Classical.not_imp.1 hleaves
    exact ⟨place, hplace, (Chain.shift_ne_self_iff (lt_of_place?_eq_some hplace) steps).1 hne⟩
  · intro hroom hstays
    obtain ⟨place, hplace, hend⟩ := hroom
    exact (Chain.shift_ne_self_iff (lt_of_place?_eq_some hplace) steps).2 hend (hstays place hplace)

end Die

namespace Style

/-- The head shows a die behind the expression exactly when it is not the die that is written there,
and then it is the die that was thrown. -/
structure HeadTruthful (roll : Roll) : Prop where
  shown : " as d".toList <:+: headText roll ↔ roll.hand.die ≠ roll.expression.die
  moved : roll.hand.die ≠ roll.expression.die →
    headText roll = roll.expression.text ++ " as d".toList ++ roll.hand.die.text
  plain : roll.hand.die = roll.expression.die → headText roll = roll.expression.text

theorem headText_of_step_eq_zero {roll : Roll} (h : roll.expression.step.val = 0) :
    headText roll = roll.expression.text :=
  if_pos h

theorem headText_of_step_ne_zero {roll : Roll} (h : roll.expression.step.val ≠ 0) :
    headText roll = roll.expression.text ++ " as d".toList ++ roll.hand.die.text :=
  if_neg h

/-- No expression is written with a space, so the words are there only where they are put. -/
theorem isInfix_headText_iff (roll : Roll) :
    " as d".toList <:+: headText roll ↔ roll.expression.step.val ≠ 0 := by
  constructor
  · intro hshown hzero
    rw [headText_of_step_eq_zero hzero] at hshown
    have hspace : ' ' ∈ roll.expression.text := hshown.subset (by decide)
    exact roll.expression.meaningful_text.not_mem (by decide) hspace
  · intro hsteps
    rw [headText_of_step_ne_zero hsteps]
    exact ⟨roll.expression.text, roll.hand.die.text, rfl⟩

/-- Where the hand is of the moved die, the head tells the truth unless steps lead nowhere. -/
theorem headTruthful_iff {roll : Roll} (h : roll.hand.die = roll.expression.movedDie) :
    HeadTruthful roll ↔
      roll.expression.step.val = 0 ∨ roll.expression.die.CanMove roll.expression.step.val := by
  have hmoves : roll.hand.die ≠ roll.expression.die ↔
      roll.expression.die.CanMove roll.expression.step.val := by
    rw [h]
    exact roll.expression.die.move_ne_self_iff _
  constructor
  · intro htruthful
    by_cases hzero : roll.expression.step.val = 0
    · exact .inl hzero
    · exact .inr (hmoves.1 (htruthful.shown.1 ((isInfix_headText_iff roll).2 hzero)))
  · intro hroom
    have hsteps : roll.expression.step.val ≠ 0 ↔ roll.hand.die ≠ roll.expression.die := by
      rw [hmoves]
      constructor
      · exact fun hne => hroom.resolve_left hne
      · rintro ⟨place, -, hdirection⟩
        omega
    constructor
    · rw [isInfix_headText_iff, hsteps]
    · exact fun hmoved => headText_of_step_ne_zero (hsteps.2 hmoved)
    · exact fun hsame => headText_of_step_eq_zero (not_not.1 fun hne => hsteps.1 hne hsame)

/-- The head of an evaluated expression shows the thrown die exactly where there are steps, and it is
silent of no move. It tells the truth when there are no steps, or when the chain goes on from the
written die in their direction; otherwise the written die is shown as one that it moved to. -/
theorem head_shows_steps_not_moves {σ : Type} [DiceSource σ] {session after : Session σ}
    {e : Expression} {hand : Hand} (h : session.eval e = (.ok hand, after)) :
    (e.die.Moved e.step.val hand.die ∧
      hand.rolled = (DiceSource.rollMany hand.die.faces e.count.val session.source).1) ∧
    (" as d".toList <:+: headText ⟨e, hand⟩ ↔ e.step.val ≠ 0) ∧
    (" as d".toList <:+: headText ⟨e, hand⟩ →
      headText ⟨e, hand⟩ = e.text ++ " as d".toList ++ hand.die.text) ∧
    (¬ " as d".toList <:+: headText ⟨e, hand⟩ →
      headText ⟨e, hand⟩ = e.text ∧ hand.die = e.die) ∧
    (hand.die ≠ e.die ↔ e.die.CanMove e.step.val) ∧
    (HeadTruthful ⟨e, hand⟩ ↔ e.step.val = 0 ∨ e.die.CanMove e.step.val) := by
  obtain rfl := Session.eq_handOf_of_eval_eq_ok h
  have hshown := isInfix_headText_iff ⟨e, e.handOf
    (DiceSource.rollMany e.movedDie.faces e.count.val session.source).1⟩
  refine ⟨⟨e.die.moved_move e.step.val, e.rolled_handOf _⟩, hshown, ?_, ?_,
    e.die.move_ne_self_iff e.step.val, headTruthful_iff rfl⟩
  · intro hinfix
    exact headText_of_step_ne_zero (hshown.1 hinfix)
  · intro hinfix
    have hzero : e.step.val = 0 := not_not.1 fun hne => hinfix (hshown.2 hne)
    refine ⟨headText_of_step_eq_zero hzero, ?_⟩
    show e.die.move e.step.val = e.die
    rw [hzero, Die.move_zero]

/-- One die with so many faces, moved by one step up the chain. -/
def oneUp (faces : Faces) : Expression :=
  { count := Count.one, die := .poly faces, step := Step.clamp 1 }

def nineUp : Expression := oneUp ⟨9, by decide, by decide⟩

def twelveUp : Expression := oneUp ⟨12, by decide, by decide⟩

def thirtyUp : Expression := oneUp ⟨30, by decide, by decide⟩

/-- A session without a limit, on a recording of a single roll. -/
def onSingle (roll : Nat) : Session Replay :=
  Session.start none (Replay.mk #[roll] Nat.one_pos 0)

/-- From the d12 there is room upwards, from the d30 there is none. -/
theorem head_shows_steps_not_moves_at_the_end : ∃ (moved held : Hand) (after : Session Replay),
    (onSingle 11).eval twelveUp = (.ok moved, after) ∧
      headText ⟨twelveUp, moved⟩ = "1d12+d1 as d14".toList ∧ HeadTruthful ⟨twelveUp, moved⟩ ∧
    (onSingle 11).eval thirtyUp = (.ok held, after) ∧
      headText ⟨thirtyUp, held⟩ = "1d30+d1 as d30".toList ∧ ¬ HeadTruthful ⟨thirtyUp, held⟩ := by
  have htwelve : (onSingle 11).eval twelveUp =
      (.ok (twelveUp.handOf [11]), ⟨⟨none, 1⟩, Replay.mk #[11] (by decide) 1⟩) := rfl
  have hthirty : (onSingle 11).eval thirtyUp =
      (.ok (thirtyUp.handOf [11]), ⟨⟨none, 1⟩, Replay.mk #[11] (by decide) 1⟩) := rfl
  obtain ⟨-, -, -, -, -, hroom⟩ := head_shows_steps_not_moves htwelve
  obtain ⟨-, -, -, -, -, hnoRoom⟩ := head_shows_steps_not_moves hthirty
  exact ⟨_, _, _, htwelve, by decide, hroom.2 (by decide), hthirty, by decide,
    fun htruthful => absurd (hnoRoom.1 htruthful) (by decide)⟩

/-- No step leads from the d9, and its head shows one. -/
theorem head_of_nineSided_shows_no_move : ∃ (roll : Roll) (after : Session Replay),
    (onSingle 9).roll "1d9+d".toList = (.ok roll, after) ∧
      roll.hand.die = roll.expression.die ∧ " as d".toList <:+: headText roll ∧
      simple.rollText roll = "1d9+d1 as d9 (9) = 9".toList ∧ ¬ HeadTruthful roll := by
  have hroll : (onSingle 9).roll "1d9+d".toList =
      (.ok ⟨nineUp, nineUp.handOf [9]⟩, ⟨⟨none, 1⟩, Replay.mk #[9] (by decide) 1⟩) := rfl
  have hhand : nineUp.handOf [9] = ⟨nineUp.die, [⟨9, true⟩], none⟩ := by
    show Hand.ofRolls [9] _ .keepAll _ = _
    rw [Hand.ofRolls, Selection.flags_keepAll]
    rfl
  have hshown := (isInfix_headText_iff ⟨nineUp, nineUp.handOf [9]⟩).2 (by decide)
  refine ⟨_, _, hroll, rfl, hshown, ?_, fun htruthful => htruthful.shown.1 hshown rfl⟩
  rw [hhand]
  decide

end Style

end Tabletop
