import Tabletop.Proofs.Chain
import Tabletop.Proofs.Ranks
import Tabletop.Proofs.Replaying
import Tabletop.Proofs.Throws

/-!
# Evaluations in turn

Expressions are evaluated one after the other, on one recording and under no limit. What each of
them gives is said here without the evaluator: the die is counted off on the chain, the rolls are
the recorded values from the place that the dice before them have reached, round and round, and
the sum takes in those that the selection marks. One evaluation leaves nothing to the next but
that place.
-/
namespace Tabletop

/-- The sum of the rolls whose flags are raised. -/
def Selection.sumMarked (rolls : List Nat) (flags : List Bool) : Nat :=
  (((rolls.zip flags).filter Prod.snd).map Prod.fst).sum

namespace Hand

variable (rolls : List Nat) (die : Die) (selection : Selection) (modifier : Option Modifier)

theorem subtotal_ofRolls : (ofRolls rolls die selection modifier).subtotal =
    (Selection.sumMarked rolls (selection.flags rolls) : Nat) := by
  rw [subtotal_eq_sum, kept, throws_ofRolls_eq_map_zip, List.filter_map, List.map_map]
  rfl

end Hand

namespace Expression

/-- How many dice the expressions throw together. -/
def diceOf (expressions : List Expression) : Nat :=
  (expressions.map fun e => e.count.val).sum

/-- The hand is what the expression comes to on this recording, with so many dice before it. -/
structure Gives (e : Expression) (draws : List Nat) (before : Nat) (hand : Hand) : Prop where
  die : e.die.Moved e.step.val hand.die
  size : hand.rolled.length = e.count.val
  /-- A recorded zero counts as a one, and what is beyond the last face starts over at the first. -/
  values : ∀ i, i < e.count.val → hand.rolled[i]? =
    draws[(before + i) % draws.length]?.map fun draw => (max draw 1 - 1) % hand.die.faces.val + 1
  onDie : ∀ value ∈ hand.rolled, 1 ≤ value ∧ value ≤ hand.die.faces.val
  itself : ∀ i draw, i < e.count.val → draws[(before + i) % draws.length]? = some draw →
    1 ≤ draw → draw ≤ hand.die.faces.val → hand.rolled[i]? = some draw
  marks : hand.throws.map Throw.kept = e.selection.flags hand.rolled
  subtotal : hand.subtotal = (Selection.sumMarked hand.rolled (e.selection.flags hand.rolled) : Nat)
  unmodified : e.modifier = none → hand.total = hand.subtotal
  added : ∀ value h, e.modifier = some ⟨.plus, value, h⟩ → hand.total = hand.subtotal + value
  taken : ∀ value h, e.modifier = some ⟨.minus, value, h⟩ → hand.total = hand.subtotal - value

/-- The rolls that the dice of the expression read from a recording. -/
def readings (e : Expression) (replay : Replay) : List Nat :=
  (List.range e.count.val).map fun i =>
    Replay.reduce e.movedDie.faces (replay.valueAt (replay.played + i))

theorem gives_handOf_readings (e : Expression) {draws : List Nat} {replay : Replay}
    (hdraws : replay.draws = draws.toArray) :
    e.Gives draws replay.played (e.handOf (e.readings replay)) := by
  have hrolled : (e.handOf (e.readings replay)).rolled = e.readings replay := e.rolled_handOf _
  have htotal : (e.handOf (e.readings replay)).total =
      (e.handOf (e.readings replay)).subtotal + e.bonus := Hand.total_eq_add _
  have hvalue : ∀ i, i < e.count.val → (e.readings replay)[i]? =
      some (Replay.reduce e.movedDie.faces (replay.valueAt (replay.played + i))) := by
    intro i hi
    simp [readings, hi]
  have hread : ∀ i, draws[(replay.played + i) % draws.length]? =
      some (replay.valueAt (replay.played + i)) :=
    fun i => Replay.getElem?_eq_valueAt hdraws (replay.played + i)
  constructor
  case die => exact e.die.moved_move e.step.val
  case size => rw [hrolled, readings, List.length_map, List.length_range]
  case values =>
    intro i hi
    rw [hrolled, hvalue i hi, hread]
    rfl
  case onDie =>
    rw [hrolled]
    intro value hmem
    obtain ⟨i, -, rfl⟩ := List.mem_map.1 hmem
    exact ⟨Replay.one_le_reduce _ _, Replay.reduce_le_faces _ _⟩
  case itself =>
    intro i draw hi hdraw hone hface
    rw [hread] at hdraw
    rw [hrolled, hvalue i hi, Option.some.inj hdraw]
    exact congrArg some (Replay.reduce_of_le hone hface)
  case marks =>
    rw [hrolled]
    exact Hand.map_kept_throws_ofRolls _ _ _ _
  case subtotal =>
    rw [hrolled]
    exact Hand.subtotal_ofRolls _ _ _ _
  case unmodified =>
    intro hnone
    rw [htotal, bonus, hnone]
    exact Int.add_zero _
  case added =>
    intro value h hplus
    rw [htotal, bonus, hplus]
    rfl
  case taken =>
    intro value h hminus
    rw [htotal, bonus, hminus]
    rfl

end Expression

/-- Under no limit, with so many dice rolled from this recording. -/
structure Session.OnRecording (draws : List Nat) (played : Nat) (session : Session Replay) : Prop where
  unlimited : session.budget.limit = none
  draws_eq : session.source.draws = draws.toArray
  played_eq : session.source.played = played

namespace Session

open Expression

variable {α : Type}

theorem perform_eval_of_ok {session after : Session Replay} {e : Expression} {hand : Hand}
    (h : session.eval e = (.ok hand, after)) :
    session.perform (.eval e : Action α) = (.hand hand, after) := by
  show (session.eval e).map (Outcome.ofResult _ _) id = _
  rw [h]
  rfl

namespace OnRecording

variable {draws : List Nat} {played : Nat} {session : Session Replay}

theorem eval (h : session.OnRecording draws played) (e : Expression) :
    ∃ hand after, session.eval e = (.ok hand, after) ∧ e.Gives draws played hand ∧
      after.OnRecording draws (played + e.count.val) := by
  have hgranted : ¬ ∃ limit, session.budget.Exceeds e.count limit := by
    intro hexceeds
    obtain ⟨limit, hlimit, -⟩ := hexceeds
    rw [h.unlimited] at hlimit
    contradiction
  have hthrow := throwDice_of_charge_ok (Budget.charge_of_not_exceeds hgranted) e.movedDie
  rw [Replay.rollMany_eq] at hthrow
  have heval : session.eval e = (.ok (e.handOf (e.readings session.source)),
      ⟨{ session.budget with used := session.budget.requested e.count },
        { session.source with played := session.source.played + e.count.val }⟩) := by
    rw [eval_eq, hthrow]
    rfl
  have hgives := e.gives_handOf_readings h.draws_eq
  rw [h.played_eq] at hgives
  exact ⟨_, _, heval, hgives, h.unlimited, h.draws_eq, congrArg (· + e.count.val) h.played_eq⟩

/-- The evaluations before it settle where in the recording an expression is read, and nothing else. -/
theorem run (h : session.OnRecording draws played) (before : List Expression) (e : Expression)
    (after : List Expression) : ∃ hand last,
      (session.run ((before ++ e :: after).map (Action.eval : Expression → Action α)))[before.length]? =
        some (.hand hand, last) ∧
      e.Gives draws (played + diceOf before) hand ∧
      last.OnRecording draws (played + diceOf before + e.count.val) := by
  induction before generalizing session played with
  | nil =>
    obtain ⟨hand, last, heval, hgives, hlast⟩ := h.eval e
    refine ⟨hand, last, ?_, hgives, hlast⟩
    rw [List.nil_append, List.map_cons, Session.run, perform_eval_of_ok heval]
    rfl
  | cons first before ih =>
    obtain ⟨hand, next, heval, -, hnext⟩ := h.eval first
    have hdice : played + diceOf (first :: before) = played + first.count.val + diceOf before :=
      (Nat.add_assoc _ _ _).symm
    rw [hdice, List.cons_append, List.map_cons, Session.run, perform_eval_of_ok heval]
    exact ih hnext

end OnRecording

/-- Whatever is evaluated before it and after it, an expression gives what the recording says from the
first of its dice on, and so many rolls are made by then. -/
theorem evaluations_follow_recording (draws : List Nat) (hdraws : draws ≠ []) (before : List Expression)
    (e : Expression) (after : List Expression) : ∃ replay hand session,
      Replay.ofList? draws = some replay ∧
      ((start none replay).run
        ((before ++ e :: after).map (Action.eval : Expression → Action α)))[before.length]? =
          some (.hand hand, session) ∧
      e.Gives draws (diceOf before) hand ∧
      session.source.played = diceOf before + e.count.val := by
  have hsize : 0 < draws.toArray.size := List.length_pos_of_ne_nil hdraws
  have hfresh : (start none (Replay.mk draws.toArray hsize 0)).OnRecording draws 0 := ⟨rfl, rfl, rfl⟩
  obtain ⟨hand, session, hrun, hgives, hlast⟩ := hfresh.run (α := α) before e after
  rw [Nat.zero_add] at hgives hlast
  exact ⟨_, hand, session, Replay.ofList?_eq_some_iff.2 ⟨rfl, rfl⟩, hrun, hgives, hlast.played_eq⟩

/-- `4d6dl1`, which reads the first of three values again for its last die. -/
def fourSixes : Expression :=
  ⟨⟨4, by decide, by decide⟩, .poly ⟨6, by decide, by decide⟩, Step.zero, .dropLowest Count.one, none⟩

/-- `2d20+d1kl1-5`. -/
def lowerOfTwo : Expression :=
  ⟨⟨2, by decide, by decide⟩, .poly ⟨20, by decide, by decide⟩, ⟨1, by decide, by decide⟩,
    .keepLowest Count.one, some ⟨.minus, 5, by decide⟩⟩

/-- A recorded zero and the last face of the moved die. -/
def oneAndTwentyFour : Hand :=
  ⟨.poly ⟨24, by decide, by decide⟩, [⟨1, true⟩, ⟨24, false⟩], some ⟨.minus, 5, by decide⟩⟩

theorem handOf_lowerOfTwo : lowerOfTwo.handOf [1, 24] = oneAndTwentyFour := by
  have hflags : (Selection.keepLowest Count.one).flags [1, 24] = [true, false] := by
    rw [Selection.flags_keepLowest]
    decide
  show Hand.ofRolls [1, 24] lowerOfTwo.movedDie (.keepLowest Count.one) lowerOfTwo.modifier = _
  rw [Hand.ofRolls, hflags]
  rfl

theorem lowerOfTwo_follows_recording : ([7, 0, 24] : List Nat) ≠ [] ∧
    ∃ replay session, Replay.ofList? [7, 0, 24] = some replay ∧
      ((start none replay).run
        ([fourSixes, lowerOfTwo].map (Action.eval : Expression → Action Unit)))[1]? =
          some (.hand oneAndTwentyFour, session) ∧
      lowerOfTwo.Gives [7, 0, 24] 4 oneAndTwentyFour ∧ oneAndTwentyFour.total = -4 ∧
      session.source.played = 6 := by
  have hne : ([7, 0, 24] : List Nat) ≠ [] := List.cons_ne_nil 7 [0, 24]
  obtain ⟨replay, hand, session, hreplay, hrun, hgives, hplayed⟩ :=
    evaluations_follow_recording (α := Unit) [7, 0, 24] hne [fourSixes] lowerOfTwo []
  obtain rfl : Replay.mk #[7, 0, 24] (by decide) 0 = replay := Option.some.inj hreplay
  have hshown : ((start none (Replay.mk #[7, 0, 24] (by decide) 0)).run
      ([fourSixes, lowerOfTwo].map (Action.eval : Expression → Action Unit)))[1]? =
        some (.hand oneAndTwentyFour, ⟨⟨none, 6⟩, Replay.mk #[7, 0, 24] (by decide) 6⟩) := by
    rw [← handOf_lowerOfTwo]
    rfl
  obtain ⟨hhand, -⟩ := Prod.mk.inj (Option.some.inj (hrun.symm.trans hshown))
  obtain rfl := Outcome.hand.inj hhand
  exact ⟨hne, _, session, rfl, hrun, hgives, rfl, hplayed⟩

end Session

end Tabletop
