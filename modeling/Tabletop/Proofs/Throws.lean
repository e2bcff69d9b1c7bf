import Tabletop.Proofs.Totals
import Tabletop.Session.Action

/-!
# What a request can do

A request for dice is refused, and then nothing happened, or all of its dice are thrown and
counted. Every other operation of a session is made of such requests, so whatever a request keeps
is kept by all of them, however they end; the reset alone is different.
-/
namespace Tabletop

namespace Budget

/-- What the count would come to, held at the greatest. -/
def requested (budget : Budget) (dice : Count) : Nat :=
  min (budget.used + dice.val) Count.greatest

/-- There is a limit, and so many more dice exceed it. -/
def Exceeds (budget : Budget) (dice : Count) (limit : Nat) : Prop :=
  budget.limit = some limit ∧ limit < budget.requested dice

theorem charge_of_exceeds {budget : Budget} {dice : Count} {limit : Nat}
    (h : budget.Exceeds dice limit) :
    budget.charge dice = .error ⟨budget.requested dice, limit⟩ := by
  unfold charge
  rw [h.1]
  exact if_pos h.2

theorem charge_of_not_exceeds {budget : Budget} {dice : Count}
    (h : ¬ ∃ limit, budget.Exceeds dice limit) :
    budget.charge dice = .ok { budget with used := budget.requested dice } := by
  unfold charge
  cases hlimit : budget.limit with
  | none => rfl
  | some limit => exact if_neg fun hover => h ⟨limit, hlimit, hover⟩

theorem charge_eq_error_iff (budget : Budget) (dice : Count) (e : OverBudget) :
    budget.charge dice = .error e ↔
      ∃ limit, budget.Exceeds dice limit ∧ e = ⟨budget.requested dice, limit⟩ := by
  constructor
  · intro h
    by_cases hexceeds : ∃ limit, budget.Exceeds dice limit
    · obtain ⟨limit, hlimit⟩ := hexceeds
      rw [charge_of_exceeds hlimit] at h
      exact ⟨limit, hlimit, (Except.error.inj h).symm⟩
    · rw [charge_of_not_exceeds hexceeds] at h
      contradiction
  · intro h
    obtain ⟨limit, hlimit, rfl⟩ := h
    exact charge_of_exceeds hlimit

theorem charge_eq_ok_iff (budget : Budget) (dice : Count) (charged : Budget) :
    budget.charge dice = .ok charged ↔ (¬ ∃ limit, budget.Exceeds dice limit) ∧
      charged = { budget with used := budget.requested dice } := by
  constructor
  · intro h
    by_cases hexceeds : ∃ limit, budget.Exceeds dice limit
    · obtain ⟨limit, hlimit⟩ := hexceeds
      rw [charge_of_exceeds hlimit] at h
      contradiction
    · rw [charge_of_not_exceeds hexceeds] at h
      exact ⟨hexceeds, (Except.ok.inj h).symm⟩
  · intro h
    obtain ⟨hwithin, rfl⟩ := h
    exact charge_of_not_exceeds hwithin

end Budget

namespace Session

variable {σ α : Type} [DiceSource σ]

/-! ## One request -/

theorem throwDice_of_charge_error {session : Session σ} {dice : Count} {e : OverBudget}
    (h : session.budget.charge dice = .error e) (die : Die) :
    session.throwDice dice die = (.error e, session) := by
  rw [throwDice, h]

theorem throwDice_of_charge_ok {session : Session σ} {dice : Count} {budget : Budget}
    (h : session.budget.charge dice = .ok budget) (die : Die) :
    session.throwDice dice die =
      (.ok (DiceSource.rollMany die.faces dice.val session.source).1,
        ⟨budget, (DiceSource.rollMany die.faces dice.val session.source).2⟩) := by
  rw [throwDice, h]

/-! ## Operations made of requests -/

theorem eval_eq (session : Session σ) (e : Expression) : session.eval e =
    ((session.throwDice e.count e.movedDie).1.map e.handOf,
      (session.throwDice e.count e.movedDie).2) :=
  rfl

theorem roll_of_parse_error {text : List Char} {error : ExpressionError}
    (h : Expression.parse text = .error error) (session : Session σ) :
    session.roll text = (.error (.unreadable error), session) := by
  rw [roll, h]

theorem roll_of_parse_ok {text : List Char} {e : Expression} (h : Expression.parse text = .ok e)
    (session : Session σ) : session.roll text =
      (((session.eval e).1.map fun hand => Roll.mk e hand).mapError .overBudget,
        (session.eval e).2) := by
  rw [roll, h]

theorem rollAll_cons_of_error {session after : Session σ} {text : List Char} {failure : Failure}
    (h : session.roll text = (.error failure, after)) (texts : List (List Char)) :
    session.rollAll (text :: texts) = (.error failure, after) := by
  rw [rollAll, h]

theorem rollAll_cons_of_ok {session after : Session σ} {text : List Char} {first : Roll}
    (h : session.roll text = (.ok first, after)) (texts : List (List Char)) :
    session.rollAll (text :: texts) =
      ((after.rollAll texts).1.map fun rolls => first :: rolls, (after.rollAll texts).2) := by
  rw [rollAll, h]

theorem rollOn_of_error {session after : Session σ} {text : List Char} {failure : Failure}
    (h : session.roll text = (.error failure, after)) (table : ResultTable α) :
    session.rollOn text table = (.error failure, after) := by
  rw [rollOn, h]

theorem rollOn_of_ok {session after : Session σ} {text : List Char} {roll : Roll}
    (h : session.roll text = (.ok roll, after)) (table : ResultTable α) :
    session.rollOn text table =
      (((table.lookup roll.total).map fun entry => AnsweredRoll.mk roll entry).mapError .table,
        after) := by
  rw [rollOn, h]
  dsimp only
  cases table.lookup roll.total <;> rfl

/-- Behind texts that could be rolled, the others are rolled on what is left of the session; behind
one that failed, none is. -/
theorem rollAll_append (session : Session σ) (first second : List (List Char)) :
    session.rollAll (first ++ second) =
      match session.rollAll first with
      | (.error failure, after) => (.error failure, after)
      | (.ok rolls, after) =>
        ((after.rollAll second).1.map fun more => rolls ++ more, (after.rollAll second).2) := by
  induction first generalizing session with
  | nil =>
    show session.rollAll second = _
    cases hsecond : session.rollAll second with
    | mk result last => cases result <;> simp [rollAll, hsecond, Except.map]
  | cons text first ih =>
    cases hroll : session.roll text with
    | mk result next =>
      cases result with
      | error failure =>
        rw [List.cons_append, rollAll_cons_of_error hroll, rollAll_cons_of_error hroll]
      | ok roll =>
        rw [List.cons_append, rollAll_cons_of_ok hroll, rollAll_cons_of_ok hroll, ih]
        cases next.rollAll first with
        | mk result last =>
          cases result with
          | error failure => rfl
          | ok rolls =>
            cases hsecond : last.rollAll second with
            | mk result after => cases result <;> simp [hsecond, Except.map]

theorem rollAll_append_of_ok {session after : Session σ} {first : List (List Char)}
    {rolls : List Roll} (h : session.rollAll first = (.ok rolls, after)) (second : List (List Char)) :
    session.rollAll (first ++ second) =
      ((after.rollAll second).1.map fun more => rolls ++ more, (after.rollAll second).2) := by
  rw [rollAll_append, h]

/-! ## What a success has done -/

theorem eq_of_throwDice_eq_ok {session after : Session σ} {dice : Count} {die : Die}
    {values : List Nat} (h : session.throwDice dice die = (.ok values, after)) :
    values = (DiceSource.rollMany die.faces dice.val session.source).1 ∧
      after = ⟨{ session.budget with used := session.budget.requested dice },
        (DiceSource.rollMany die.faces dice.val session.source).2⟩ := by
  cases hcharge : session.budget.charge dice with
  | error error =>
    rw [throwDice_of_charge_error hcharge] at h
    exact absurd (Prod.mk.inj h).1 (by simp)
  | ok budget =>
    rw [throwDice_of_charge_ok hcharge] at h
    obtain ⟨hvalues, hafter⟩ := Prod.mk.inj h
    obtain ⟨-, rfl⟩ := (session.budget.charge_eq_ok_iff dice budget).1 hcharge
    exact ⟨(Except.ok.inj hvalues).symm, hafter.symm⟩

/-- An evaluation that succeeds has thrown the moved die of the expression, as often as it says. -/
theorem throwDice_of_eval_eq_ok {session after : Session σ} {e : Expression} {hand : Hand}
    (h : session.eval e = (.ok hand, after)) :
    ∃ values, session.throwDice e.count e.movedDie = (.ok values, after) ∧
      hand = e.handOf values := by
  rw [eval_eq] at h
  obtain ⟨hresult, hafter⟩ := Prod.mk.inj h
  cases hthrow : session.throwDice e.count e.movedDie with
  | mk result next =>
    rw [hthrow] at hresult hafter
    cases result with
    | error error => contradiction
    | ok values =>
      obtain rfl : next = after := hafter
      exact ⟨values, rfl, (Except.ok.inj hresult).symm⟩

theorem eq_handOf_of_eval_eq_ok {session after : Session σ} {e : Expression} {hand : Hand}
    (h : session.eval e = (.ok hand, after)) :
    hand = e.handOf (DiceSource.rollMany e.movedDie.faces e.count.val session.source).1 := by
  obtain ⟨values, hthrow, hhand⟩ := throwDice_of_eval_eq_ok h
  rw [hhand, (eq_of_throwDice_eq_ok hthrow).1]

/-- A roll that succeeds has read its expression and thrown its dice. -/
theorem throwDice_of_roll_eq_ok {session after : Session σ} {text : List Char} {roll : Roll}
    (h : session.roll text = (.ok roll, after)) :
    Expression.parse text = .ok roll.expression ∧ ∃ values,
      session.throwDice roll.expression.count roll.expression.movedDie = (.ok values, after) ∧
        roll.hand = roll.expression.handOf values := by
  cases hparse : Expression.parse text with
  | error error =>
    rw [roll_of_parse_error hparse] at h
    exact absurd (Prod.mk.inj h).1 (by simp)
  | ok e =>
    rw [roll_of_parse_ok hparse] at h
    obtain ⟨hresult, hafter⟩ := Prod.mk.inj h
    cases heval : session.eval e with
    | mk result next =>
      rw [heval] at hresult hafter
      cases result with
      | error error => contradiction
      | ok hand =>
        obtain rfl := Except.ok.inj hresult
        obtain rfl : next = after := hafter
        exact ⟨rfl, throwDice_of_eval_eq_ok heval⟩

/-- A roll that fails has done nothing. -/
theorem eq_of_roll_eq_error {session after : Session σ} {text : List Char} {failure : Failure}
    (h : session.roll text = (.error failure, after)) : after = session := by
  cases hparse : Expression.parse text with
  | error error =>
    rw [roll_of_parse_error hparse] at h
    exact (Prod.mk.inj h).2.symm
  | ok e =>
    rw [roll_of_parse_ok hparse, eval_eq] at h
    cases hcharge : session.budget.charge e.count with
    | error error =>
      rw [throwDice_of_charge_error hcharge] at h
      exact (Prod.mk.inj h).2.symm
    | ok budget =>
      rw [throwDice_of_charge_ok hcharge] at h
      exact absurd (Prod.mk.inj h).1 (by simp [Except.map, Except.mapError])

/-! ## Texts rolled in turn -/

/-- All of the texts are rolled, each on what the one before it leaves of the session. -/
inductive RolledEach : Session σ → List (List Char) → List Roll → Session σ → Prop
  | nil (session : Session σ) : RolledEach session [] [] session
  | cons {session next after : Session σ} {text : List Char} {texts : List (List Char)}
      {roll : Roll} {rolls : List Roll} (first : session.roll text = (.ok roll, next))
      (rest : RolledEach next texts rolls after) :
      RolledEach session (text :: texts) (roll :: rolls) after

theorem rollAll_eq_ok_iff {session after : Session σ} {texts : List (List Char)}
    {rolls : List Roll} :
    session.rollAll texts = (.ok rolls, after) ↔ RolledEach session texts rolls after := by
  constructor
  · intro h
    induction texts generalizing session rolls with
    | nil =>
      obtain ⟨hrolls, rfl⟩ := Prod.mk.inj h
      obtain rfl := Except.ok.inj hrolls
      exact .nil session
    | cons text texts ih =>
      cases hroll : session.roll text with
      | mk result next =>
        cases result with
        | error failure =>
          rw [rollAll_cons_of_error hroll] at h
          exact absurd (Prod.mk.inj h).1 (by simp)
        | ok roll =>
          rw [rollAll_cons_of_ok hroll] at h
          obtain ⟨hresult, hafter⟩ := Prod.mk.inj h
          cases hrest : next.rollAll texts with
          | mk result last =>
            rw [hrest] at hresult hafter
            cases result with
            | error failure => contradiction
            | ok more =>
              obtain rfl := Except.ok.inj hresult
              obtain rfl : last = after := hafter
              exact .cons hroll (ih hrest)
  · intro h
    induction h with
    | nil session => rfl
    | cons first _ ih => rw [rollAll_cons_of_ok first, ih]; rfl

/-- It is one text that fails, and all before it are rolled. -/
theorem rollAll_eq_error_iff {session after : Session σ} {texts : List (List Char)}
    {failure : Failure} :
    session.rollAll texts = (.error failure, after) ↔
      ∃ before text behind rolls, texts = before ++ text :: behind ∧
        RolledEach session before rolls after ∧ after.roll text = (.error failure, after) := by
  constructor
  · intro h
    induction texts generalizing session with
    | nil => exact absurd (Prod.mk.inj h).1 (by simp)
    | cons text texts ih =>
      cases hroll : session.roll text with
      | mk result next =>
        cases result with
        | error refusal =>
          rw [rollAll_cons_of_error hroll] at h
          obtain ⟨hrefusal, rfl⟩ := Prod.mk.inj h
          obtain rfl := Except.error.inj hrefusal
          obtain rfl := eq_of_roll_eq_error hroll
          exact ⟨[], text, texts, [], rfl, .nil _, hroll⟩
        | ok roll =>
          rw [rollAll_cons_of_ok hroll] at h
          obtain ⟨hresult, hafter⟩ := Prod.mk.inj h
          cases hrest : next.rollAll texts with
          | mk result last =>
            rw [hrest] at hresult hafter
            cases result with
            | ok more => contradiction
            | error refusal =>
              obtain rfl : refusal = failure := Except.error.inj hresult
              obtain rfl : last = after := hafter
              obtain ⟨before, failed, behind, rolls, rfl, hbefore, hfailed⟩ := ih hrest
              exact ⟨text :: before, failed, behind, roll :: rolls, rfl, .cons hroll hbefore, hfailed⟩
  · intro h
    obtain ⟨before, text, behind, rolls, rfl, hbefore, hfailed⟩ := h
    rw [rollAll_append_of_ok (rollAll_eq_ok_iff.2 hbefore), rollAll_cons_of_error hfailed]
    rfl

/-! ## Rolls on a table -/

/-- No table has a part in a roll. -/
theorem roll_ne_table_error (session : Session σ) (text : List Char) (e : TableError) :
    (session.roll text).1 ≠ .error (.table e) := by
  cases hparse : Expression.parse text with
  | error error =>
    rw [roll_of_parse_error hparse]
    simp
  | ok expression =>
    rw [roll_of_parse_ok hparse]
    cases (session.eval expression).1 <;> simp [Except.map, Except.mapError]

/-- Where only the table fails, the roll is made. -/
theorem roll_of_rollOn_eq_table_error {session after : Session σ} {text : List Char}
    {table : ResultTable α} {e : TableError}
    (h : session.rollOn text table = (.error (.table e), after)) :
    ∃ roll, session.roll text = (.ok roll, after) := by
  cases hroll : session.roll text with
  | mk result next =>
    cases result with
    | error failure =>
      rw [rollOn_of_error hroll] at h
      have hne := session.roll_ne_table_error text e
      obtain rfl : failure = .table e := Except.error.inj (Prod.mk.inj h).1
      rw [hroll] at hne
      exact absurd rfl hne
    | ok roll =>
      rw [rollOn_of_ok hroll] at h
      obtain rfl : next = after := (Prod.mk.inj h).2
      exact ⟨roll, rfl⟩

/-- The dice stay rolled whether or not the table has an answer. -/
theorem rollOn_snd (session : Session σ) (text : List Char) (table : ResultTable α) :
    (session.rollOn text table).2 = (session.roll text).2 := by
  cases hroll : session.roll text with
  | mk result after =>
    cases result with
    | error failure => rw [rollOn_of_error hroll]
    | ok roll => rw [rollOn_of_ok hroll]

/-! ## What requests keep -/

section Kept

variable {P : Session σ → Prop}

theorem eval_keeps (hthrow : ∀ session dice die, P session → P (session.throwDice dice die).2)
    {session : Session σ} (h : P session) (e : Expression) : P (session.eval e).2 :=
  hthrow session e.count e.movedDie h

theorem roll_keeps (hthrow : ∀ session dice die, P session → P (session.throwDice dice die).2)
    {session : Session σ} (h : P session) (text : List Char) : P (session.roll text).2 := by
  cases hparse : Expression.parse text with
  | error error =>
    rw [roll_of_parse_error hparse]
    exact h
  | ok e =>
    rw [roll_of_parse_ok hparse]
    exact eval_keeps hthrow h e

theorem rollAll_keeps (hthrow : ∀ session dice die, P session → P (session.throwDice dice die).2)
    {session : Session σ} (h : P session) (texts : List (List Char)) :
    P (session.rollAll texts).2 := by
  induction texts generalizing session with
  | nil => exact h
  | cons text texts ih =>
    have hfirst := roll_keeps hthrow h text
    cases hroll : session.roll text with
    | mk result after =>
      rw [hroll] at hfirst
      cases result with
      | error failure =>
        rw [rollAll_cons_of_error hroll]
        exact hfirst
      | ok first =>
        rw [rollAll_cons_of_ok hroll]
        exact ih hfirst

/-- Whatever every request keeps, every action keeps but the reset. -/
theorem perform_keeps (hthrow : ∀ session dice die, P session → P (session.throwDice dice die).2)
    {session : Session σ} (h : P session) {action : Action α} (haction : action ≠ .reset) :
    P (session.perform action).2 := by
  cases action with
  | reset => exact absurd rfl haction
  | throwDice dice die => exact hthrow session dice die h
  | eval e => exact eval_keeps hthrow h e
  | roll text => exact roll_keeps hthrow h text
  | rollLine line => exact rollAll_keeps hthrow h (Line.pieces line)
  | rollOn text table =>
    show P (session.rollOn text table).2
    rw [rollOn_snd]
    exact roll_keeps hthrow h text

end Kept

end Session

end Tabletop
