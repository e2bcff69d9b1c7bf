import Mathlib.Data.List.Forall2
import Tabletop.DiceSource.Replay
import Tabletop.Proofs.Recording

/-!
# The budget and the dice

After every operation of a run, however it ended, the budget has counted the dice drawn from the
source since the last reset, none twice and none too few, up to the greatest count. Under a limit
below that count no more dice are drawn than it allows.
-/
namespace Tabletop

/-- The budget has this limit, has counted so many drawn dice, and did not let more through than
the limit allows. -/
structure Budget.Counts (limit : Option Nat) (drawn : Nat) (budget : Budget) : Prop where
  limit_eq : budget.limit = limit
  used_eq : budget.used = min drawn Count.greatest
  drawn_le : ∀ most, limit = some most → most < Count.greatest → drawn ≤ most

theorem Budget.Counts.charge {limit : Option Nat} {drawn : Nat} {budget charged : Budget}
    (h : budget.Counts limit drawn) {dice : Count} (hcharge : budget.charge dice = .ok charged) :
    charged.Counts limit (drawn + dice.val) := by
  obtain ⟨hwithin, rfl⟩ := (budget.charge_eq_ok_iff dice charged).1 hcharge
  have hused := h.used_eq
  have hrequested : budget.requested dice = min (budget.used + dice.val) Count.greatest := rfl
  refine ⟨h.limit_eq, ?_, ?_⟩
  · show budget.requested dice = _
    omega
  · intro most hlimit hmost
    have hdrawn := h.drawn_le most hlimit hmost
    have hnot : ¬ most < budget.requested dice := fun hover =>
      hwithin ⟨most, h.limit_eq.trans hlimit, hover⟩
    omega

theorem Budget.Counts.reset {limit : Option Nat} {drawn : Nat} {budget : Budget}
    (h : budget.Counts limit drawn) : budget.reset.Counts limit 0 :=
  ⟨h.limit_eq, (Nat.zero_min _).symm, fun _ _ _ => Nat.zero_le _⟩

namespace Session

variable {σ α : Type} [DiceSource σ]

/-! ## Dice since the last reset -/

/-- The dice drawn since the last reset, one action later. -/
def drawnAfter (drawn : Nat) (session : Session (Recorded σ)) (action : Action α) : Nat :=
  match action with
  | .reset => 0
  | action =>
    drawn + ((session.perform action).2.source.drawn.length - session.source.drawn.length)

/-- After each of the actions, the dice drawn since the last reset. -/
def drawnSinceReset (drawn : Nat) (session : Session (Recorded σ)) : List (Action α) → List Nat
  | [] => []
  | action :: actions =>
    session.drawnAfter drawn action ::
      drawnSinceReset (session.drawnAfter drawn action) (session.perform action).2 actions

theorem drawnAfter_of_ne_reset (drawn : Nat) (session : Session (Recorded σ)) {action : Action α}
    (haction : action ≠ .reset) : session.drawnAfter drawn action =
      drawn + ((session.perform action).2.source.drawn.length - session.source.drawn.length) := by
  cases action with
  | reset => exact absurd rfl haction
  | throwDice dice die => rfl
  | eval e => rfl
  | roll text => rfl
  | rollLine line => rfl
  | rollOn text table => rfl

/-- Since the record had so many dice fewer, the budget has counted what was drawn. -/
structure CountsSince (limit : Option Nat) (drawn before : Nat) (session : Session (Recorded σ)) :
    Prop where
  le_length : before ≤ session.source.drawn.length
  counts : session.budget.Counts limit (drawn + (session.source.drawn.length - before))

theorem CountsSince.throwDice {limit : Option Nat} {drawn before : Nat}
    (session : Session (Recorded σ)) (dice : Count) (die : Die)
    (h : CountsSince limit drawn before session) :
    CountsSince limit drawn before (session.throwDice dice die).2 := by
  cases hcharge : session.budget.charge dice with
  | error e =>
    rw [throwDice_of_charge_error hcharge]
    exact h
  | ok charged =>
    rw [throwDice_of_charge_ok hcharge, Recorded.rollMany_eq]
    have hle := h.le_length
    have hcounts := h.counts.charge hcharge
    have hlength : (session.source.drawn ++
        (DiceSource.rollMany die.faces dice.val session.source.source).1).length =
          session.source.drawn.length + dice.val := by
      rw [List.length_append, DiceSource.length_rollMany]
    refine ⟨?_, ?_⟩
    · show before ≤ (session.source.drawn ++ _).length
      omega
    · show charged.Counts limit (drawn + ((session.source.drawn ++ _).length - before))
      rw [hlength, show drawn + (session.source.drawn.length + dice.val - before) =
        drawn + (session.source.drawn.length - before) + dice.val by omega]
      exact hcounts

/-- What the budget counts after an action is what was drawn since the last reset. -/
theorem counts_perform {limit : Option Nat} {drawn : Nat} {session : Session (Recorded σ)}
    (h : session.budget.Counts limit drawn) (action : Action α) :
    (session.perform action).2.budget.Counts limit (session.drawnAfter drawn action) := by
  by_cases haction : action = .reset
  · subst haction
    exact h.reset
  · have hstart : CountsSince limit drawn session.source.drawn.length session :=
      ⟨Nat.le_refl _, by rwa [Nat.sub_self, Nat.add_zero]⟩
    rw [drawnAfter_of_ne_reset drawn session haction]
    exact (perform_keeps CountsSince.throwDice hstart haction).counts

/-- After each action of a run the budget has counted what was drawn since the last reset. -/
theorem counts_run {limit : Option Nat} {drawn : Nat} {session : Session (Recorded σ)}
    (h : session.budget.Counts limit drawn) (actions : List (Action α)) :
    List.Forall₂ (fun drawn after => after.2.budget.Counts limit drawn)
      (session.drawnSinceReset drawn actions) (session.run actions) := by
  induction actions generalizing drawn session with
  | nil => exact .nil
  | cons action actions ih =>
    have hnext := counts_perform h action
    exact .cons hnext (ih hnext)

/-! ## Single requests -/

/-- What a roll comes to when its total is looked up. -/
def lookedUp (table : ResultTable α) (roll : Roll) : Outcome α :=
  match table.lookup roll.total with
  | .error e => .failed (.table e)
  | .ok entry => .answered ⟨roll, entry⟩

/-- The action asks once for so many dice of the kind. When they show these values, this is the
outcome. -/
inductive Requests : Action α → Count → Die → (List Nat → Outcome α) → Prop
  | throwDice (dice : Count) (die : Die) : Requests (.throwDice dice die) dice die .values
  | eval (e : Expression) :
      Requests (.eval e) e.count e.movedDie fun values => .hand (e.handOf values)
  | roll {text : List Char} {e : Expression} (read : Expression.parse text = .ok e) :
      Requests (.roll text) e.count e.movedDie fun values => .roll ⟨e, e.handOf values⟩
  | rollOn {text : List Char} {e : Expression} (read : Expression.parse text = .ok e)
      (table : ResultTable α) :
      Requests (.rollOn text table) e.count e.movedDie fun values =>
        lookedUp table ⟨e, e.handOf values⟩

/-- The request is refused, with nothing done, exactly when the count would come to exceed the
limit; otherwise all its dice are drawn, and no others. -/
structure AllOrNothing (session : Session (Recorded σ)) (action : Action α) (dice : Count)
    (die : Die) (outcome : List Nat → Outcome α) : Prop where
  refused_iff : ∀ e, (session.perform action).1 = .failed (.overBudget e) ↔
    ∃ most, session.budget.limit = some most ∧
      most < min (session.budget.used + dice.val) Count.greatest ∧
      e = ⟨min (session.budget.used + dice.val) Count.greatest, most⟩
  untouched : ∀ e, (session.perform action).1 = .failed (.overBudget e) →
    (session.perform action).2 = session
  drawn : (∀ e, (session.perform action).1 ≠ .failed (.overBudget e)) → ∃ values next,
    DiceSource.rollMany die.faces dice.val session.source.source = (values, next) ∧
      values.length = dice.val ∧
      session.perform action = (outcome values,
        ⟨{ session.budget with used := min (session.budget.used + dice.val) Count.greatest },
          ⟨next, session.source.drawn ++ values⟩⟩)

/-- Such an action does what its request does. -/
theorem perform_of_requests {action : Action α} {dice : Count} {die : Die}
    {outcome : List Nat → Outcome α} (h : Requests action dice die outcome) (session : Session σ) :
    session.perform action =
      (session.throwDice dice die).map (.ofResult .overBudget outcome) id := by
  cases h with
  | throwDice => rfl
  | eval e =>
    show (session.eval e).map (Outcome.ofResult .overBudget .hand) id = _
    rw [eval_eq]
    cases session.throwDice e.count e.movedDie with
    | mk result after => cases result <;> rfl
  | @roll text e read =>
    show (session.roll text).map (Outcome.ofResult id .roll) id = _
    rw [roll_of_parse_ok read, eval_eq]
    cases session.throwDice e.count e.movedDie with
    | mk result after => cases result <;> rfl
  | @rollOn text e read table =>
    show (session.rollOn text table).map (Outcome.ofResult id .answered) id = _
    have hroll := roll_of_parse_ok read session
    rw [eval_eq] at hroll
    cases hthrow : session.throwDice e.count e.movedDie with
    | mk result after =>
      rw [hthrow] at hroll
      cases result with
      | error error => rw [rollOn_of_error hroll]; rfl
      | ok values =>
        rw [rollOn_of_ok hroll]
        show (Outcome.ofResult id Outcome.answered _, after) =
          (lookedUp table ⟨e, e.handOf values⟩, after)
        unfold lookedUp
        cases table.lookup (Roll.mk e (e.handOf values)).total <;> rfl

/-- No table refuses dice. -/
theorem Requests.ne_refused {action : Action α} {dice : Count} {die : Die}
    {outcome : List Nat → Outcome α} (h : Requests action dice die outcome) (values : List Nat)
    (e : OverBudget) : outcome values ≠ .failed (.overBudget e) := by
  cases h with
  | rollOn read table =>
    dsimp only
    unfold lookedUp
    split <;> simp
  | throwDice | eval | roll => simp

theorem allOrNothing {action : Action α} {dice : Count} {die : Die}
    {outcome : List Nat → Outcome α} (h : Requests action dice die outcome)
    (session : Session (Recorded σ)) : AllOrNothing session action dice die outcome := by
  have hperform := perform_of_requests h session
  cases hcharge : session.budget.charge dice with
  | error refusal =>
    obtain ⟨most, ⟨hlimit, hover⟩, rfl⟩ := (session.budget.charge_eq_error_iff dice refusal).1 hcharge
    rw [throwDice_of_charge_error hcharge] at hperform
    constructor
    case refused_iff =>
      intro e
      rw [hperform]
      constructor
      · intro he
        injection he with he
        injection he with he
        exact ⟨most, hlimit, hover, he.symm⟩
      · intro he
        obtain ⟨most', hlimit', -, rfl⟩ := he
        obtain rfl := Option.some.inj (hlimit.symm.trans hlimit')
        rfl
    case untouched =>
      intro _ _
      rw [hperform]
      rfl
    case drawn =>
      intro hgranted
      rw [hperform] at hgranted
      exact absurd rfl (hgranted _)
  | ok charged =>
    obtain ⟨hwithin, rfl⟩ := (session.budget.charge_eq_ok_iff dice charged).1 hcharge
    rw [throwDice_of_charge_ok hcharge, Recorded.rollMany_eq] at hperform
    have hgranted : ∀ e, (session.perform action).1 ≠ .failed (.overBudget e) := by
      intro e
      rw [hperform]
      exact h.ne_refused _ e
    constructor
    case refused_iff =>
      intro e
      constructor
      · exact fun he => absurd he (hgranted e)
      · intro he
        obtain ⟨most, hlimit, hover, -⟩ := he
        exact absurd ⟨most, hlimit, hover⟩ hwithin
    case untouched => exact fun e he => absurd he (hgranted e)
    case drawn =>
      intro _
      exact ⟨_, _, rfl, DiceSource.length_rollMany _ _ _, hperform⟩

/-! ## What stays drawn -/

theorem drawn_of_roll_eq_ok {session after : Session (Recorded σ)} {text : List Char} {roll : Roll}
    (h : session.roll text = (.ok roll, after)) :
    after.source.drawn = session.source.drawn ++ roll.hand.rolled ∧
      roll.hand.rolled.length = roll.expression.count.val ∧
      after.budget.used =
        min (session.budget.used + roll.expression.count.val) Count.greatest := by
  obtain ⟨-, values, hthrow, hhand⟩ := throwDice_of_roll_eq_ok h
  obtain ⟨hvalues, rfl⟩ := eq_of_throwDice_eq_ok hthrow
  have hrolled : roll.hand.rolled = values := by
    rw [hhand, Expression.rolled_handOf]
  rw [hrolled, hvalues, DiceSource.length_rollMany, Recorded.rollMany_eq]
  exact ⟨rfl, rfl, rfl⟩

theorem RolledEach.drawn {session after : Session (Recorded σ)} {texts : List (List Char)}
    {rolls : List Roll} (h : RolledEach session texts rolls after) :
    after.source.drawn = session.source.drawn ++ rolls.flatMap (·.hand.rolled) ∧
      ∀ roll ∈ rolls, roll.hand.rolled.length = roll.expression.count.val := by
  induction h with
  | nil session => simp
  | cons first _ ih =>
    obtain ⟨hfirst, hlength, -⟩ := drawn_of_roll_eq_ok first
    obtain ⟨hrest, hlengths⟩ := ih
    constructor
    · rw [hrest, hfirst, List.flatMap_cons, List.append_assoc]
    · exact List.forall_mem_cons.2 ⟨hlength, hlengths⟩

/-- A line is rolled text by text. One that fails stops it and does nothing, and what was rolled
before it stays drawn. -/
structure TextByText (session : Session (Recorded σ)) (line : List Char) : Prop where
  rolled_iff : ∀ rolls after, session.rollLine line = (.ok rolls, after) ↔
    RolledEach session (Line.pieces line) rolls after
  failed_iff : ∀ failure after, session.rollLine line = (.error failure, after) ↔
    ∃ before text behind rolls, Line.pieces line = before ++ text :: behind ∧
      RolledEach session before rolls after ∧ after.roll text = (.error failure, after)
  drawn : ∀ texts rolls after, RolledEach session texts rolls after →
    after.source.drawn = session.source.drawn ++ rolls.flatMap (·.hand.rolled) ∧
      ∀ roll ∈ rolls, roll.hand.rolled.length = roll.expression.count.val

/-- Where a table has no answer, the dice of the roll stay drawn and counted. -/
theorem drawn_of_rollOn_eq_table_error {session after : Session (Recorded σ)} {text : List Char}
    {table : ResultTable α} {e : TableError}
    (h : session.rollOn text table = (.error (.table e), after)) :
    ∃ roll, session.roll text = (.ok roll, after) ∧
      after.source.drawn = session.source.drawn ++ roll.hand.rolled ∧
      roll.hand.rolled.length = roll.expression.count.val ∧
      after.budget.used =
        min (session.budget.used + roll.expression.count.val) Count.greatest := by
  obtain ⟨roll, hroll⟩ := roll_of_rollOn_eq_table_error h
  exact ⟨roll, hroll, drawn_of_roll_eq_ok hroll⟩

/-- A run counts the dice it draws, whatever fails on the way: after every action the count is that
of the dice drawn since the last reset, the limit is the first one, and a limit below the greatest
count holds for the dice themselves. Whatever asks for dice once is granted whole or not at all, and
a line asks for those of its texts in turn. A text that cannot be read leaves all as it was, and a
total that no entry answers leaves its dice counted. -/
theorem budget_counts_dice (limit : Option Nat) (source : σ) (actions : List (Action α)) :
    ((start limit (Recorded.mk source [])).run actions).map (Prod.map id forget) =
      (start limit source).run actions ∧
    List.Forall₂ (fun drawn after => after.2.budget.Counts limit drawn)
      ((start limit (Recorded.mk source [])).drawnSinceReset 0 actions)
      ((start limit source).run actions) ∧
    (∀ (session : Session (Recorded σ)) (action : Action α) (dice : Count) (die : Die)
      (outcome : List Nat → Outcome α), Requests action dice die outcome →
        AllOrNothing session action dice die outcome) ∧
    (∀ (session : Session (Recorded σ)) (line : List Char), TextByText session line) ∧
    (∀ (session : Session σ) (text : List Char) (error : ExpressionError),
      Expression.parse text = .error error →
        session.roll text = (.error (.unreadable error), session) ∧
        ∀ table : ResultTable α,
          session.rollOn text table = (.error (.unreadable error), session)) ∧
    (∀ (session after : Session (Recorded σ)) (text : List Char) (table : ResultTable α)
      (e : TableError), session.rollOn text table = (.error (.table e), after) →
        ∃ roll, session.roll text = (.ok roll, after) ∧
          after.source.drawn = session.source.drawn ++ roll.hand.rolled ∧
          roll.hand.rolled.length = roll.expression.count.val ∧
          after.budget.used =
            min (session.budget.used + roll.expression.count.val) Count.greatest) ∧
    ∀ session : Session σ,
      session.reset = ⟨{ session.budget with used := 0 }, session.source⟩ := by
  have hforget := run_forget (start limit (Recorded.mk source [])) actions
  have hfresh : (start limit (Recorded.mk source [])).budget.Counts limit 0 :=
    ⟨rfl, (Nat.zero_min _).symm, fun _ _ _ => Nat.zero_le _⟩
  refine ⟨hforget.symm, ?_, fun session action dice die outcome h => allOrNothing h session,
    ?_, ?_, ?_, fun _ => rfl⟩
  · have hcounts := counts_run hfresh actions
    rw [show (start limit source).run actions = _ from hforget, List.forall₂_map_right_iff]
    exact hcounts
  · intro session line
    constructor
    · exact fun rolls after => rollAll_eq_ok_iff
    · exact fun failure after => rollAll_eq_error_iff
    · exact fun texts rolls after h => h.drawn
  · intro session text error hparse
    have hroll := roll_of_parse_error hparse session
    exact ⟨hroll, rollOn_of_error hroll⟩
  · intro session after text table e
    exact drawn_of_rollOn_eq_table_error

/-- Six dice are thrown and counted, and there may be ten. -/
def sixOfTen : Session (Recorded Replay) :=
  ⟨⟨some 10, 6⟩, Replay.mk #[1, 2, 3] (by decide) 6, [1, 2, 3, 1, 2, 3]⟩

/-- Six more are refused, with the count of twelve that they would lead to, however they are asked
for; after a reset they are drawn. -/
theorem budget_counts_dice_of_sixOfTen : ∃ e, Expression.parse "6d6".toList = .ok e ∧
    sixOfTen.perform (.eval e : Action Unit) = (.failed (.overBudget ⟨12, 10⟩), sixOfTen) ∧
    sixOfTen.perform (.roll "6d6".toList : Action Unit) =
      (.failed (.overBudget ⟨12, 10⟩), sixOfTen) ∧
    ∃ hand after, sixOfTen.reset.perform (.eval e : Action Unit) = (.hand hand, after) ∧
      after.budget = ⟨some 10, 6⟩ ∧
      after.source.drawn = [1, 2, 3, 1, 2, 3] ++ [1, 2, 3, 1, 2, 3] := by
  obtain ⟨e, hread⟩ : ∃ e, Expression.parse "6d6".toList = .ok e := ⟨_, rfl⟩
  obtain ⟨-, -, hasked, -⟩ :=
    budget_counts_dice (some 10) (Replay.mk #[1, 2, 3] (by decide) 0) ([] : List (Action Unit))
  have hcount : e.count.val = 6 := by
    obtain rfl := Except.ok.inj hread
    rfl
  have hrefused : ∃ most, sixOfTen.budget.limit = some most ∧
      most < min (sixOfTen.budget.used + e.count.val) Count.greatest ∧
      (⟨12, 10⟩ : OverBudget) = ⟨min (sixOfTen.budget.used + e.count.val) Count.greatest, most⟩ := by
    rw [hcount]
    exact ⟨10, rfl, by decide, rfl⟩
  have heval := hasked sixOfTen _ _ _ _ (.eval e)
  have hroll := hasked sixOfTen _ _ _ _ (.roll hread)
  have hevalRefused := (heval.refused_iff _).2 hrefused
  have hrollRefused := (hroll.refused_iff _).2 hrefused
  refine ⟨e, hread, Prod.ext hevalRefused (heval.untouched _ hevalRefused),
    Prod.ext hrollRefused (hroll.untouched _ hrollRefused), ?_⟩
  obtain rfl := Except.ok.inj hread
  exact ⟨_, _, rfl, rfl, rfl⟩

end Session

end Tabletop
