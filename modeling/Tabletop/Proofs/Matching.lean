import Mathlib.Data.List.Forall2
import Tabletop.Proofs.Throws

/-!
# Sessions that match

Two sessions on different sources are compared request by request. Where each request has alike
results on both, and leaves sessions that match again, every operation and every run does: the same
texts fail for the same reason, and the others give rolls of the same expressions with alike hands.
-/
namespace Tabletop

/-- Two results that are the same failure, or are values that are alike. -/
inductive ResultsAlike {ε β γ : Type} (alike : β → γ → Prop) : Except ε β → Except ε γ → Prop
  | error (e : ε) : ResultsAlike alike (.error e) (.error e)
  | ok {b : β} {c : γ} (h : alike b c) : ResultsAlike alike (.ok b) (.ok c)

namespace ResultsAlike

variable {ε ε' β γ β' γ' : Type} {alike : β → γ → Prop} {first : Except ε β} {second : Except ε γ}

theorem refl {alike : β → β → Prop} (h : ∀ b, alike b b) (result : Except ε β) :
    ResultsAlike alike result result := by
  cases result with
  | error e => exact .error e
  | ok b => exact .ok (h b)

theorem map {alike' : β' → γ' → Prop} {f : β → β'} {g : γ → γ'} (h : ResultsAlike alike first second)
    (hfg : ∀ b c, alike b c → alike' (f b) (g c)) :
    ResultsAlike alike' (first.map f) (second.map g) := by
  cases h with
  | error e => exact .error e
  | ok h => exact .ok (hfg _ _ h)

theorem mapError (h : ResultsAlike alike first second) (f : ε → ε') :
    ResultsAlike alike (first.mapError f) (second.mapError f) := by
  cases h with
  | error e => exact .error (f e)
  | ok h => exact .ok h

end ResultsAlike

/-- Two rolls of one expression, with hands that are alike. -/
structure Roll.Alike (hands : Hand → Hand → Prop) (first second : Roll) : Prop where
  expression : first.expression = second.expression
  hand : hands first.hand second.hand

/-- Two outcomes of one action. Answers of tables are not compared but by equality. -/
inductive Outcome.Alike {α : Type} (values : List Nat → List Nat → Prop) (hands : Hand → Hand → Prop) :
    Outcome α → Outcome α → Prop
  | done : Alike values hands .done .done
  | values {first second : List Nat} (h : values first second) :
      Alike values hands (.values first) (.values second)
  | hand {first second : Hand} (h : hands first second) :
      Alike values hands (.hand first) (.hand second)
  | roll {first second : Roll} (h : Roll.Alike hands first second) :
      Alike values hands (.roll first) (.roll second)
  | rolls {first second : List Roll} (h : List.Forall₂ (Roll.Alike hands) first second) :
      Alike values hands (.rolls first) (.rolls second)
  | answered (roll : AnsweredRoll α) : Alike values hands (.answered roll) (.answered roll)
  | failed (failure : Failure) : Alike values hands (.failed failure) (.failed failure)

theorem Roll.Alike.eq {hands : Hand → Hand → Prop} (hhands : ∀ hand hand', hands hand hand' → hand = hand')
    {first second : Roll} (h : Roll.Alike hands first second) : first = second := by
  obtain ⟨expression, hand⟩ := first
  obtain ⟨expression', hand'⟩ := second
  obtain ⟨rfl, hhand⟩ := h
  rw [hhands hand hand' hhand]

/-- Where only the same values and hands are alike, so are only the same outcomes. -/
theorem Outcome.Alike.eq {α : Type} {values : List Nat → List Nat → Prop} {hands : Hand → Hand → Prop}
    (hvalues : ∀ rolls rolls', values rolls rolls' → rolls = rolls')
    (hhands : ∀ hand hand', hands hand hand' → hand = hand') {first second : Outcome α}
    (h : Outcome.Alike values hands first second) : first = second := by
  cases h with
  | done | answered | failed => rfl
  | values h => rw [hvalues _ _ h]
  | hand h => rw [hhands _ _ h]
  | roll h => rw [h.eq hhands]
  | rolls h =>
    have hrolls := h.imp fun _ _ => Roll.Alike.eq hhands
    rw [List.forall₂_eq_eq_eq] at hrolls
    rw [hrolls]

theorem Outcome.alike_ofResult {α ε β : Type} {values : List Nat → List Nat → Prop}
    {hands : Hand → Hand → Prop} {alike : β → β → Prop} {first second : Except ε β}
    (h : ResultsAlike alike first second) (failure : ε → Failure) {outcome : β → Outcome α}
    (houtcome : ∀ b c, alike b c → Outcome.Alike values hands (outcome b) (outcome c)) :
    Outcome.Alike values hands (ofResult failure outcome first) (ofResult failure outcome second) := by
  cases h with
  | error e => exact .failed (failure e)
  | ok h => exact houtcome _ _ h

/-- The action looks a total up in a table. -/
def Action.isLookup {α : Type} : Action α → Bool
  | .rollOn _ _ => true
  | _ => false

namespace Session

variable {σ α : Type} [DiceSource σ]

/-- The session after all of the actions. -/
def finish (session : Session σ) (actions : List (Action α)) : Session σ :=
  actions.foldl (fun session action => (session.perform action).2) session

theorem finish_cons (session : Session σ) (action : Action α) (actions : List (Action α)) :
    session.finish (action :: actions) = (session.perform action).2.finish actions := rfl

/-- What every request and the reset keep, a run keeps. -/
theorem finish_keeps {P : Session σ → Prop}
    (hthrow : ∀ session dice die, P session → P (session.throwDice dice die).2)
    (hreset : ∀ session, P session → P session.reset) {session : Session σ} (h : P session)
    (actions : List (Action α)) : P (session.finish actions) := by
  induction actions generalizing session with
  | nil => exact h
  | cons action actions ih =>
    rw [finish_cons]
    refine ih ?_
    by_cases haction : action = .reset
    · subst haction
      exact hreset session h
    · exact perform_keeps hthrow h haction

end Session

/-- Which values and which hands are alike. Alike values make alike hands of every expression. -/
structure Likeness where
  values : List Nat → List Nat → Prop
  hands : Hand → Hand → Prop
  hands_handOf : ∀ {first second} (e : Expression), values first second →
    hands (e.handOf first) (e.handOf second)

namespace Likeness

/-- Only the same values and the same hands are alike. -/
structure Exact (likeness : Likeness) : Prop where
  values : ∀ rolls rolls', likeness.values rolls rolls' → rolls = rolls'
  hands : ∀ hand hand', likeness.hands hand hand' → hand = hand'

def same : Likeness where
  values := (· = ·)
  hands := (· = ·)
  hands_handOf e h := congrArg e.handOf h

theorem same_exact : same.Exact := ⟨fun _ _ => id, fun _ _ => id⟩

end Likeness

/-- Which sessions on two sources match, and up to where sessions on the first source are compared:
where the session after a request is, so is the one before it. Requests and resets keep the match. -/
structure Matching (σ τ : Type) [DiceSource σ] [DiceSource τ] extends Likeness where
  sessions : Session σ → Session τ → Prop
  within : Session σ → Prop
  within_of_throwDice : ∀ {session : Session σ} {dice die},
    within (session.throwDice dice die).2 → within session
  within_of_reset : ∀ {session : Session σ}, within session.reset → within session
  throwDice : ∀ {first second} (dice die), sessions first second →
    within (first.throwDice dice die).2 →
      ResultsAlike values (first.throwDice dice die).1 (second.throwDice dice die).1 ∧
        sessions (first.throwDice dice die).2 (second.throwDice dice die).2
  reset : ∀ {first second}, sessions first second → sessions first.reset second.reset

namespace Matching

variable {σ τ α ε β γ : Type} [DiceSource σ] [DiceSource τ] (m : Matching σ τ)
  {first : Session σ} {second : Session τ}

/-- Two operations that have alike results and end in sessions that match, if these are compared. -/
def Agree (alike : β → γ → Prop) (one : Except ε β × Session σ) (other : Except ε γ × Session τ) :
    Prop :=
  m.within one.2 → ResultsAlike alike one.1 other.1 ∧ m.sessions one.2 other.2

theorem eval (h : m.sessions first second) (e : Expression) :
    m.Agree m.hands (first.eval e) (second.eval e) := by
  intro hwithin
  obtain ⟨hresult, hsessions⟩ := m.throwDice e.count e.movedDie h hwithin
  exact ⟨hresult.map fun values values' => m.hands_handOf e, hsessions⟩

theorem roll (h : m.sessions first second) (text : List Char) :
    m.Agree (Roll.Alike m.hands) (first.roll text) (second.roll text) := by
  cases hparse : Expression.parse text with
  | error error =>
    rw [Session.roll_of_parse_error hparse, Session.roll_of_parse_error hparse]
    exact fun _ => ⟨.error _, h⟩
  | ok e =>
    rw [Session.roll_of_parse_ok hparse, Session.roll_of_parse_ok hparse]
    intro hwithin
    obtain ⟨hresult, hsessions⟩ := m.eval h e hwithin
    exact ⟨(hresult.map fun hand hand' hhands => ⟨rfl, hhands⟩).mapError _, hsessions⟩

theorem within_of_rollAll {texts : List (List Char)} (h : m.within (first.rollAll texts).2) :
    m.within first := by
  by_contra hnot
  exact Session.rollAll_keeps (P := fun session => ¬ m.within session)
    (fun session dice die hsession hthrow => hsession (m.within_of_throwDice hthrow)) hnot texts h

/-- The induction is on the texts; each session on the way is compared, as the last one is. -/
theorem rollAll (h : m.sessions first second) (texts : List (List Char)) :
    m.Agree (List.Forall₂ (Roll.Alike m.hands)) (first.rollAll texts) (second.rollAll texts) := by
  induction texts generalizing first second with
  | nil => exact fun _ => ⟨.ok .nil, h⟩
  | cons text texts ih =>
    have hagree := m.roll h text
    cases hroll : first.roll text with
    | mk result after =>
      cases hroll' : second.roll text with
      | mk result' after' =>
        rw [hroll, hroll'] at hagree
        cases result with
        | error failure =>
          rw [Session.rollAll_cons_of_error hroll]
          intro hwithin
          obtain ⟨hresult, hsessions⟩ := hagree hwithin
          cases hresult with
          | error failure =>
            rw [Session.rollAll_cons_of_error hroll']
            exact ⟨.error failure, hsessions⟩
        | ok roll =>
          rw [Session.rollAll_cons_of_ok hroll]
          intro hwithin
          obtain ⟨hresult, hsessions⟩ := hagree (m.within_of_rollAll hwithin)
          cases hresult with
          | ok hhead =>
            rw [Session.rollAll_cons_of_ok hroll']
            obtain ⟨htail, hlast⟩ := ih hsessions hwithin
            exact ⟨htail.map fun rolls rolls' hrolls => .cons hhead hrolls, hlast⟩

/-- With the same hands tables give the same answers. -/
theorem rollOn (h : m.sessions first second) (hexact : m.Exact)
    (text : List Char) (table : ResultTable α) :
    m.Agree (· = ·) (first.rollOn text table) (second.rollOn text table) := by
  have hagree := m.roll h text
  cases hroll : first.roll text with
  | mk result after =>
    cases hroll' : second.roll text with
    | mk result' after' =>
      rw [hroll, hroll'] at hagree
      cases result with
      | error failure =>
        rw [Session.rollOn_of_error hroll]
        intro hwithin
        obtain ⟨hresult, hsessions⟩ := hagree hwithin
        cases hresult with
        | error failure =>
          rw [Session.rollOn_of_error hroll']
          exact ⟨.error failure, hsessions⟩
      | ok roll =>
        rw [Session.rollOn_of_ok hroll]
        intro hwithin
        obtain ⟨hresult, hsessions⟩ := hagree hwithin
        cases hresult with
        | @ok _ roll' hroll =>
          obtain rfl : roll = roll' := hroll.eq hexact.hands
          rw [Session.rollOn_of_ok hroll']
          refine ⟨?_, hsessions⟩
          cases table.lookup roll.total with
          | error error => exact .error _
          | ok entry => exact .ok rfl

/-- Every action has alike outcomes; a lookup needs hands that are the same. -/
theorem perform (h : m.sessions first second) (action : Action α)
    (hlookup : action.isLookup = true → m.Exact)
    (hwithin : m.within (first.perform action).2) :
    Outcome.Alike m.values m.hands (first.perform action).1 (second.perform action).1 ∧
      m.sessions (first.perform action).2 (second.perform action).2 := by
  cases action with
  | reset => exact ⟨.done, m.reset h⟩
  | throwDice dice die =>
    obtain ⟨hresult, hsessions⟩ := m.throwDice dice die h hwithin
    exact ⟨Outcome.alike_ofResult hresult _ fun _ _ => .values, hsessions⟩
  | eval e =>
    obtain ⟨hresult, hsessions⟩ := m.eval h e hwithin
    exact ⟨Outcome.alike_ofResult hresult _ fun _ _ => .hand, hsessions⟩
  | roll text =>
    obtain ⟨hresult, hsessions⟩ := m.roll h text hwithin
    exact ⟨Outcome.alike_ofResult hresult _ fun _ _ => .roll, hsessions⟩
  | rollLine line =>
    obtain ⟨hresult, hsessions⟩ := m.rollAll h (Line.pieces line) hwithin
    exact ⟨Outcome.alike_ofResult hresult _ fun _ _ => .rolls, hsessions⟩
  | rollOn text table =>
    obtain ⟨hresult, hsessions⟩ := m.rollOn h (hlookup rfl) text table hwithin
    refine ⟨Outcome.alike_ofResult hresult _ ?_, hsessions⟩
    rintro answer _ rfl
    exact .answered answer

theorem within_of_finish {actions : List (Action α)} (h : m.within (first.finish actions)) :
    m.within first := by
  by_contra hnot
  exact Session.finish_keeps (P := fun session => ¬ m.within session)
    (fun session dice die hsession hthrow => hsession (m.within_of_throwDice hthrow))
    (fun session hsession hreset => hsession (m.within_of_reset hreset)) hnot actions h

/-- Runs from sessions that match have alike outcomes; the sessions match after each action, and at
the end. -/
theorem run (h : m.sessions first second) (actions : List (Action α))
    (hlookup : ∀ action ∈ actions, action.isLookup = true → m.Exact)
    (hwithin : m.within (first.finish actions)) :
    List.Forall₂ (fun one other => Outcome.Alike m.values m.hands one.1 other.1 ∧
      m.sessions one.2 other.2) (first.run actions) (second.run actions) ∧
    m.sessions (first.finish actions) (second.finish actions) := by
  induction actions generalizing first second with
  | nil => exact ⟨.nil, h⟩
  | cons action actions ih =>
    obtain ⟨hhead, hrest⟩ := List.forall_mem_cons.1 hlookup
    have hnext := m.perform h action hhead (m.within_of_finish hwithin)
    obtain ⟨hruns, hlast⟩ := ih hnext.2 hrest hwithin
    exact ⟨.cons hnext hruns, hlast⟩

/-- With the same values and hands, runs have the same outcomes, and the sessions after each action
show the same of all that sessions which match have in common. -/
theorem map_run_eq (h : m.sessions first second) (hexact : m.Exact) (actions : List (Action α))
    (hwithin : m.within (first.finish actions)) {f : Session σ → β} {g : Session τ → β}
    (hfg : ∀ session session', m.sessions session session' → f session = g session') :
    (first.run actions).map (Prod.map id f) = (second.run actions).map (Prod.map id g) := by
  obtain ⟨hruns, -⟩ := m.run h actions (fun _ _ _ => hexact) hwithin
  rw [← List.forall₂_eq_eq_eq, List.forall₂_map_left_iff, List.forall₂_map_right_iff]
  refine hruns.imp ?_
  intro one other hboth
  exact Prod.ext (hboth.1.eq hexact.values hexact.hands) (hfg _ _ hboth.2)

end Matching

end Tabletop
