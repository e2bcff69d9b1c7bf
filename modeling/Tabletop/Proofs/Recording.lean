import Tabletop.Proofs.Matching

/-!
# Recorded sessions

A source that also keeps all values it has given so far, in order. Whoever uses it cannot tell: a
session on the recorded source does what it would do on the source alone, so what the record says
of a run holds of the run without it.
-/
namespace Tabletop

/-- A source of dice with the values drawn from it so far. -/
structure Recorded (σ : Type) where
  source : σ
  drawn : List Nat := []

namespace Recorded

variable {σ : Type} [DiceSource σ]

instance : DiceSource (Recorded σ) where
  roll faces recorded :=
    ((DiceSource.roll faces recorded.source).1,
      ⟨(DiceSource.roll faces recorded.source).2,
        recorded.drawn ++ [(DiceSource.roll faces recorded.source).1]⟩)
  one_le_roll faces recorded := DiceSource.one_le_roll faces recorded.source
  roll_le_faces faces recorded := DiceSource.roll_le_faces faces recorded.source

theorem rollMany_eq (faces : Faces) (n : Nat) (recorded : Recorded σ) :
    DiceSource.rollMany faces n recorded =
      ((DiceSource.rollMany faces n recorded.source).1,
        ⟨(DiceSource.rollMany faces n recorded.source).2,
          recorded.drawn ++ (DiceSource.rollMany faces n recorded.source).1⟩) := by
  induction n generalizing recorded with
  | zero => simp [DiceSource.rollMany]
  | succ n ih =>
    rw [DiceSource.rollMany, DiceSource.rollMany]
    dsimp only
    rw [ih]
    simp [DiceSource.roll]

end Recorded

namespace Session

variable {σ α : Type} [DiceSource σ]

/-- The session without the record. -/
def forget (session : Session (Recorded σ)) : Session σ :=
  ⟨session.budget, session.source.source⟩

/-- A request adds the values that it gives to the record, or it fails. -/
theorem throwDice_recorded (session : Session (Recorded σ)) (dice : Count) (die : Die) :
    (∃ e, session.budget.charge dice = .error e ∧
      session.throwDice dice die = (.error e, session)) ∨
    ∃ budget source rolls, session.budget.charge dice = .ok budget ∧ rolls.length = dice.val ∧
      die.faces.CanShow rolls ∧ session.throwDice dice die =
        (.ok rolls, ⟨budget, ⟨source, session.source.drawn ++ rolls⟩⟩) := by
  cases hcharge : session.budget.charge dice with
  | error e => exact .inl ⟨e, rfl, throwDice_of_charge_error hcharge die⟩
  | ok budget =>
    have hthrow := throwDice_of_charge_ok hcharge die
    rw [Recorded.rollMany_eq] at hthrow
    exact .inr ⟨budget, _, _, rfl, DiceSource.length_rollMany _ _ _,
      DiceSource.mem_rollMany_bounds _ _ _, hthrow⟩

theorem throwDice_forget (session : Session (Recorded σ)) (dice : Count) (die : Die) :
    session.forget.throwDice dice die = (session.throwDice dice die).map id forget := by
  cases hcharge : session.budget.charge dice with
  | error e =>
    have hplain : session.forget.budget.charge dice = .error e := hcharge
    rw [throwDice_of_charge_error hcharge, throwDice_of_charge_error hplain]
    rfl
  | ok budget =>
    have hplain : session.forget.budget.charge dice = .ok budget := hcharge
    rw [throwDice_of_charge_ok hcharge, throwDice_of_charge_ok hplain, Recorded.rollMany_eq]
    rfl

end Session

/-- A session on the recorded source matches the one without the record, and no other. -/
def Matching.forgetting (σ : Type) [DiceSource σ] : Matching (Recorded σ) σ where
  toLikeness := .same
  sessions session plain := session.forget = plain
  within _ := True
  within_of_throwDice _ := trivial
  within_of_reset _ := trivial
  throwDice := by
    intro session plain dice die h _
    subst h
    rw [Session.throwDice_forget]
    exact ⟨.refl (fun _ => rfl) _, rfl⟩
  reset h := congrArg Session.reset h

namespace Session

variable {σ α : Type} [DiceSource σ]

/-- A run on the recorded source is the run on the source. -/
theorem run_forget (session : Session (Recorded σ)) (actions : List (Action α)) :
    session.forget.run actions = (session.run actions).map (Prod.map id forget) := by
  have hmatch : (Matching.forgetting σ).sessions session session.forget := rfl
  have hruns := (Matching.forgetting σ).map_run_eq hmatch Likeness.same_exact actions trivial
    (f := forget) (g := id) fun _ _ => id
  rw [hruns, Prod.map_id, List.map_id]

end Session

end Tabletop
