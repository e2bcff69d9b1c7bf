import Tabletop.Proofs.Replaying
import Tabletop.Proofs.Throws

/-!
# Totals that come up

Over all rolls of its dice an expression comes to every total from the least to the greatest, and
to no other. With fewer than 2³¹ dice nothing that is added up on the way leaves 64 bits.
-/
namespace Tabletop

namespace Hand

/-- Nothing that is reckoned from the dice that count is beyond 64 bits. -/
structure Within64Bits (hand : Hand) : Prop where
  /-- The sums that adding them up in order goes through. -/
  sums : ∀ part, part <+: hand.kept →
    Bound.least ≤ (part.sum : Nat) ∧ ((part.sum : Nat) : Int) ≤ Bound.greatest
  amount : ∀ modifier ∈ hand.modifier,
    Bound.least ≤ modifier.amount ∧ modifier.amount ≤ Bound.greatest
  total : Bound.least ≤ hand.total ∧ hand.total ≤ Bound.greatest

end Hand

namespace Expression

/-- The dice of the expression can show these values, and are as many. -/
structure CanRoll (e : Expression) (rolls : List Nat) : Prop where
  length_eq : rolls.length = e.count.val
  canShow : e.movedDie.faces.CanShow rolls

theorem within64Bits_handOf {e : Expression} (hcount : e.count.val ≤ tightCount) {rolls : List Nat}
    (h : e.CanRoll rolls) : (e.handOf rolls).Within64Bits := by
  have hwithin :=
    (Hand.canShow_kept_ofRolls rolls e.movedDie e.selection e.modifier h.canShow).sum_within.2
  rw [Hand.length_kept_ofRolls, h.length_eq] at hwithin
  have hsum : (e.handOf rolls).kept.sum ≤ tightCount * Faces.greatest :=
    Nat.le_trans hwithin (Nat.mul_le_mul
      (Nat.le_trans (e.selection.keptCount_le _) hcount) e.movedDie.faces.le_greatest)
  have hlimit : ((tightCount * Faces.greatest : Nat) : Int) ≤ Bound.greatest := by decide
  have hleast : Bound.least ≤ -(Modifier.greatest : Int) := by decide
  have hgreatest : (Modifier.greatest : Int) ≤ Bound.greatest := by decide
  constructor
  case sums =>
    intro part hpart
    obtain ⟨rest, hrest⟩ := hpart
    have hkept : part.sum + rest.sum = (e.handOf rolls).kept.sum := by
      rw [← List.sum_append, hrest]
    omega
  case amount =>
    intro modifier hmodifier
    have hbonus := e.bonus_within
    have hamount : e.bonus = modifier.amount := by
      rw [bonus, show e.modifier = some modifier from hmodifier]
      rfl
    omega
  case total =>
    obtain ⟨hlow, hhigh⟩ := e.total_within h.length_eq h.canShow
    obtain ⟨hfirst, hlast⟩ := e.totals_within_64_bits hcount
    exact ⟨Int.le_trans hfirst hlow, Int.le_trans hhigh hlast⟩

end Expression

namespace Session

variable {σ : Type} [DiceSource σ]

/-- The rolls that a fresh session under no limit makes for an expression. -/
def firstRolls (e : Expression) (source : σ) : List Nat :=
  (DiceSource.rollMany e.movedDie.faces e.count.val source).1

theorem length_firstRolls (e : Expression) (source : σ) :
    (firstRolls e source).length = e.count.val :=
  DiceSource.length_rollMany _ _ _

theorem canShow_firstRolls (e : Expression) (source : σ) :
    e.movedDie.faces.CanShow (firstRolls e source) :=
  DiceSource.mem_rollMany_bounds _ _ _

theorem eval_start_none (e : Expression) (source : σ) :
    ((start none source).eval e).1 = .ok (e.handOf (firstRolls e source)) :=
  rfl

/-- On a recording of its rolls an expression makes these rolls. -/
theorem exists_recording {e : Expression} {rolls : List Nat} (h : e.CanRoll rolls) :
    ∃ replay, Replay.ofList? rolls = some replay ∧ firstRolls e replay = rolls := by
  have hone := e.count.one_le
  rw [← h.length_eq] at hone
  have hsize : 0 < rolls.toArray.size := hone
  have hreplay : Replay.ofList? rolls = some ⟨rolls.toArray, hsize, 0⟩ :=
    Replay.ofList?_eq_some_iff.2 ⟨rfl, rfl⟩
  refine ⟨_, hreplay, ?_⟩
  rw [firstRolls, ← h.length_eq]
  exact Replay.rollMany_of_canShow hreplay h.canShow

/-- The expression has this total on some rolls of its dice, played back from a recording of them. -/
def ComesTo (e : Expression) (total : Int) : Prop :=
  ∃ rolls replay hand, e.CanRoll rolls ∧ Replay.ofList? rolls = some replay ∧
    ((start none replay).eval e).1 = .ok hand ∧ hand.total = total

/-- The totals of an expression over all rolls of its dice are the whole numbers from the least, where
the dice that count show ones, to the greatest, where they show their last face; every roll can come
up, and its total is reckoned within 64 bits. -/
theorem totals_make_up_interval (e : Expression) (hcount : e.count.val ≤ 2147483647) :
    (∀ total : Int, ComesTo e total ↔
      e.keptCount + e.bonus ≤ total ∧ total ≤ e.keptCount * e.movedDie.faces.val + e.bonus) ∧
    ∀ rolls, e.CanRoll rolls → ∃ replay hand, Replay.ofList? rolls = some replay ∧
      ((start none replay).eval e).1 = .ok hand ∧ hand.rolled = rolls ∧ hand.Within64Bits := by
  refine ⟨?_, ?_⟩
  · intro total
    constructor
    · intro h
      obtain ⟨rolls, replay, hand, -, -, heval, rfl⟩ := h
      obtain rfl := Except.ok.inj ((eval_start_none e replay).symm.trans heval)
      exact e.total_within (length_firstRolls e replay) (canShow_firstRolls e replay)
    · intro h
      obtain ⟨rolls, hlength, hshow, htotal⟩ := e.exists_rolls_of_total h.1 h.2
      have hcan : e.CanRoll rolls := ⟨hlength, hshow⟩
      obtain ⟨replay, hreplay, hrolls⟩ := exists_recording hcan
      refine ⟨rolls, replay, _, hcan, hreplay, eval_start_none e replay, ?_⟩
      rw [hrolls]
      exact htotal
  · intro rolls h
    obtain ⟨replay, hreplay, hrolls⟩ := exists_recording h
    have heval := eval_start_none e replay
    rw [hrolls] at heval
    exact ⟨replay, _, hreplay, heval, e.rolled_handOf rolls,
      Expression.within64Bits_handOf hcount h⟩

/-- As many dice as may be, with as many faces as there are, and the greatest bonus. -/
def mostDice : Expression :=
  ⟨⟨2147483647, by decide, by decide⟩, .poly ⟨4294967295, by decide, by decide⟩, Step.zero, .keepAll,
    some ⟨.plus, 4294967295, by decide⟩⟩

theorem totals_of_mostDice : mostDice.count.val ≤ 2147483647 ∧
    ComesTo mostDice 9223372034707292160 ∧ ¬ ComesTo mostDice 9223372034707292161 ∧
    mostDice.CanRoll (List.replicate mostDice.count.val mostDice.movedDie.faces.val) ∧
    ∃ replay hand,
      Replay.ofList? (List.replicate mostDice.count.val mostDice.movedDie.faces.val) = some replay ∧
      ((start none replay).eval mostDice).1 = .ok hand ∧ hand.Within64Bits := by
  have hcount : mostDice.count.val ≤ 2147483647 := Nat.le_refl _
  obtain ⟨hinterval, hrolls⟩ := totals_make_up_interval mostDice hcount
  have hlast : mostDice.CanRoll (List.replicate mostDice.count.val mostDice.movedDie.faces.val) :=
    ⟨List.length_replicate, Faces.canShow_replicate _ mostDice.movedDie.faces.one_le (Nat.le_refl _)⟩
  have hbeyond : ¬ ComesTo mostDice 9223372034707292161 :=
    fun h => absurd ((hinterval 9223372034707292161).1 h).2 (by decide)
  obtain ⟨replay, hand, hreplay, heval, -, hwithin⟩ := hrolls _ hlast
  exact ⟨hcount, (hinterval 9223372034707292160).2 (by decide), hbeyond, hlast, replay, hand, hreplay,
    heval, hwithin⟩

end Session

end Tabletop
