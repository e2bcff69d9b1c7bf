import Tabletop.Proofs.Attained
import Tabletop.Proofs.Canonical
import Tabletop.Proofs.Uncovered

/-!
# Tables that answer every roll

A roll on a table fails for want of an entry only where the table leaves a total of the expression
uncovered. So checking a table for gaps between the least and the greatest total is enough, and no
less will do: each total in a gap comes up on some recording.
-/
namespace Tabletop

namespace Session

variable {σ α : Type} [DiceSource σ]

theorem roll_start_none {text : List Char} {e : Expression} (h : Expression.parse text = .ok e)
    (source : σ) :
    ((start none source).roll text).1 = .ok ⟨e, e.handOf (firstRolls e source)⟩ := by
  rw [roll_of_parse_ok h]
  rfl

/-- Without a limit, all that can fail is the lookup. -/
theorem rollOn_start_none_eq_noMatch_iff {text : List Char} {e : Expression}
    (h : Expression.parse text = .ok e) (source : σ) (table : ResultTable α) (total : Int) :
    ((start none source).rollOn text table).1 = .error (.table (.noMatch total)) ↔
      total = (e.handOf (firstRolls e source)).total ∧
        table.lookup total = .error (.noMatch total) := by
  have hok := roll_start_none h source
  cases hroll : (start none source).roll text with
  | mk result after =>
    rw [hroll] at hok
    obtain rfl : result = .ok ⟨e, e.handOf (firstRolls e source)⟩ := hok
    rw [rollOn_of_ok hroll]
    show ((table.lookup (e.handOf (firstRolls e source)).total).map _).mapError Failure.table = _ ↔ _
    cases hlookup : table.lookup (e.handOf (firstRolls e source)).total with
    | ok entry =>
      constructor
      · intro hfails
        contradiction
      · intro hmissing
        rw [hmissing.1, hlookup] at hmissing
        exact absurd hmissing.2 (by simp)
    | error error =>
      obtain ⟨rfl, -⟩ := (ResultTable.lookup_eq_error_iff_find? table _ error).1 hlookup
      constructor
      · intro hfails
        have htotal : (e.handOf (firstRolls e source)).total = total :=
          TableError.noMatch.inj (Failure.table.inj (Except.error.inj hfails))
        rw [← htotal]
        exact ⟨rfl, hlookup⟩
      · intro hmissing
        rw [hmissing.1]
        rfl

end Session

namespace ResultTable

open Expression Session

variable {α : Type}

theorem exists_draws {faces : Faces} {rolls : List Nat} (h : faces.CanShow rolls) :
    ∃ draws : List UInt32, draws.map UInt32.toNat = rolls := by
  refine ⟨rolls.map UInt32.ofNat, ?_⟩
  rw [List.map_map]
  refine (List.map_congr_left ?_).trans (List.map_id rolls)
  intro roll hroll
  have hle : roll ≤ Faces.greatest := Nat.le_trans (h roll hroll).2 faces.le_greatest
  exact UInt32.toNat_ofNat_of_lt (Nat.lt_of_le_of_lt hle (by decide))

/-- A total of the expression that the table misses comes up on some recording. -/
theorem exists_rollOn_noMatch {e : Expression} (hparse : parse e.text = .ok e) {table : ResultTable α}
    {total : Int} (hlow : e.leastTotal ≤ total) (hhigh : total ≤ e.greatestTotal)
    (hlookup : table.lookup total = .error (.noMatch total)) :
    ∃ (draws : List UInt32) (replay : Replay), Replay.ofList? (draws.map UInt32.toNat) = some replay ∧
      ((start none replay).rollOn e.text table).1 = .error (.table (.noMatch total)) := by
  obtain ⟨rolls, hlength, hshow, htotal⟩ := e.exists_rolls_of_total hlow hhigh
  have hcan : e.CanRoll rolls := ⟨hlength, hshow⟩
  obtain ⟨replay, hreplay, hrolls⟩ := exists_recording hcan
  obtain ⟨draws, hdraws⟩ := exists_draws hshow
  rw [← hdraws] at hreplay
  refine ⟨draws, replay, hreplay, ?_⟩
  rw [rollOn_start_none_eq_noMatch_iff hparse, hrolls]
  exact ⟨htotal.symm, hlookup⟩

/-- A table leaves nothing uncovered between the least and the greatest total of an expression
exactly when no recording of rolls makes the expression fail on it for want of an entry. -/
theorem uncovered_eq_nil_iff_rollOn {text : List Char} {e : Expression}
    (hparse : parse text = .ok e) (hcount : e.count.val ≤ 2147483647) (table : ResultTable α) :
    table.uncovered (e.keptCount + e.bonus) (e.keptCount * e.movedDie.faces.val + e.bonus) = [] ↔
      ∀ (draws : List UInt32) (replay : Replay),
        Replay.ofList? (draws.map UInt32.toNat) = some replay →
          ∀ total, ((start none replay).rollOn e.text table).1 ≠ .error (.table (.noMatch total)) := by
  have hreads : parse e.text = .ok e := parse_text (not_isSingle_of_parse_eq_ok hparse)
  obtain ⟨hleast, hgreatest⟩ := e.totals_within_64_bits hcount
  have hle := e.leastTotal_le_greatestTotal
  let first : Bound := ⟨e.leastTotal, hleast, Int.le_trans hle hgreatest⟩
  let last : Bound := ⟨e.greatestTotal, Int.le_trans hleast hle, hgreatest⟩
  refine (table.uncovered_eq_nil_iff first last).trans ?_
  constructor
  · intro hcovered draws replay _ total hfails
    obtain ⟨rfl, hlookup⟩ := (rollOn_start_none_eq_noMatch_iff hreads replay table total).1 hfails
    obtain ⟨hlow, hhigh⟩ :=
      e.total_within (length_firstRolls e replay) (canShow_firstRolls e replay)
    exact hcovered _ ⟨hlow, hhigh, hlookup⟩
  · intro hnever total hmisses
    obtain ⟨draws, replay, hreplay, hfails⟩ :=
      exists_rollOn_noMatch hreads hmisses.start_le hmisses.le_stop hmisses.lookup
    exact hnever draws replay hreplay total hfails

/-- The results of three six-sided dice out of four, with a bonus of two, except for fourteen. -/
def allButFourteen : ResultTable Unit where
  entries := [⟨.spanning ⟨5, by decide, by decide⟩ ⟨13, by decide, by decide⟩, ()⟩,
    ⟨.ofRange (.atLeast ⟨15, by decide, by decide⟩), ()⟩]
  sorted := by decide

theorem rollOn_allButFourteen_can_fail : ∃ e : Expression,
    parse "4d6dl1+2".toList = .ok e ∧ e.count.val ≤ 2147483647 ∧
      allButFourteen.uncovered (e.keptCount + e.bonus)
        (e.keptCount * e.movedDie.faces.val + e.bonus) = [⟨14, 14⟩] ∧
      ¬ ∀ (draws : List UInt32) (replay : Replay),
        Replay.ofList? (draws.map UInt32.toNat) = some replay → ∀ total,
          ((start none replay).rollOn e.text allButFourteen).1 ≠ .error (.table (.noMatch total)) := by
  obtain ⟨e, h, hcount, hgap⟩ : ∃ e : Expression, parse "4d6dl1+2".toList = .ok e ∧
      e.count.val ≤ 2147483647 ∧ allButFourteen.uncovered (e.keptCount + e.bonus)
        (e.keptCount * e.movedDie.faces.val + e.bonus) = [⟨14, 14⟩] :=
    ⟨_, rfl, by decide, by decide⟩
  refine ⟨e, h, hcount, hgap, ?_⟩
  intro hnever
  rw [(uncovered_eq_nil_iff_rollOn h hcount allButFourteen).2 hnever] at hgap
  contradiction

end ResultTable

end Tabletop
