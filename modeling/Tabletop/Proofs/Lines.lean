import Tabletop.DiceSource.Replay
import Tabletop.Proofs.FirstOffence
import Tabletop.Proofs.Throws

/-!
# Lines put together

A separator cuts a line in two: the pieces of the whole are those of both sides, so the line is
rolled as one side after the other, and the second not at all where the first fails. No separator
stands inside an expression, so a line that is one expression is rolled as that expression.
-/
namespace Tabletop

namespace Line

theorem close_append (piece : List Char) (left right : List (List Char)) :
    close piece (left ++ right) = close piece left ++ right := by
  unfold close
  split <;> rfl

/-- What follows the separator has no part in the pieces before it. -/
theorem cut_append {x : Char} (hx : isSeparator x = true) (left right : List Char) :
    cut (left ++ x :: right) = ((cut left).1, (cut left).2 ++ pieces right) := by
  induction left with
  | nil =>
    rw [List.nil_append, cut]
    exact if_pos hx
  | cons c left ih =>
    rw [List.cons_append, cut, ih, cut]
    cases isSeparator c with
    | true => exact Prod.ext rfl (close_append _ _ _)
    | false => rfl

theorem pieces_append {x : Char} (hx : isSeparator x = true) (left right : List Char) :
    pieces (left ++ x :: right) = pieces left ++ pieces right := by
  rw [pieces, cut_append hx, close_append]
  rfl

theorem pieces_cons {x : Char} (hx : isSeparator x = true) (line : List Char) :
    pieces (x :: line) = pieces line :=
  pieces_append hx [] line

theorem isSeparator_of_isBlank {c : Char} (h : Text.isBlank c = true) : isSeparator c = true := by
  rw [isSeparator, h, Bool.or_true]

theorem pieces_dropWhile (line : List Char) : pieces (line.dropWhile Text.isBlank) = pieces line := by
  induction line with
  | nil => rfl
  | cons c line ih =>
    by_cases hblank : Text.isBlank c = true
    · rw [List.dropWhile_cons_of_pos hblank, ih, pieces_cons (isSeparator_of_isBlank hblank)]
    · rw [List.dropWhile_cons_of_neg hblank]

theorem pieces_trimEnd (line : List Char) : pieces (Text.trimEnd line) = pieces line := by
  induction line using List.reverseRecOn with
  | nil => rfl
  | append_singleton line c ih =>
    by_cases hblank : Text.isBlank c = true
    · have hend : Text.trimEnd (line ++ [c]) = Text.trimEnd line :=
        List.rdropWhile_concat_pos Text.isBlank line c hblank
      rw [hend, ih, pieces_append (isSeparator_of_isBlank hblank) line []]
      exact (List.append_nil _).symm
    · have hend : Text.trimEnd (line ++ [c]) = line ++ [c] :=
        List.rdropWhile_concat_neg Text.isBlank line c hblank
      rw [hend]

/-- The blanks that reading an expression cuts off are in no piece. -/
theorem pieces_trim (line : List Char) : pieces (Text.trim line) = pieces line := by
  rw [Text.trim, pieces_trimEnd, pieces_dropWhile]

theorem cut_of_no_separator {line : List Char} (h : ∀ c ∈ line, isSeparator c = false) :
    cut line = (line, []) := by
  induction line with
  | nil => rfl
  | cons c line ih =>
    obtain ⟨hc, hline⟩ := List.forall_mem_cons.1 h
    rw [cut, ih hline]
    exact if_neg (by simp [hc])

theorem pieces_of_no_separator {line : List Char} (hne : line ≠ [])
    (h : ∀ c ∈ line, isSeparator c = false) : pieces line = [line] := by
  rw [pieces, cut_of_no_separator h, close]
  exact if_neg (by simpa using hne)

end Line

/-! ## No separator in an expression -/

theorem Line.ofChar_of_isSeparator (c : Char) (h : isSeparator c = true) :
    TokenKind.ofChar c = .unknown := by
  rcases Bool.or_eq_true_iff.1 h with hcomma | hblank
  · rw [beq_iff_eq.1 hcomma]
    decide
  · exact Token.ofChar_of_isBlank c hblank

theorem Line.pieces_of_meaningful {text : List Char} (hne : text ≠ []) (h : Token.Meaningful text) :
    pieces text = [text] :=
  pieces_of_no_separator hne (h.eq_false ofChar_of_isSeparator)

namespace Expression

theorem meaningful_of_accepted {text : List Char} (h : Accepted text) :
    Token.Meaningful (Text.trim text) := by
  obtain ⟨last, hrun, -⟩ := (accepted_iff text).1 h
  intro c hc
  rw [← Token.texts_lex (Text.trim text), Token.texts] at hc
  obtain ⟨token, htoken, hc⟩ := List.mem_flatMap.1 hc
  exact (Token.fits_of_mem_lex htoken).meaningful (Stage.kind_ne_unknown_of_run? hrun token htoken) c hc

theorem trim_ne_nil_of_accepted {text : List Char} (h : Accepted text) : Text.trim text ≠ [] := by
  obtain ⟨last, hrun, hcomplete⟩ := (accepted_iff text).1 h
  intro hempty
  rw [tokensOf, hempty] at hrun
  obtain rfl := Option.some.inj hrun
  contradiction

/-- An expression is a line of one piece. -/
theorem pieces_of_accepted {text : List Char} (h : Accepted text) :
    Line.pieces text = [Text.trim text] := by
  rw [← Line.pieces_trim]
  exact Line.pieces_of_meaningful (trim_ne_nil_of_accepted h) (meaningful_of_accepted h)

end Expression

namespace Session

variable {σ : Type} [DiceSource σ]

/-- Rolls one line, and where it succeeds another on the session that is left. -/
def rollInTurn (session : Session σ) (first second : List Char) :
    Except Failure (List Roll) × Session σ :=
  match session.rollLine first with
  | (.error failure, after) => (.error failure, after)
  | (.ok rolls, after) =>
    match after.rollLine second with
    | (.error failure, last) => (.error failure, last)
    | (.ok more, last) => (.ok (rolls ++ more), last)

theorem rollLine_append {x : Char} (hx : Line.isSeparator x = true) (session : Session σ)
    (left right : List Char) : session.rollLine (left ++ x :: right) = session.rollInTurn left right := by
  rw [rollLine, Line.pieces_append hx, rollAll_append]
  unfold rollInTurn rollLine
  cases session.rollAll (Line.pieces left) with
  | mk result after =>
    cases result with
    | error failure => rfl
    | ok rolls =>
      dsimp only
      cases after.rollAll (Line.pieces right) with
      | mk result last => cases result <;> rfl

theorem roll_trim (session : Session σ) (text : List Char) :
    session.roll (Text.trim text) = session.roll text := by
  rw [roll, roll, Expression.parse_trim]

theorem rollLine_of_accepted {text : List Char} (h : Expression.Accepted text) (session : Session σ) :
    session.rollLine text = ((session.roll text).1.map fun roll => [roll], (session.roll text).2) := by
  rw [rollLine, Expression.pieces_of_accepted h, ← roll_trim session text]
  cases hroll : session.roll (Text.trim text) with
  | mk result after =>
    cases result with
    | error failure => exact rollAll_cons_of_error hroll []
    | ok first => exact rollAll_cons_of_ok hroll []

/-- A line that a comma or a blank cuts in two is rolled as its two sides in turn, and a line that is
one expression as that expression. -/
theorem rollLine_compositional (session : Session σ) :
    (∀ (left right : List Char) (x : Char), x = ',' ∨ Text.isBlank x = true →
      session.rollLine (left ++ x :: right) = session.rollInTurn left right) ∧
    ∀ text e, Expression.parse text = .ok e →
      session.rollLine text =
        ((session.roll text).1.map fun roll => [roll], (session.roll text).2) := by
  refine ⟨?_, ?_⟩
  · intro left right x hx
    have hseparator : Line.isSeparator x = true := by
      rcases hx with rfl | hblank
      · rfl
      · exact Line.isSeparator_of_isBlank hblank
    exact rollLine_append hseparator session left right
  · intro text e hparse
    exact rollLine_of_accepted ⟨e, hparse⟩ session

/-- Three dice may be thrown. -/
def threeDice : Session Replay :=
  start (some 3) (Replay.mk #[6, 1, 5] (by decide) 0)

/-- The second side is refused, and the two dice of the first stay rolled and counted. -/
theorem rollLine_compositional_past_limit :
    threeDice.rollLine ("2d6".toList ++ ' ' :: "2d6".toList) =
      threeDice.rollInTurn "2d6".toList "2d6".toList ∧
    threeDice.rollInTurn "2d6".toList "2d6".toList =
      (.error (.overBudget ⟨4, 3⟩), ⟨⟨some 3, 2⟩, Replay.mk #[6, 1, 5] (by decide) 2⟩) ∧
    ∃ e, Expression.parse " 3d6dl1 ".toList = .ok e ∧
      threeDice.rollLine " 3d6dl1 ".toList =
        ((threeDice.roll " 3d6dl1 ".toList).1.map fun roll => [roll],
          (threeDice.roll " 3d6dl1 ".toList).2) := by
  obtain ⟨hsides, hwhole⟩ := threeDice.rollLine_compositional
  obtain ⟨e, hparse⟩ : ∃ e, Expression.parse " 3d6dl1 ".toList = .ok e := ⟨_, rfl⟩
  exact ⟨hsides _ _ ' ' (.inr (by decide)), rfl, e, hparse, hwhole _ e hparse⟩

end Session

end Tabletop
