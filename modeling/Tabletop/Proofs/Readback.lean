import Tabletop.Proofs.Evaluation
import Tabletop.Proofs.Lines
import Tabletop.Proofs.Markup

/-!
# Rolls read back from their text

The text of rolls loses nothing of them. Each roll has a line of its own. What stands before the
first space of the line is the expression, what stands between the parentheses is a line of numbers
set apart by commas, and all else that a roll has follows from the expression and these numbers:
the die that was thrown, which dice count, and the total.
-/
namespace Tabletop

/-- The expression was read from a text, and the hand is the one that the expression gives for the
values that its dice show. -/
structure Roll.IsMade (roll : Roll) : Prop where
  read : ∃ text, Expression.parse text = .ok roll.expression
  settled : roll.hand = roll.expression.handOf roll.hand.rolled

theorem Session.isMade_of_roll_eq_ok {σ : Type} [DiceSource σ] {session after : Session σ}
    {text : List Char} {roll : Roll} (h : session.roll text = (.ok roll, after)) : roll.IsMade := by
  obtain ⟨hparse, values, -, hhand⟩ := throwDice_of_roll_eq_ok h
  have hrolled : roll.hand.rolled = values := by
    rw [hhand, Expression.rolled_handOf]
  exact ⟨⟨text, hparse⟩, by rw [hrolled, hhand]⟩

theorem Roll.IsMade.parse_text {roll : Roll} (h : roll.IsMade) :
    Expression.parse roll.expression.text = .ok roll.expression := by
  obtain ⟨text, hparse⟩ := h.read
  exact Expression.parse_text (Expression.not_isSingle_of_parse_eq_ok hparse)

/-! ## Numbers in a line -/

theorem not_mem_intercalate {c : Char} {separator : List Char} {parts : List (List Char)}
    (hseparator : c ∉ separator) (hparts : ∀ part ∈ parts, c ∉ part) :
    c ∉ List.intercalate separator parts := by
  induction parts with
  | nil => exact List.not_mem_nil
  | cons part parts ih =>
    obtain ⟨hpart, hrest⟩ := List.forall_mem_cons.1 hparts
    cases parts with
    | nil =>
      rw [List.intercalate_singleton]
      exact hpart
    | cons next parts =>
      rw [List.intercalate_cons_cons]
      exact List.not_mem_append (List.not_mem_append hpart hseparator) (ih hrest)

/-- Numbers with commas and spaces between them fall into these numbers. -/
theorem Line.pieces_numbers (values : List Nat) :
    pieces (List.intercalate ", ".toList (values.map Decimal.ofNat)) = values.map Decimal.ofNat := by
  have hnumber : ∀ value, pieces (Decimal.ofNat value) = [Decimal.ofNat value] := fun value =>
    pieces_of_meaningful (Decimal.ofNat_ne_nil value) (Decimal.meaningful_ofNat value)
  induction values with
  | nil => rfl
  | cons value values ih =>
    cases values with
    | nil =>
      rw [List.map_singleton, List.intercalate_singleton]
      exact hnumber value
    | cons next values =>
      have hcut : List.intercalate ", ".toList ((value :: next :: values).map Decimal.ofNat) =
          Decimal.ofNat value ++
            ',' :: ' ' :: List.intercalate ", ".toList ((next :: values).map Decimal.ofNat) := by
        rw [List.map_cons, List.map_cons, List.intercalate_cons_cons, List.append_assoc]
        rfl
      rw [hcut, pieces_append (by decide), hnumber, pieces_cons (by decide), ih]
      rfl

theorem Decimal.ofNat_injective : Function.Injective ofNat :=
  Function.LeftInverse.injective value_ofNat

namespace Style

theorem simple_diceText (hand : Hand) : simple.diceText hand =
    List.intercalate ", ".toList (hand.rolled.map Decimal.ofNat) := by
  rw [diceText, Hand.rolled, List.map_map]
  rfl

theorem rolled_eq_of_diceText_eq {first second : Hand}
    (h : simple.diceText first = simple.diceText second) : first.rolled = second.rolled := by
  have hpieces := congrArg Line.pieces h
  rw [simple_diceText, simple_diceText, Line.pieces_numbers, Line.pieces_numbers] at hpieces
  exact Decimal.ofNat_injective.list_map hpieces

theorem not_mem_diceText (hand : Hand) {c : Char} (hunknown : TokenKind.ofChar c = .unknown)
    (hseparator : c ∉ ", ".toList) : c ∉ simple.diceText hand := by
  rw [simple_diceText]
  apply not_mem_intercalate hseparator
  intro part hpart
  obtain ⟨value, -, rfl⟩ := List.mem_map.1 hpart
  exact (Decimal.meaningful_ofNat value).not_mem hunknown

/-! ## One line -/

theorem takeWhile_append_cons {c : Char} {left : List Char} (h : c ∉ left) (rest : List Char) :
    (left ++ c :: rest).takeWhile (· != c) = left := by
  have hleft : ∀ d ∈ left, (d != c) = true := by
    intro d hd
    exact bne_iff_ne.2 fun heq => h (heq ▸ hd)
  rw [List.takeWhile_append_of_pos hleft, List.takeWhile_cons_of_neg (by simp), List.append_nil]

/-- Where both texts are cut at the same character, and for the first time, they were equal before it. -/
theorem eq_of_append_cons_eq {c : Char} {left left' rest rest' : List Char} (hleft : c ∉ left)
    (hleft' : c ∉ left') (h : left ++ c :: rest = left' ++ c :: rest') : left = left' := by
  rw [← takeWhile_append_cons hleft rest, h, takeWhile_append_cons hleft' rest']

/-- The expression stands before the first space. -/
theorem exists_rollText_eq (style : Style) (roll : Roll) :
    ∃ rest, style.rollText roll = roll.expression.text ++ ' ' :: rest := by
  unfold rollText headText
  split
  · exact ⟨_, by simp only [List.append_assoc]; rfl⟩
  · exact ⟨_, by simp only [List.append_assoc]; rfl⟩

theorem space_not_mem_text (e : Expression) : ' ' ∉ e.text :=
  e.meaningful_text.not_mem (by decide)

theorem newline_not_mem_headText (roll : Roll) : '\n' ∉ headText roll := by
  have hexpression : '\n' ∉ roll.expression.text := roll.expression.meaningful_text.not_mem (by decide)
  have hdie : '\n' ∉ roll.hand.die.text := roll.hand.die.meaningful_text.not_mem (by decide)
  unfold headText
  split
  · exact hexpression
  · exact List.not_mem_append (List.not_mem_append hexpression (by decide)) hdie

theorem newline_not_mem_simple_rollText (roll : Roll) : '\n' ∉ simple.rollText roll := by
  have hdice : '\n' ∉ simple.diceText roll.hand := not_mem_diceText roll.hand (by decide) (by decide)
  have htotal : '\n' ∉ simple.totalText roll.total :=
    (Decimal.meaningful_ofInt roll.total).not_mem (by decide)
  have hfront := List.not_mem_append (newline_not_mem_headText roll) (t := " (".toList) (by decide)
  exact List.not_mem_append (List.not_mem_append (List.not_mem_append hfront hdice) (by decide)) htotal

/-- Marks do not break the line. -/
theorem newline_not_mem_rollText (style : Style) (roll : Roll) : '\n' ∉ style.rollText roll := by
  intro hmem
  have hunmarked : '\n' ∈ unmarked (style.rollText roll) := mem_unmarked_iff.2 ⟨hmem, by decide⟩
  rw [unmarked_rollText] at hunmarked
  exact newline_not_mem_simple_rollText roll hunmarked

/-- The plain line tells the expression and the values of the dice, and they tell the rest. -/
theorem eq_of_simple_rollText_eq {first second : Roll} (hfirst : first.IsMade)
    (hsecond : second.IsMade) (h : simple.rollText first = simple.rollText second) :
    first = second := by
  have hexpression : first.expression = second.expression := by
    obtain ⟨rest, hrest⟩ := simple.exists_rollText_eq first
    obtain ⟨rest', hrest'⟩ := simple.exists_rollText_eq second
    rw [hrest, hrest'] at h
    exact Expression.text_injective (eq_of_append_cons_eq (space_not_mem_text first.expression)
      (space_not_mem_text second.expression) h)
  have hdie : first.hand.die = second.hand.die := by
    rw [hfirst.settled, hsecond.settled, hexpression]
    rfl
  have hhead : headText first = headText second := by
    rw [headText, headText, hexpression, hdie]
  have hrolled : first.hand.rolled = second.hand.rolled := by
    simp only [rollText, hhead, List.append_assoc, List.append_cancel_left_eq] at h
    have hclosing : ∀ hand : Hand, ')' ∉ simple.diceText hand :=
      fun hand => not_mem_diceText hand (by decide) (by decide)
    exact rolled_eq_of_diceText_eq
      (eq_of_append_cons_eq (hclosing first.hand) (hclosing second.hand) h)
  have hhand : first.hand = second.hand := by
    rw [hfirst.settled, hsecond.settled, hexpression, hrolled]
  cases first; cases second
  exact congrArg₂ Roll.mk hexpression hhand

theorem eq_of_rollText_eq (style : Style) {first second : Roll} (hfirst : first.IsMade)
    (hsecond : second.IsMade) (h : style.rollText first = style.rollText second) : first = second := by
  have hunmarked := congrArg unmarked h
  rw [unmarked_rollText, unmarked_rollText] at hunmarked
  exact eq_of_simple_rollText_eq hfirst hsecond hunmarked

/-! ## All lines -/

/-- The lines of a text; the empty text has none. -/
def linesOf (text : List Char) : List (List Char) :=
  if text.isEmpty then [] else text.splitOn '\n'

theorem linesOf_rollsText (style : Style) (rolls : List Roll) :
    linesOf (style.rollsText rolls) = rolls.map style.rollText := by
  have hlines : rolls ≠ [] → (style.rollsText rolls).splitOn '\n' = rolls.map style.rollText := by
    intro hne
    apply List.splitOn_intercalate
    · intro line hline
      obtain ⟨roll, -, rfl⟩ := List.mem_map.1 hline
      exact style.newline_not_mem_rollText roll
    · simpa using hne
  cases rolls with
  | nil => rfl
  | cons roll rolls =>
    have hne : (style.rollsText (roll :: rolls)).isEmpty = false := by
      by_contra hempty
      have htext := List.isEmpty_iff.1 (Bool.of_not_eq_false hempty)
      have hline := hlines (List.cons_ne_nil roll rolls)
      obtain ⟨rest, hrest⟩ := style.exists_rollText_eq roll
      rw [htext, List.map_cons, hrest] at hline
      simp at hline
    rw [linesOf, hne]
    exact hlines (List.cons_ne_nil roll rolls)

theorem eq_of_map_rollText_eq (style : Style) {first second : List Roll}
    (hfirst : ∀ roll ∈ first, roll.IsMade) (hsecond : ∀ roll ∈ second, roll.IsMade)
    (h : first.map style.rollText = second.map style.rollText) : first = second := by
  induction first generalizing second with
  | nil => exact (List.map_eq_nil_iff.1 h.symm).symm
  | cons roll first ih =>
    cases second with
    | nil => contradiction
    | cons roll' second =>
      obtain ⟨hroll, hrest⟩ := List.forall_mem_cons.1 hfirst
      obtain ⟨hroll', hrest'⟩ := List.forall_mem_cons.1 hsecond
      obtain ⟨hline, hlines⟩ := List.cons.inj h
      rw [style.eq_of_rollText_eq hroll hroll' hline, ih hrest hrest' hlines]

/-- In either style two lists of rolls that were made have one text only if they are the same list.
Every roll has a line, and what the line begins with is read as its expression. -/
theorem rollsText_loses_nothing :
    (∀ {σ : Type} [DiceSource σ] (session after : Session σ) (text : List Char) (roll : Roll),
      session.roll text = (.ok roll, after) → roll.IsMade) ∧
    ∀ style : Style,
      (∀ first second : List Roll, (∀ roll ∈ first, roll.IsMade) → (∀ roll ∈ second, roll.IsMade) →
        style.rollsText first = style.rollsText second → first = second) ∧
      (∀ rolls : List Roll, linesOf (style.rollsText rolls) = rolls.map style.rollText) ∧
      ∀ roll : Roll, roll.IsMade → '\n' ∉ style.rollText roll ∧ ' ' ∈ style.rollText roll ∧
        Expression.parse ((style.rollText roll).takeWhile (· != ' ')) = .ok roll.expression := by
  refine ⟨fun session after text roll h => Session.isMade_of_roll_eq_ok h, fun style => ⟨?_, ?_, ?_⟩⟩
  · intro first second hfirst hsecond h
    have hlines := congrArg linesOf h
    rw [linesOf_rollsText, linesOf_rollsText] at hlines
    exact style.eq_of_map_rollText_eq hfirst hsecond hlines
  · exact style.linesOf_rollsText
  · intro roll h
    obtain ⟨rest, hrest⟩ := style.exists_rollText_eq roll
    refine ⟨style.newline_not_mem_rollText roll, ?_, ?_⟩
    · rw [hrest]
      simp
    · rw [hrest, takeWhile_append_cons (space_not_mem_text roll.expression)]
      exact h.parse_text

/-- `4d6dl1` on two, five, six and one. -/
def fourDice : Roll :=
  ⟨Session.fourSixes, Session.fourSixes.handOf [2, 5, 6, 1]⟩

/-- `2d20+d1kl1-5` on the two extremes of the die that is thrown. -/
def twoDice : Roll :=
  ⟨Session.lowerOfTwo, Session.lowerOfTwo.handOf [1, 24]⟩

theorem hand_fourDice : fourDice.hand =
    ⟨fourDice.expression.die, [⟨2, true⟩, ⟨5, true⟩, ⟨6, true⟩, ⟨1, false⟩], none⟩ := by
  have hflags : (Selection.dropLowest Count.one).flags [2, 5, 6, 1] = [true, true, true, false] := by
    rw [Selection.flags_dropLowest]
    decide
  show Hand.ofRolls [2, 5, 6, 1] _ (.dropLowest Count.one) _ = _
  rw [Hand.ofRolls, hflags]
  rfl

theorem markdown_rollsText_fourDice : markdown.rollsText [fourDice, twoDice] =
    ("4d6dl1 (2, 5, **6**, ~~**1**~~) = \x6013\x60\n" ++
      "2d20+d1kl1-5 as d24 (**1**, ~~**24**~~) = \x60-4\x60").toList := by
  have hfour : fourDice = ⟨Session.fourSixes, fourDice.hand⟩ := rfl
  have htwo : twoDice = ⟨Session.lowerOfTwo, Session.oneAndTwentyFour⟩ :=
    congrArg (Roll.mk _) Session.handOf_lowerOfTwo
  rw [hfour, hand_fourDice, htwo]
  decide

/-- Two recordings that differ in every value give rolls of one text, so they give the same rolls. -/
theorem rollsText_loses_nothing_of_fourDice :
    ∃ first second : List Roll,
      ((Session.start none (Replay.mk #[2, 5, 6, 1, 0, 24] (by decide) 0)).rollLine
        "4d6dl1 2d20+d1kl-5".toList).1 = .ok first ∧
      ((Session.start none (Replay.mk #[8, 11, 12, 7, 1, 48] (by decide) 0)).rollLine
        "4d6dl1 2d20+d1kl-5".toList).1 = .ok second ∧
      (∀ roll ∈ first, roll.IsMade) ∧ (∀ roll ∈ second, roll.IsMade) ∧
      markdown.rollsText first =
        ("4d6dl1 (2, 5, **6**, ~~**1**~~) = \x6013\x60\n" ++
          "2d20+d1kl1-5 as d24 (**1**, ~~**24**~~) = \x60-4\x60").toList ∧
      markdown.rollsText second = markdown.rollsText first ∧ first = second ∧
      Expression.parse "2d20+d1kl1-5".toList = .ok Session.lowerOfTwo := by
  obtain ⟨hmakes, hstyles⟩ := rollsText_loses_nothing
  obtain ⟨hinjective, -, hlines⟩ := hstyles markdown
  have hfour : (Session.start none (Replay.mk #[2, 5, 6, 1, 0, 24] (by decide) 0)).roll
        "4d6dl1".toList =
      (.ok fourDice, ⟨⟨none, 4⟩, Replay.mk #[2, 5, 6, 1, 0, 24] (by decide) 4⟩) := rfl
  have htwo : (Session.mk ⟨none, 4⟩ (Replay.mk #[2, 5, 6, 1, 0, 24] (by decide) 4)).roll
        "2d20+d1kl-5".toList =
      (.ok twoDice, ⟨⟨none, 6⟩, Replay.mk #[2, 5, 6, 1, 0, 24] (by decide) 6⟩) := rfl
  have hmade : ∀ roll ∈ [fourDice, twoDice], roll.IsMade :=
    List.forall_mem_cons.2 ⟨hmakes _ _ _ _ hfour, List.forall_mem_singleton.2 (hmakes _ _ _ _ htwo)⟩
  obtain ⟨-, -, hparse⟩ := hlines twoDice (hmakes _ _ _ _ htwo)
  have hhead : (markdown.rollText twoDice).takeWhile (· != ' ') = "2d20+d1kl1-5".toList := rfl
  rw [hhead] at hparse
  exact ⟨[fourDice, twoDice], [fourDice, twoDice], rfl, rfl, hmade, hmade, markdown_rollsText_fourDice,
    rfl, hinjective _ _ hmade hmade rfl, hparse⟩

end Style

end Tabletop
