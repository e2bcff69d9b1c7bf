import Tabletop.Proofs.Canonical
import Tabletop.Style

/-!
# Markup

Both styles write the same characters, and the markdown style puts marks between them: stars around
extreme dice, tildes around dice that do not count, backticks around the total. No expression, die
or number is written with a mark, so the plain text is what stays when the marks are taken away.
-/
namespace Tabletop

open Token

theorem Expression.meaningful_text (e : Expression) : Meaningful e.text := by
  rw [← e.text_form]
  exact e.form.meaningful_text

theorem Die.meaningful_text (die : Die) : Meaningful die.text := by
  rw [← die.text_form]
  exact die.form.meaningful_text

theorem Decimal.meaningful_ofNat (n : Nat) : Meaningful (ofNat n) :=
  meaningful_of_digits fun _ => isDigit_of_mem_ofNat

theorem Decimal.meaningful_ofInt (n : Int) : Meaningful (ofInt n) := by
  unfold ofInt
  split
  · exact meaningful_cons.2 ⟨by decide, meaningful_ofNat n.natAbs⟩
  · exact meaningful_ofNat n.natAbs

namespace Style

/-- A character that only the markdown style writes. -/
def isMark (c : Char) : Bool :=
  c == '*' || c == '~' || c == '\x60'

/-- The text without its marks. -/
def unmarked (text : List Char) : List Char :=
  text.filter fun c => !isMark c

theorem mem_unmarked_iff {c : Char} {text : List Char} :
    c ∈ unmarked text ↔ c ∈ text ∧ isMark c = false := by
  rw [unmarked, List.mem_filter, Bool.not_eq_true']

theorem unmarked_append (left right : List Char) :
    unmarked (left ++ right) = unmarked left ++ unmarked right :=
  List.filter_append left right

theorem unmarked_intercalate (separator : List Char) (parts : List (List Char)) :
    unmarked (List.intercalate separator parts) =
      List.intercalate (unmarked separator) (parts.map unmarked) := by
  induction parts with
  | nil => rfl
  | cons part parts ih =>
    cases parts with
    | nil => rw [List.intercalate_singleton, List.map_singleton, List.intercalate_singleton]
    | cons next parts =>
      rw [List.intercalate_cons_cons, unmarked_append, unmarked_append, ih]
      exact List.intercalate_cons_cons.symm

/-- Marks mean nothing in the notation of dice. -/
theorem ofChar_of_isMark (c : Char) (h : isMark c = true) : TokenKind.ofChar c = .unknown := by
  simp only [isMark, Bool.or_eq_true, beq_iff_eq] at h
  rcases h with (rfl | rfl) | rfl <;> decide

theorem unmarked_of_meaningful {text : List Char} (h : Meaningful text) : unmarked text = text := by
  apply List.filter_eq_self.2
  intro c hc
  rw [h.eq_false ofChar_of_isMark c hc]
  rfl

/-- Marks around a text are all that goes. -/
theorem unmarked_between {mark text : List Char} (hmark : unmarked mark = []) :
    unmarked (mark ++ text ++ mark) = unmarked text := by
  rw [unmarked_append, unmarked_append, hmark, List.nil_append, List.append_nil]

theorem unmarked_throwText (style : Style) (die : Die) (throw : Throw) :
    unmarked (style.throwText die throw) = simple.throwText die throw := by
  have hvalue : unmarked (Decimal.ofNat throw.value) = Decimal.ofNat throw.value :=
    unmarked_of_meaningful (Decimal.meaningful_ofNat throw.value)
  cases style with
  | simple => exact hvalue
  | markdown =>
    have hstars : unmarked "**".toList = [] := by decide
    have htildes : unmarked "~~".toList = [] := by decide
    unfold throwText
    dsimp only
    cases throw.isNotable die <;> cases throw.kept
    case false.true => exact hvalue
    case true.true => exact (unmarked_between hstars).trans hvalue
    case false.false => exact (unmarked_between htildes).trans hvalue
    case true.false =>
      exact (unmarked_between htildes).trans ((unmarked_between hstars).trans hvalue)

theorem unmarked_diceText (style : Style) (hand : Hand) :
    unmarked (style.diceText hand) = simple.diceText hand := by
  have hseparator : unmarked ", ".toList = ", ".toList := by decide
  rw [diceText, unmarked_intercalate, hseparator, List.map_map, diceText]
  exact congrArg _ (List.map_congr_left fun throw _ => style.unmarked_throwText hand.die throw)

theorem unmarked_totalText (style : Style) (total : Int) :
    unmarked (style.totalText total) = simple.totalText total := by
  have htotal : unmarked (Decimal.ofInt total) = Decimal.ofInt total :=
    unmarked_of_meaningful (Decimal.meaningful_ofInt total)
  cases style with
  | simple => exact htotal
  | markdown =>
    have hbacktick : unmarked ['\x60'] = [] := by decide
    exact (unmarked_between hbacktick).trans htotal

theorem unmarked_headText (roll : Roll) : unmarked (headText roll) = headText roll := by
  have hexpression : unmarked roll.expression.text = roll.expression.text :=
    unmarked_of_meaningful roll.expression.meaningful_text
  have hdie : unmarked roll.hand.die.text = roll.hand.die.text :=
    unmarked_of_meaningful roll.hand.die.meaningful_text
  have has : unmarked " as d".toList = " as d".toList := by decide
  unfold headText
  split
  · exact hexpression
  · rw [unmarked_append, unmarked_append, hexpression, hdie, has]

/-- Part by part, a line without its marks is the line of the plain style. -/
theorem unmarked_rollText (style : Style) (roll : Roll) :
    unmarked (style.rollText roll) = simple.rollText roll := by
  have hopen : unmarked " (".toList = " (".toList := by decide
  have hclose : unmarked ") = ".toList = ") = ".toList := by decide
  simp only [rollText, unmarked_append, unmarked_headText, unmarked_diceText, unmarked_totalText,
    hopen, hclose]

/-- The markdown text of any rolls is their plain text with nothing but marks added. -/
theorem unmarked_rollsText (rolls : List Roll) :
    unmarked (markdown.rollsText rolls) = simple.rollsText rolls := by
  have hnewline : unmarked ['\n'] = ['\n'] := by decide
  rw [rollsText, unmarked_intercalate, hnewline, List.map_map, rollsText]
  exact congrArg _ (List.map_congr_left fun roll _ => markdown.unmarked_rollText roll)

end Style

end Tabletop
