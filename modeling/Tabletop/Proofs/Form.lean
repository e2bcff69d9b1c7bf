import Tabletop.Expression.Parser
import Tabletop.Proofs.Lexing

/-!
# Written forms of expressions

The grammar of dice expressions, character by character and apart from the parser:

    [digits] d (digits | %) {(+|-) d [digits]} [k [h [digits] | l [digits] | digits] | dl [digits]]
      [(+|-) digits]

A form is one way of filling in this grammar. It has a text, and it denotes an expression when
all its numbers are in range. A form also has tokens; the main statement here is that they are
the tokens of its text. Nothing is said about which texts the parser accepts.
-/
namespace Tabletop

/-- A run of digits. Leading zeros are allowed. -/
structure Numeral where
  digits : List Char
  nonempty : digits ≠ []
  isDigit : ∀ c ∈ digits, c.isDigit = true

namespace Numeral

def value (n : Numeral) : Nat := Decimal.value n.digits

def token (n : Numeral) : Token := ⟨.integer, n.digits⟩

/-- The numeral without leading zeros. -/
def ofNat (n : Nat) : Numeral where
  digits := Decimal.ofNat n
  nonempty := Decimal.ofNat_ne_nil n
  isDigit := fun _ => Decimal.isDigit_of_mem_ofNat

@[simp] theorem value_ofNat (n : Nat) : (ofNat n).value = n := Decimal.value_ofNat n

/-- The number that is meant where a numeral may be left out. -/
def valueOrOne : Option Numeral → Nat
  | none => 1
  | some n => n.value

def optionalText : Option Numeral → List Char
  | none => []
  | some n => n.digits

def optionalTokens : Option Numeral → List Token
  | none => []
  | some n => [n.token]

end Numeral

inductive DieForm where
  | percent
  | faces (n : Numeral)

structure StepForm where
  sign : Sign
  length? : Option Numeral

inductive SelectionForm where
  | all
  | keep (count? : Option Numeral)
  | keepHighest (count? : Option Numeral)
  | keepLowest (count? : Option Numeral)
  | dropLowest (count? : Option Numeral)

structure ModifierForm where
  sign : Sign
  amount : Numeral

structure ExpressionForm where
  count? : Option Numeral
  die : DieForm
  steps : List StepForm
  selection : SelectionForm
  modifier? : Option ModifierForm

/-! ## Texts -/

def DieForm.text : DieForm → List Char
  | percent => ['%']
  | faces n => n.digits

def StepForm.text (step : StepForm) : List Char :=
  step.sign.char :: 'd' :: Numeral.optionalText step.length?

def SelectionForm.text : SelectionForm → List Char
  | all => []
  | keep count? => 'k' :: Numeral.optionalText count?
  | keepHighest count? => 'k' :: 'h' :: Numeral.optionalText count?
  | keepLowest count? => 'k' :: 'l' :: Numeral.optionalText count?
  | dropLowest count? => 'd' :: 'l' :: Numeral.optionalText count?

def ModifierForm.text (modifier : ModifierForm) : List Char :=
  modifier.sign.char :: modifier.amount.digits

def ModifierForm.optionalText : Option ModifierForm → List Char
  | none => []
  | some modifier => modifier.text

def ExpressionForm.text (form : ExpressionForm) : List Char :=
  Numeral.optionalText form.count? ++ 'd' :: form.die.text ++ form.steps.flatMap StepForm.text ++
    form.selection.text ++ ModifierForm.optionalText form.modifier?

/-! ### Only characters of the notation -/

section Meaningful

open Token

theorem Numeral.meaningful_optionalText (n? : Option Numeral) : Meaningful (optionalText n?) := by
  cases n? with
  | none => exact meaningful_nil
  | some n => exact meaningful_of_digits n.isDigit

theorem Sign.ofChar_char_ne_unknown (sign : Sign) : TokenKind.ofChar sign.char ≠ .unknown := by
  cases sign <;> decide

theorem DieForm.meaningful_text (form : DieForm) : Meaningful form.text := by
  cases form with
  | percent => exact meaningful_cons.2 ⟨by decide, meaningful_nil⟩
  | faces n => exact meaningful_of_digits n.isDigit

theorem StepForm.meaningful_text (step : StepForm) : Meaningful step.text :=
  meaningful_cons.2 ⟨step.sign.ofChar_char_ne_unknown,
    meaningful_cons.2 ⟨by decide, Numeral.meaningful_optionalText step.length?⟩⟩

theorem SelectionForm.meaningful_text (form : SelectionForm) : Meaningful form.text := by
  cases form with
  | all => exact meaningful_nil
  | keep count? => exact meaningful_cons.2 ⟨by decide, Numeral.meaningful_optionalText count?⟩
  | keepHighest count? | keepLowest count? | dropLowest count? =>
    exact meaningful_cons.2
      ⟨by decide, meaningful_cons.2 ⟨by decide, Numeral.meaningful_optionalText count?⟩⟩

theorem ModifierForm.meaningful_optionalText (form? : Option ModifierForm) :
    Meaningful (optionalText form?) := by
  cases form? with
  | none => exact meaningful_nil
  | some form =>
    exact meaningful_cons.2 ⟨form.sign.ofChar_char_ne_unknown, meaningful_of_digits form.amount.isDigit⟩

theorem ExpressionForm.meaningful_text (form : ExpressionForm) : Meaningful form.text := by
  have hsteps : Meaningful (form.steps.flatMap StepForm.text) := by
    intro c hc
    obtain ⟨step, -, hc⟩ := List.mem_flatMap.1 hc
    exact step.meaningful_text c hc
  simp only [text, meaningful_append, meaningful_cons]
  exact ⟨⟨⟨⟨Numeral.meaningful_optionalText form.count?, by decide, form.die.meaningful_text⟩,
    hsteps⟩, form.selection.meaningful_text⟩, ModifierForm.meaningful_optionalText form.modifier?⟩

/-- Nothing is cut off the text of a form. -/
theorem ExpressionForm.trim_text (form : ExpressionForm) : Text.trim form.text = form.text :=
  Text.trim_eq_self (form.meaningful_text.eq_false ofChar_of_isBlank)

end Meaningful

/-! ## Meanings -/

/-- How far the step goes along the chain, down being negative. -/
def StepForm.move (step : StepForm) : Int :=
  step.sign.apply (Numeral.valueOrOne step.length?)

/-- The number of dice that a selection names, where it names one. -/
def SelectionForm.number? : SelectionForm → Option Nat
  | all => none
  | keep count? | keepHighest count? | keepLowest count? | dropLowest count? =>
    some (Numeral.valueOrOne count?)

/-- Takes one step after the other, each time holding the net at thirteen either way. -/
def Step.takeAll (net : Step) (moves : List Int) : Step :=
  moves.foldl (fun net move => Step.clamp (net.val + move)) net

/-- The form is a way of writing the die; dice have at least two faces. -/
inductive DieForm.Denotes : DieForm → Die → Prop
  | percent : Denotes .percent .percentile
  | faces {n : Numeral} {faces : Faces} (two_le : 2 ≤ n.value) (value : n.value = faces.val) :
      Denotes (.faces n) (.poly faces)

def DieForm.InRange : DieForm → Prop
  | percent => True
  | faces n => 2 ≤ n.value ∧ n.value ≤ Faces.greatest

/-- The form is a way of writing the selection; a bare `k` means the highest. -/
inductive SelectionForm.Denotes : SelectionForm → Selection → Prop
  | all : Denotes .all .keepAll
  | keep {count? : Option Numeral} {count : Count} (value : Numeral.valueOrOne count? = count.val) :
      Denotes (.keep count?) (.keepHighest count)
  | keepHighest {count? : Option Numeral} {count : Count}
      (value : Numeral.valueOrOne count? = count.val) :
      Denotes (.keepHighest count?) (.keepHighest count)
  | keepLowest {count? : Option Numeral} {count : Count}
      (value : Numeral.valueOrOne count? = count.val) :
      Denotes (.keepLowest count?) (.keepLowest count)
  | dropLowest {count? : Option Numeral} {count : Count}
      (value : Numeral.valueOrOne count? = count.val) :
      Denotes (.dropLowest count?) (.dropLowest count)

def SelectionForm.InRange (form : SelectionForm) : Prop :=
  ∀ n ∈ form.number?, 1 ≤ n ∧ n ≤ Count.greatest

inductive ModifierForm.Denotes : Option ModifierForm → Option Modifier → Prop
  | none : Denotes none none
  | some {form : ModifierForm} {modifier : Modifier} (sign : form.sign = modifier.sign)
      (value : form.amount.value = modifier.value) : Denotes (some form) (some modifier)

def ModifierForm.InRange (form? : Option ModifierForm) : Prop :=
  ∀ form ∈ form?, form.amount.value ≤ Modifier.greatest

namespace ExpressionForm

/-- The signed lengths of the steps, in order. -/
def moves (form : ExpressionForm) : List Int :=
  form.steps.map StepForm.move

/-- The form is a way of writing the expression. -/
structure Denotes (form : ExpressionForm) (e : Expression) : Prop where
  count : Numeral.valueOrOne form.count? = e.count.val
  die : form.die.Denotes e.die
  lengths : ∀ step ∈ form.steps, Numeral.valueOrOne step.length? ≤ Expression.greatestStep
  step : e.step = Step.zero.takeAll form.moves
  selection : form.selection.Denotes e.selection
  modifier : ModifierForm.Denotes form.modifier? e.modifier

/-- The numbers of the form are none too small and none too large. -/
structure InRange (form : ExpressionForm) : Prop where
  count : 1 ≤ Numeral.valueOrOne form.count? ∧ Numeral.valueOrOne form.count? ≤ Count.greatest
  die : form.die.InRange
  lengths : ∀ step ∈ form.steps, Numeral.valueOrOne step.length? ≤ Expression.greatestStep
  selection : form.selection.InRange
  modifier : ModifierForm.InRange form.modifier?

end ExpressionForm

theorem DieForm.exists_denotes_iff (form : DieForm) : (∃ die, form.Denotes die) ↔ form.InRange := by
  constructor
  · intro hdenotes
    obtain ⟨die, h⟩ := hdenotes
    cases h with
    | percent => trivial
    | @faces n faces two_le value => exact ⟨two_le, value ▸ faces.le_greatest⟩
  · intro h
    cases form with
    | percent => exact ⟨.percentile, .percent⟩
    | faces n => exact ⟨.poly ⟨n.value, by have := h.1; omega, h.2⟩, .faces h.1 rfl⟩

theorem SelectionForm.exists_denotes_iff (form : SelectionForm) :
    (∃ selection, form.Denotes selection) ↔ form.InRange := by
  constructor
  · intro hdenotes n hn
    obtain ⟨selection, h⟩ := hdenotes
    obtain ⟨count, hc⟩ : ∃ count : Count, n = count.val := by
      cases h with
      | all => simp [number?] at hn
      | @keep _ count value | @keepHighest _ count value | @keepLowest _ count value
      | @dropLowest _ count value =>
        refine ⟨count, ?_⟩
        rw [← value]
        exact (Option.some.inj hn).symm
    rw [hc]
    exact ⟨count.one_le, count.le_greatest⟩
  · intro h
    cases form with
    | all => exact ⟨.keepAll, .all⟩
    | keep count? =>
      obtain ⟨h₁, h₂⟩ := h _ rfl
      exact ⟨.keepHighest ⟨_, h₁, h₂⟩, .keep rfl⟩
    | keepHighest count? =>
      obtain ⟨h₁, h₂⟩ := h _ rfl
      exact ⟨.keepHighest ⟨_, h₁, h₂⟩, .keepHighest rfl⟩
    | keepLowest count? =>
      obtain ⟨h₁, h₂⟩ := h _ rfl
      exact ⟨.keepLowest ⟨_, h₁, h₂⟩, .keepLowest rfl⟩
    | dropLowest count? =>
      obtain ⟨h₁, h₂⟩ := h _ rfl
      exact ⟨.dropLowest ⟨_, h₁, h₂⟩, .dropLowest rfl⟩

theorem ModifierForm.exists_denotes_iff (form? : Option ModifierForm) :
    (∃ modifier?, ModifierForm.Denotes form? modifier?) ↔ ModifierForm.InRange form? := by
  constructor
  · intro hdenotes form hf
    obtain ⟨modifier?, h⟩ := hdenotes
    cases h with
    | none => simp at hf
    | @some form' modifier sign value =>
      obtain rfl := Option.some.inj hf
      exact value ▸ modifier.le_greatest
  · intro h
    cases form? with
    | none => exact ⟨none, .none⟩
    | some form => exact ⟨some ⟨form.sign, form.amount.value, h form rfl⟩, .some rfl rfl⟩

/-- A form denotes some expression exactly when its numbers are in range. -/
theorem ExpressionForm.exists_denotes_iff (form : ExpressionForm) :
    (∃ e, form.Denotes e) ↔ form.InRange := by
  constructor
  · intro hdenotes
    obtain ⟨e, h⟩ := hdenotes
    refine ⟨?_, form.die.exists_denotes_iff.1 ⟨_, h.die⟩, h.lengths,
      form.selection.exists_denotes_iff.1 ⟨_, h.selection⟩,
      (ModifierForm.exists_denotes_iff _).1 ⟨_, h.modifier⟩⟩
    rw [h.count]
    exact ⟨e.count.one_le, e.count.le_greatest⟩
  · intro h
    obtain ⟨die, hdie⟩ := form.die.exists_denotes_iff.2 h.die
    obtain ⟨selection, hselection⟩ := form.selection.exists_denotes_iff.2 h.selection
    obtain ⟨modifier, hmodifier⟩ := (ModifierForm.exists_denotes_iff _).2 h.modifier
    let count : Count := ⟨_, h.count.1, h.count.2⟩
    exact ⟨⟨count, die, Step.zero.takeAll form.moves, selection, modifier⟩, rfl, hdie, h.lengths,
      rfl, hselection, hmodifier⟩

/-! ## Tokens -/

def DieForm.tokens : DieForm → List Token
  | percent => [⟨.percent, ['%']⟩]
  | faces n => [n.token]

def StepForm.tokens (step : StepForm) : List Token :=
  ⟨.sign step.sign, [step.sign.char]⟩ :: ⟨.dice, ['d']⟩ :: Numeral.optionalTokens step.length?

def SelectionForm.tokens : SelectionForm → List Token
  | all => []
  | keep count? => ⟨.keep, ['k']⟩ :: Numeral.optionalTokens count?
  | keepHighest count? => ⟨.keep, ['k']⟩ :: ⟨.highest, ['h']⟩ :: Numeral.optionalTokens count?
  | keepLowest count? => ⟨.keep, ['k']⟩ :: ⟨.lowest, ['l']⟩ :: Numeral.optionalTokens count?
  | dropLowest count? => ⟨.dropLowest, ['d', 'l']⟩ :: Numeral.optionalTokens count?

def ModifierForm.tokens (modifier : ModifierForm) : List Token :=
  [⟨.sign modifier.sign, [modifier.sign.char]⟩, modifier.amount.token]

def ModifierForm.optionalTokens : Option ModifierForm → List Token
  | none => []
  | some modifier => modifier.tokens

/-- The tokens after the die. -/
def ExpressionForm.tailTokens (form : ExpressionForm) : List Token :=
  form.steps.flatMap StepForm.tokens ++
    (form.selection.tokens ++ ModifierForm.optionalTokens form.modifier?)

def ExpressionForm.tokens (form : ExpressionForm) : List Token :=
  Numeral.optionalTokens form.count? ++ ⟨.dice, ['d']⟩ :: (form.die.tokens ++ form.tailTokens)

section Tokens

open Token

theorem Numeral.texts_optionalTokens (n? : Option Numeral) : texts (optionalTokens n?) = optionalText n? := by
  cases n? with
  | none => rfl
  | some n => simp [texts, optionalTokens, optionalText, token]

theorem StepForm.texts_tokens (step : StepForm) : texts step.tokens = step.text := by
  simp [tokens, text, texts_cons, Numeral.texts_optionalTokens]

theorem SelectionForm.texts_tokens (form : SelectionForm) : texts form.tokens = form.text := by
  cases form <;> simp [tokens, text, texts_cons, Numeral.texts_optionalTokens]
  rfl

theorem ModifierForm.texts_optionalTokens (form? : Option ModifierForm) :
    texts (optionalTokens form?) = optionalText form? := by
  cases form? with
  | none => rfl
  | some form => simp [optionalTokens, tokens, optionalText, text, texts, Numeral.token]

/-- The tokens of a form cover its text. -/
theorem ExpressionForm.texts_tokens (form : ExpressionForm) : texts form.tokens = form.text := by
  have hsteps : texts (form.steps.flatMap StepForm.tokens) = form.steps.flatMap StepForm.text := by
    induction form.steps with
    | nil => rfl
    | cons step steps ih =>
      rw [List.flatMap_cons, List.flatMap_cons, texts_append, step.texts_tokens, ih]
  have hdie : texts form.die.tokens = form.die.text := by
    cases form.die with
    | percent => rfl
    | faces n => simp [DieForm.tokens, DieForm.text, texts, Numeral.token]
  simp only [tokens, tailTokens, text, texts_append, texts_cons, Numeral.texts_optionalTokens, hdie,
    hsteps, form.selection.texts_tokens, ModifierForm.texts_optionalTokens, List.append_assoc,
    List.cons_append, List.nil_append]

theorem Numeral.isCut_optionalTokens (n? : Option Numeral) : IsCut (optionalTokens n?) := by
  cases n? with
  | none => exact isCut_nil
  | some n => exact isCut_cons.2 ⟨.digits n.nonempty n.isDigit, by simp, isCut_nil⟩

/-- A symbol that digits and a lone `l` do not continue stands before any right cut. -/
theorem isCut_symbol {kind : TokenKind} {text : List Char} (spelled : kind.spelling? = some text)
    (hd : kind ≠ .dice) {tokens : List Token} (h : IsCut tokens) : IsCut (⟨kind, text⟩ :: tokens) := by
  refine isCut_cons.2 ⟨.symbol spelled, fun next _ => ⟨?_, ?_⟩, h⟩
  · rintro ⟨hk, -⟩
    subst hk
    simp [TokenKind.spelling?] at spelled
  · rintro ⟨hk, -⟩
    exact hd hk

/-- A lone `d` stands before any right cut that no lone `l` begins. -/
theorem isCut_dice {tokens : List Token} (hl : ∀ next ∈ tokens.head?, next.kind ≠ .lowest)
    (h : IsCut tokens) : IsCut (⟨.dice, ['d']⟩ :: tokens) := by
  refine isCut_cons.2 ⟨.symbol rfl, fun next hn => ⟨?_, ?_⟩, h⟩
  · rintro ⟨hk, -⟩
    contradiction
  · rintro ⟨-, hk⟩
    exact hl next hn hk

theorem StepForm.isCut_tokens (step : StepForm) : IsCut step.tokens := by
  refine isCut_symbol rfl (by simp) (isCut_dice ?_ (Numeral.isCut_optionalTokens step.length?))
  intro next hn
  cases hs : step.length? with
  | none => simp [hs, Numeral.optionalTokens] at hn
  | some n =>
    obtain rfl : n.token = next := by simpa [hs, Numeral.optionalTokens] using hn
    simp [Numeral.token]

theorem SelectionForm.isCut_tokens (form : SelectionForm) : IsCut form.tokens := by
  cases form with
  | all => exact isCut_nil
  | keep count? => exact isCut_symbol rfl (by simp) (Numeral.isCut_optionalTokens count?)
  | keepHighest count? =>
    exact isCut_symbol rfl (by simp) (isCut_symbol rfl (by simp) (Numeral.isCut_optionalTokens count?))
  | keepLowest count? =>
    exact isCut_symbol rfl (by simp) (isCut_symbol rfl (by simp) (Numeral.isCut_optionalTokens count?))
  | dropLowest count? => exact isCut_symbol rfl (by simp) (Numeral.isCut_optionalTokens count?)

theorem ModifierForm.isCut_optionalTokens (form? : Option ModifierForm) :
    IsCut (optionalTokens form?) := by
  cases form? with
  | none => exact isCut_nil
  | some form => exact isCut_symbol rfl (by simp) (Numeral.isCut_optionalTokens (some form.amount))

/-! Each part after the die begins with a token that continues none. -/

theorem opens_head_append {left right : List Token} (hl : ∀ next ∈ left.head?, next.Opens)
    (hr : ∀ next ∈ right.head?, next.Opens) : ∀ next ∈ (left ++ right).head?, next.Opens := by
  cases left with
  | nil => exact hr
  | cons token left => exact hl

theorem StepForm.opens_head (steps : List StepForm) :
    ∀ next ∈ (steps.flatMap StepForm.tokens).head?, next.Opens := by
  cases steps with
  | nil => simp
  | cons step steps => simp [tokens, Opens]

theorem SelectionForm.opens_head (form : SelectionForm) : ∀ next ∈ form.tokens.head?, next.Opens := by
  cases form <;> simp [tokens, Opens]

theorem ModifierForm.opens_head (form? : Option ModifierForm) :
    ∀ next ∈ (optionalTokens form?).head?, next.Opens := by
  cases form? <;> simp [optionalTokens, tokens, Opens]

theorem ExpressionForm.opens_head_tailTokens (form : ExpressionForm) :
    ∀ next ∈ form.tailTokens.head?, next.Opens :=
  opens_head_append (StepForm.opens_head form.steps)
    (opens_head_append form.selection.opens_head (ModifierForm.opens_head form.modifier?))

theorem ExpressionForm.isCut_tailTokens (form : ExpressionForm) : IsCut form.tailTokens := by
  have hsteps : IsCut (form.steps.flatMap StepForm.tokens) := by
    induction form.steps with
    | nil => exact isCut_nil
    | cons step steps ih => exact step.isCut_tokens.append ih (StepForm.opens_head steps)
  have hrest : IsCut (form.selection.tokens ++ ModifierForm.optionalTokens form.modifier?) :=
    form.selection.isCut_tokens.append (ModifierForm.isCut_optionalTokens _)
      (ModifierForm.opens_head form.modifier?)
  exact hsteps.append hrest (opens_head_append form.selection.opens_head
    (ModifierForm.opens_head form.modifier?))

theorem ExpressionForm.isCut_tokens (form : ExpressionForm) : IsCut form.tokens := by
  have hdie : IsCut form.die.tokens := by
    cases form.die with
    | percent => exact isCut_symbol rfl (by simp) isCut_nil
    | faces n => exact Numeral.isCut_optionalTokens (some n)
  have hrest := hdie.append form.isCut_tailTokens form.opens_head_tailTokens
  have hletter : IsCut (⟨.dice, ['d']⟩ :: (form.die.tokens ++ form.tailTokens)) := by
    refine isCut_dice ?_ hrest
    intro next hn
    cases hf : form.die with
    | percent =>
      obtain rfl : ⟨.percent, ['%']⟩ = next := by simpa [hf, DieForm.tokens] using hn
      simp
    | faces n =>
      obtain rfl : n.token = next := by simpa [hf, DieForm.tokens] using hn
      simp [Numeral.token]
  exact (Numeral.isCut_optionalTokens form.count?).append hletter (by simp [Opens])

/-- The tokens of a form are those that the lexer finds in its text. -/
theorem ExpressionForm.lex_text (form : ExpressionForm) : lex form.text = form.tokens := by
  rw [← form.texts_tokens]
  exact form.isCut_tokens.lex_texts

end Tokens

end Tabletop
