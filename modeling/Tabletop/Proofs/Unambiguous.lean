import Tabletop.Proofs.Reading

/-!
# One form to a text

The grammar is unambiguous. Each part of a form can be told from what follows it: the count ends
at the letter, the steps end where no sign stands before a `d`, and the rest is told by its first
tokens.
-/
namespace Tabletop

theorem Numeral.ext_digits {a b : Numeral} (h : a.digits = b.digits) : a = b := by
  cases a; cases b; cases h; rfl

theorem Numeral.token_injective {a b : Numeral} (h : a.token = b.token) : a = b :=
  ext_digits (congrArg Token.text h)

/-- Where digits may be left out, they end at a token of another kind. -/
theorem Numeral.optionalTokens_append_inj {a b : Option Numeral} {first second : List Token}
    (hfirst : ∀ digits later, first ≠ ⟨.integer, digits⟩ :: later)
    (hsecond : ∀ digits later, second ≠ ⟨.integer, digits⟩ :: later)
    (h : optionalTokens a ++ first = optionalTokens b ++ second) : a = b ∧ first = second := by
  cases a with
  | none =>
    cases b with
    | none => exact ⟨rfl, h⟩
    | some b => exact absurd h (hfirst b.digits _)
  | some a =>
    cases b with
    | none => exact absurd h.symm (hsecond a.digits _)
    | some b =>
      obtain ⟨htoken, hrest⟩ := List.cons.inj h
      exact ⟨congrArg some (token_injective htoken), hrest⟩

theorem DieForm.tokens_append_inj {a b : DieForm} {first second : List Token}
    (h : a.tokens ++ first = b.tokens ++ second) : a = b ∧ first = second := by
  cases a with
  | percent =>
    cases b with
    | percent => exact ⟨rfl, (List.cons.inj h).2⟩
    | faces m => cases (List.cons.inj h).1
  | faces n =>
    cases b with
    | percent => cases (List.cons.inj h).1
    | faces m =>
      obtain ⟨htoken, hrest⟩ := List.cons.inj h
      exact ⟨congrArg DieForm.faces (Numeral.token_injective htoken), hrest⟩

theorem StepForm.flatMap_tokens_append_inj {a b : List StepForm} {first second : List Token}
    (hfirst : Expression.EndsSteps first) (hsecond : Expression.EndsSteps second)
    (h : a.flatMap tokens ++ first = b.flatMap tokens ++ second) : a = b ∧ first = second := by
  have hdigits : ∀ (steps : List StepForm) {rest : List Token}, Expression.EndsSteps rest →
      ∀ digits later, steps.flatMap tokens ++ rest ≠ ⟨.integer, digits⟩ :: later := by
    intro steps rest hrest digits later
    cases steps with
    | nil => exact hrest.1 digits later
    | cons step steps => exact fun he => by cases (List.cons.inj he).1
  induction a generalizing b with
  | nil =>
    cases b with
    | nil => exact ⟨rfl, h⟩
    | cons step b => exact absurd h (hfirst.2 _ _ _ _)
  | cons step a ih =>
    cases b with
    | nil => exact absurd h.symm (hsecond.2 _ _ _ _)
    | cons step' b =>
      obtain ⟨sign, length?⟩ := step
      obtain ⟨sign', length?'⟩ := step'
      simp only [List.flatMap_cons, tokens, List.cons_append, List.append_assoc, List.cons.injEq,
        Token.mk.injEq, TokenKind.sign.injEq] at h
      obtain ⟨⟨rfl, -⟩, -, h⟩ := h
      obtain ⟨rfl, hsteps⟩ :=
        Numeral.optionalTokens_append_inj (hdigits a hfirst) (hdigits b hsecond) h
      obtain ⟨hsame, hrest⟩ := ih hsteps
      exact ⟨by rw [hsame], hrest⟩

theorem ModifierForm.optionalTokens_injective {a b : Option ModifierForm}
    (h : optionalTokens a = optionalTokens b) : a = b := by
  cases a with
  | none =>
    cases b with
    | none => rfl
    | some b => cases h
  | some a =>
    cases b with
    | none => cases h
    | some b =>
      obtain ⟨sign, amount⟩ := a
      obtain ⟨sign', amount'⟩ := b
      simp only [optionalTokens, tokens, List.cons.injEq, Token.mk.injEq, TokenKind.sign.injEq] at h
      obtain ⟨⟨rfl, -⟩, hamount, -⟩ := h
      rw [Numeral.token_injective hamount]

theorem SelectionForm.tokens_append_inj {a b : SelectionForm} {m n : Option ModifierForm}
    (h : a.tokens ++ ModifierForm.optionalTokens m = b.tokens ++ ModifierForm.optionalTokens n) :
    a = b ∧ m = n := by
  have hdigits : ∀ (m : Option ModifierForm) (digits : List Char) (later : List Token),
      ModifierForm.optionalTokens m ≠ ⟨.integer, digits⟩ :: later := by
    intro m digits later
    cases m <;> simp [ModifierForm.optionalTokens, ModifierForm.tokens]
  have hcount : ∀ {n? m? : Option Numeral}, Numeral.optionalTokens n? ++ ModifierForm.optionalTokens m =
      Numeral.optionalTokens m? ++ ModifierForm.optionalTokens n → n? = m? ∧ m = n := by
    intro n? m? h
    obtain ⟨rfl, hmodifier⟩ := Numeral.optionalTokens_append_inj (hdigits m) (hdigits n) h
    exact ⟨rfl, ModifierForm.optionalTokens_injective hmodifier⟩
  have hshape : ∀ {n? : Option Numeral} {m : Option ModifierForm} {kind : TokenKind} {text later},
      kind = .highest ∨ kind = .lowest →
      Numeral.optionalTokens n? ++ ModifierForm.optionalTokens m ≠ ⟨kind, text⟩ :: later := by
    intro n? m kind text later hk
    cases n? <;> cases m <;> rcases hk with rfl | rfl <;>
      simp [Numeral.optionalTokens, Numeral.token, ModifierForm.optionalTokens, ModifierForm.tokens]
  rcases a with _ | n? | n? | n? | n? <;> rcases b with _ | m? | m? | m? | m?
  case all.all => exact ⟨rfl, ModifierForm.optionalTokens_injective h⟩
  case keep.keep =>
    obtain ⟨rfl, hmodifier⟩ := hcount (List.cons.inj h).2
    exact ⟨rfl, hmodifier⟩
  case keepHighest.keepHighest =>
    obtain ⟨rfl, hmodifier⟩ := hcount (List.cons.inj (List.cons.inj h).2).2
    exact ⟨rfl, hmodifier⟩
  case keepLowest.keepLowest =>
    obtain ⟨rfl, hmodifier⟩ := hcount (List.cons.inj (List.cons.inj h).2).2
    exact ⟨rfl, hmodifier⟩
  case dropLowest.dropLowest =>
    obtain ⟨rfl, hmodifier⟩ := hcount (List.cons.inj h).2
    exact ⟨rfl, hmodifier⟩
  case keep.keepHighest => exact absurd (List.cons.inj h).2 (hshape (.inl rfl))
  case keep.keepLowest => exact absurd (List.cons.inj h).2 (hshape (.inr rfl))
  case keepHighest.keep => exact absurd (List.cons.inj h).2.symm (hshape (.inl rfl))
  case keepLowest.keep => exact absurd (List.cons.inj h).2.symm (hshape (.inr rfl))
  all_goals
    cases m <;> cases n <;> simp [tokens, ModifierForm.optionalTokens, ModifierForm.tokens] at h

namespace ExpressionForm

theorem tokens_injective : Function.Injective tokens := by
  intro a b h
  obtain ⟨count?, die, steps, selection, modifier?⟩ := a
  obtain ⟨count?', die', steps', selection', modifier?'⟩ := b
  obtain ⟨rfl, hletter⟩ := Numeral.optionalTokens_append_inj (by simp) (by simp) h
  obtain ⟨rfl, htail⟩ := DieForm.tokens_append_inj (List.cons.inj hletter).2
  obtain ⟨rfl, hrest⟩ := StepForm.flatMap_tokens_append_inj
    (Expression.endsSteps_tokens selection modifier?)
    (Expression.endsSteps_tokens selection' modifier?') htail
  obtain ⟨rfl, rfl⟩ := SelectionForm.tokens_append_inj hrest
  rfl

/-- A text is written in one way at most. -/
theorem text_injective : Function.Injective text := by
  intro a b h
  apply tokens_injective
  rw [← a.lex_text, h, b.lex_text]

/-- The form of a text that the parser accepts denotes what the parser gives. -/
theorem denotes_of_parse_eq_ok {form : ExpressionForm} {source : List Char} {e : Expression}
    (h : Expression.parse source = .ok e) (htext : form.text = Text.trim source) : form.Denotes e := by
  obtain ⟨form', htext', hdenotes⟩ := Expression.exists_form_of_parse_eq_ok h
  obtain rfl := text_injective (htext.trans htext'.symm)
  exact hdenotes

end ExpressionForm

end Tabletop
