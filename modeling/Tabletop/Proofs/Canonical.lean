import Tabletop.Proofs.Unambiguous

/-!
# Canonical texts read back

The canonical text of an expression is the text of a form with all numbers written out, so the
parser gives the expression back. The one exception is the die with a single face, which no text
can name.
-/
namespace Tabletop

/-! ## Canonical forms -/

def Die.form : Die → DieForm
  | poly faces => .faces (Numeral.ofNat faces.val)
  | percentile => .percent

/-- One step of the whole length, or none. -/
def Step.forms (step : Step) : List StepForm :=
  if 0 < step.val then [⟨.plus, some (Numeral.ofNat step.val.natAbs)⟩]
  else if step.val < 0 then [⟨.minus, some (Numeral.ofNat step.val.natAbs)⟩]
  else []

def Selection.form : Selection → SelectionForm
  | keepAll => .all
  | keepHighest count => .keepHighest (some (Numeral.ofNat count.val))
  | keepLowest count => .keepLowest (some (Numeral.ofNat count.val))
  | dropLowest count => .dropLowest (some (Numeral.ofNat count.val))

def Modifier.form (modifier : Modifier) : ModifierForm :=
  ⟨modifier.sign, Numeral.ofNat modifier.value⟩

def Expression.form (e : Expression) : ExpressionForm where
  count? := some (Numeral.ofNat e.count.val)
  die := e.die.form
  steps := e.step.forms
  selection := e.selection.form
  modifier? := e.modifier.map Modifier.form

theorem Die.text_form (die : Die) : die.form.text = die.text := by
  cases die <;> rfl

theorem Step.text_forms (step : Step) : step.forms.flatMap StepForm.text = step.text := by
  unfold forms text
  split
  · exact List.append_nil _
  · split
    · exact List.append_nil _
    · rfl

theorem Selection.text_form (selection : Selection) : selection.form.text = selection.text := by
  cases selection <;> rfl

theorem Modifier.text_form (modifier? : Option Modifier) :
    ModifierForm.optionalText (modifier?.map form) = (modifier?.map text).getD [] := by
  cases modifier? <;> rfl

theorem Expression.text_form (e : Expression) : e.form.text = e.text := by
  show Decimal.ofNat e.count.val ++ 'd' :: e.die.form.text ++ e.step.forms.flatMap StepForm.text ++
    e.selection.form.text ++ ModifierForm.optionalText (e.modifier.map Modifier.form) = e.text
  rw [e.die.text_form, e.step.text_forms, e.selection.text_form, Modifier.text_form]
  rfl

/-! ## Canonical forms denote -/

/-- The die with one face. There is no text for it, and only a program can make it. -/
def Die.IsSingle (die : Die) : Prop := ∃ faces : Faces, die = poly faces ∧ faces.val = 1

theorem Die.denotes_form {die : Die} (h : ¬ die.IsSingle) : die.form.Denotes die := by
  cases die with
  | percentile => exact .percent
  | poly faces =>
    have hone := faces.one_le
    have hne : faces.val ≠ 1 := fun hv => h ⟨faces, rfl, hv⟩
    have hvalue : (Numeral.ofNat faces.val).value = faces.val := Numeral.value_ofNat faces.val
    exact .faces (by omega) hvalue

theorem Step.takeAll_forms (step : Step) : zero.takeAll (step.forms.map StepForm.move) = step := by
  have hlow := step.neg_le
  have hhigh := step.le_max
  have hvalue : Numeral.valueOrOne (some (Numeral.ofNat step.val.natAbs)) = step.val.natAbs :=
    Numeral.value_ofNat _
  unfold forms
  by_cases hup : 0 < step.val
  · rw [if_pos hup]
    show clamp (0 + (Numeral.valueOrOne (some (Numeral.ofNat step.val.natAbs)) : Int)) = step
    rw [hvalue, show (0 + (step.val.natAbs : Int)) = step.val by omega, step.clamp_val]
  · rw [if_neg hup]
    by_cases hdown : step.val < 0
    · rw [if_pos hdown]
      show clamp (0 + -(Numeral.valueOrOne (some (Numeral.ofNat step.val.natAbs)) : Int)) = step
      rw [hvalue, show (0 + -(step.val.natAbs : Int)) = step.val by omega, step.clamp_val]
    · rw [if_neg hdown]
      apply ext_val
      show 0 = step.val
      omega

theorem Step.length_le_of_mem_forms {step : Step} {form : StepForm} (h : form ∈ step.forms) :
    Numeral.valueOrOne form.length? ≤ Expression.greatestStep := by
  have hlow := step.neg_le
  have hhigh := step.le_max
  have hreadable : Chain.maxSteps ≤ Expression.greatestStep := by decide
  have hlength : form.length? = some (Numeral.ofNat step.val.natAbs) := by
    unfold forms at h
    split at h
    · rw [List.mem_singleton.1 h]
    · split at h
      · rw [List.mem_singleton.1 h]
      · simp at h
  rw [hlength]
  show (Numeral.ofNat step.val.natAbs).value ≤ Expression.greatestStep
  rw [Numeral.value_ofNat]
  omega

theorem Selection.denotes_form (selection : Selection) : selection.form.Denotes selection := by
  cases selection with
  | keepAll => exact .all
  | keepHighest count => exact .keepHighest (Numeral.value_ofNat count.val)
  | keepLowest count => exact .keepLowest (Numeral.value_ofNat count.val)
  | dropLowest count => exact .dropLowest (Numeral.value_ofNat count.val)

theorem Modifier.denotes_form (modifier? : Option Modifier) :
    ModifierForm.Denotes (modifier?.map form) modifier? := by
  cases modifier? with
  | none => exact .none
  | some modifier => exact .some rfl (Numeral.value_ofNat modifier.value)

namespace Expression

theorem denotes_form {e : Expression} (h : ¬ e.die.IsSingle) : e.form.Denotes e where
  count := Numeral.value_ofNat e.count.val
  die := Die.denotes_form h
  lengths := fun _ => Step.length_le_of_mem_forms
  step := e.step.takeAll_forms.symm
  selection := e.selection.denotes_form
  modifier := Modifier.denotes_form e.modifier

theorem trim_text (e : Expression) : Text.trim e.text = e.text := by
  rw [← e.text_form]
  exact e.form.trim_text

theorem parse_text {e : Expression} (h : ¬ e.die.IsSingle) : parse e.text = .ok e :=
  parse_eq_ok_of_denotes (e.text_form.trans e.trim_text.symm) (denotes_form h)

theorem not_isSingle_of_parse_eq_ok {source : List Char} {e : Expression}
    (h : parse source = .ok e) : ¬ e.die.IsSingle := by
  intro hsingle
  obtain ⟨faces, hdie, hone⟩ := hsingle
  obtain ⟨form, -, hdenotes⟩ := exists_form_of_parse_eq_ok h
  have hd := hdenotes.die
  rw [hdie] at hd
  generalize form.die = die at hd
  cases hd with
  | faces two_le value => omega

/-! ## The die with one face -/

/-- What is written before the kind of die. -/
def front (e : Expression) : List Char := Decimal.ofNat e.count.val ++ ['d']

/-- What is written after the kind of die. -/
def back (e : Expression) : List Char :=
  e.step.text ++ e.selection.text ++ (e.modifier.map Modifier.text).getD []

theorem text_eq (e : Expression) : e.text = e.front ++ (e.die.text ++ e.back) := by
  simp [text, front, back]

theorem text_of_isSingle {e : Expression} (h : e.die.IsSingle) :
    e.text = e.front ++ '1' :: e.back := by
  obtain ⟨faces, hdie, hone⟩ := h
  have hd : e.die.text = ['1'] := by
    rw [hdie]
    show Decimal.ofNat faces.val = ['1']
    rw [hone]
    rfl
  rw [text_eq, hd]
  rfl

theorem tokens_of_isSingle {e : Expression} (h : e.die.IsSingle) :
    e.form.tokens = Numeral.optionalTokens e.form.count? ++
      ⟨.dice, ['d']⟩ :: ⟨.integer, ['1']⟩ :: e.form.tailTokens := by
  obtain ⟨faces, hdie, hone⟩ := h
  have hd : e.form.die.tokens = [⟨.integer, ['1']⟩] := by
    show e.die.form.tokens = _
    rw [hdie]
    show [(Numeral.ofNat faces.val).token] = _
    rw [hone]
    rfl
  rw [ExpressionForm.tokens, hd]
  rfl

theorem ofTokens_of_isSingle {e : Expression} (h : e.die.IsSingle) :
    ofTokens e.form.tokens = .error ⟨.tooFewFaces, ⟨.integer, ['1']⟩ :: e.form.tailTokens⟩ := by
  have hcount : Numeral.valueOrOne e.form.count? = e.count.val := Numeral.value_ofNat e.count.val
  rw [tokens_of_isSingle h]
  unfold ofTokens
  rw [readCount_tokens hcount]
  rfl

theorem parse_text_of_isSingle {e : Expression} (h : e.die.IsSingle) : parse e.text =
    .error ⟨.tooFewFaces, Text.width e.front, Text.width e.front + 1, ['1']⟩ := by
  have hfront : Token.texts (Numeral.optionalTokens e.form.count?) ++ ['d'] = e.front := by
    rw [Numeral.texts_optionalTokens]
    rfl
  have hrest : e.text = e.front ++ Token.texts (⟨.integer, ['1']⟩ :: e.form.tailTokens) := by
    rw [← e.text_form, ← e.form.texts_tokens, tokens_of_isSingle h, Token.texts_append, ← hfront,
      List.append_assoc]
    rfl
  have hwidth : Text.width e.text - Text.width (Token.texts (⟨.integer, ['1']⟩ :: e.form.tailTokens)) =
      Text.width e.front := by
    rw [hrest, Text.width_append, Nat.add_sub_cancel]
  have hlex : Token.lex e.text = e.form.tokens := by
    rw [← e.text_form, e.form.lex_text]
  unfold parse
  dsimp only
  rw [e.trim_text, hlex, ofTokens_of_isSingle h]
  show Except.error (Fault.locate e.text _) = _
  unfold Fault.locate
  rw [hwidth]
  rfl

end Expression

/-! ## One text to an expression -/

theorem Numeral.ofNat_injective : Function.Injective ofNat := by
  intro a b h
  have hvalue := congrArg value h
  rwa [value_ofNat, value_ofNat] at hvalue

theorem Die.form_injective : Function.Injective form := by
  intro a b h
  cases a with
  | percentile =>
    cases b with
    | percentile => rfl
    | poly faces' => cases h
  | poly faces =>
    cases b with
    | percentile => cases h
    | poly faces' =>
      have hval := Numeral.ofNat_injective (DieForm.faces.inj h)
      rw [Faces.ext_val hval]

theorem Step.forms_injective : Function.Injective forms := by
  intro a b h
  rw [← a.takeAll_forms, h, b.takeAll_forms]

/-- What the reader of selections gives is told by the form. -/
theorem Selection.form_injective : Function.Injective form := by
  intro a b h
  have hend : Expression.EndsSelection [] := trivial
  have ha := Expression.readSelection_tokens a.denotes_form hend
  have hb := Expression.readSelection_tokens b.denotes_form hend
  rw [h, hb] at ha
  exact (Prod.mk.inj (Except.ok.inj ha)).1.symm

theorem Modifier.map_form_injective : Function.Injective (Option.map form) := by
  intro a b h
  have ha := Expression.readModifier_tokens (denotes_form a)
  have hb := Expression.readModifier_tokens (denotes_form b)
  rw [h, hb] at ha
  exact (Prod.mk.inj (Except.ok.inj ha)).1.symm

namespace Expression

theorem form_injective : Function.Injective form := by
  intro a b h
  obtain ⟨count, die, step, selection, modifier⟩ := a
  obtain ⟨count', die', step', selection', modifier'⟩ := b
  have hcount : some (Numeral.ofNat count.val) = some (Numeral.ofNat count'.val) :=
    congrArg ExpressionForm.count? h
  obtain rfl : count = count' := Count.ext_val (Numeral.ofNat_injective (Option.some.inj hcount))
  obtain rfl : die = die' := Die.form_injective (congrArg ExpressionForm.die h)
  obtain rfl : step = step' := Step.forms_injective (congrArg ExpressionForm.steps h)
  obtain rfl : selection = selection' :=
    Selection.form_injective (congrArg ExpressionForm.selection h)
  obtain rfl : modifier = modifier' :=
    Modifier.map_form_injective (congrArg ExpressionForm.modifier? h)
  rfl

theorem text_injective : Function.Injective text := by
  intro a b h
  apply form_injective
  apply ExpressionForm.text_injective
  rw [a.text_form, h, b.text_form]

/-- The parser reads the canonical text of an expression as that expression, unless its die has
one face; then it blames the `1` after the `d`. So no two expressions share a text, and the text
of what was read from a text is read as itself. -/
theorem parse_undoes_text :
    (∀ e : Expression, ¬ e.die.IsSingle → parse e.text = .ok e) ∧
    (∀ e : Expression, e.die.IsSingle →
      e.text = e.front ++ '1' :: e.back ∧ e.front.getLast? = some 'd' ∧
        parse e.text =
          .error ⟨.tooFewFaces, Text.width e.front, Text.width e.front + 1, ['1']⟩) ∧
    (∀ a b : Expression, a.text = b.text → a = b) ∧
    ∀ source e, parse source = .ok e → (parse e.text).map text = .ok e.text := by
  refine ⟨fun e => parse_text, ?_, fun a b h => text_injective h, ?_⟩
  · intro e h
    exact ⟨text_of_isSingle h, by simp [front], parse_text_of_isSingle h⟩
  · intro source e h
    rw [parse_text (not_isSingle_of_parse_eq_ok h)]
    rfl

/-- All parts at once, the numbers at their limits; and one die with one face. -/
theorem parse_undoes_text_at_the_limits : ∃ e single : Expression,
    e.text = "18446744073709551615d4294967295-d13dl18446744073709551615-4294967295".toList ∧
      ¬ e.die.IsSingle ∧ parse e.text = .ok e ∧
      single.die.IsSingle ∧ single.text = "1d1".toList ∧
      parse single.text = .error ⟨.tooFewFaces, 2, 3, ['1']⟩ := by
  let most : Count := ⟨Count.greatest, by decide, Nat.le_refl _⟩
  let faces : Faces := ⟨Faces.greatest, by decide, Nat.le_refl _⟩
  let e : Expression := ⟨most, .poly faces, ⟨-13, by decide, by decide⟩, .dropLowest most,
    some ⟨.minus, Modifier.greatest, Nat.le_refl _⟩⟩
  let single : Expression := ⟨Count.one, .poly ⟨1, by decide, by decide⟩, Step.zero, .keepAll, none⟩
  have he : ¬ e.die.IsSingle := by
    intro h
    obtain ⟨faces', hdie, hone⟩ := h
    obtain rfl : faces = faces' := Die.poly.inj hdie
    exact absurd hone (by decide)
  have hsingle : single.die.IsSingle := ⟨_, rfl, rfl⟩
  have hwidth : Text.width single.front = 2 := by decide
  obtain ⟨-, -, herror⟩ := parse_undoes_text.2.1 single hsingle
  rw [hwidth] at herror
  exact ⟨e, single, by decide, he, parse_undoes_text.1 e he, hsingle, by decide, herror⟩

end Expression

end Tabletop
