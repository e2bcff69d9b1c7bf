import Tabletop.Proofs.Form

/-!
# The parser reads the written forms

For each reader of the parser one lemma says that what it takes from fitting tokens is the
tokens of a part of a form, and one that it takes the tokens of such a part where the grammar
puts it. Together they show that the parser accepts exactly the texts of forms whose numbers
are in range, and gives the expression that the form denotes. Errors are not described here.
-/
namespace Tabletop

namespace Token

/-- A fitting token of digits is a numeral's. -/
theorem Fits.exists_numeral {digits : List Char} (h : Fits ⟨.integer, digits⟩) :
    ∃ n : Numeral, n.digits = digits := by
  cases h with
  | digits nonempty digits => exact ⟨⟨_, nonempty, digits⟩, rfl⟩
  | symbol spelled => simp [TokenKind.spelling?] at spelled

/-- A fitting token of a kind with one spelling has that text. -/
theorem Fits.text_eq {kind : TokenKind} {text spelling : List Char} (h : Fits ⟨kind, text⟩)
    (hs : kind.spelling? = some spelling) : text = spelling := by
  cases h with
  | digits => simp [TokenKind.spelling?] at hs
  | symbol spelled => exact Option.some.inj (spelled.symm.trans hs)
  | stray => simp [TokenKind.spelling?] at hs

end Token

/-- A numeral that is accepted as a count is worth that count. -/
theorem Numeral.valueOrOne_eq_count {n : Numeral} {value : Nat} {count : Count}
    (hvalue : Decimal.upTo? Count.greatest n.digits = some value)
    (hcount : Count.ofNat? value = some count) : valueOrOne (some n) = count.val := by
  obtain ⟨hn, -⟩ := Decimal.upTo?_eq_some_iff.1 hvalue
  rw [← Count.ofNat?_eq_some_iff.1 hcount, ← hn]
  rfl

namespace Expression

variable {tokens rest : List Token}

/-! ## What the readers take -/

theorem readCount_sound {count : Count} (fits : ∀ token ∈ tokens, token.Fits)
    (h : readCount tokens = .ok (count, rest)) :
    ∃ n?, tokens = Numeral.optionalTokens n? ++ rest ∧ Numeral.valueOrOne n? = count.val := by
  unfold readCount at h
  split at h
  · obtain ⟨n, rfl⟩ := (fits _ List.mem_cons_self).exists_numeral
    split at h
    · contradiction
    · next value hv =>
      split at h
      · contradiction
      · next hc =>
        obtain ⟨rfl, rfl⟩ := Prod.mk.inj (Except.ok.inj h)
        exact ⟨some n, rfl, n.valueOrOne_eq_count hv hc⟩
  · obtain ⟨rfl, rfl⟩ := Prod.mk.inj (Except.ok.inj h)
    exact ⟨none, rfl, rfl⟩
  · contradiction

theorem readLetter_sound (fits : ∀ token ∈ tokens, token.Fits) (h : readLetter tokens = .ok rest) :
    tokens = ⟨.dice, ['d']⟩ :: rest := by
  unfold readLetter at h
  split at h
  · obtain rfl := Except.ok.inj h
    rw [(fits _ List.mem_cons_self).text_eq rfl]
  · contradiction

theorem readDie_sound {die : Die} (fits : ∀ token ∈ tokens, token.Fits)
    (h : readDie tokens = .ok (die, rest)) :
    ∃ form : DieForm, tokens = form.tokens ++ rest ∧ form.Denotes die := by
  unfold readDie at h
  split at h
  · obtain ⟨rfl, rfl⟩ := Prod.mk.inj (Except.ok.inj h)
    rw [(fits _ List.mem_cons_self).text_eq rfl]
    exact ⟨.percent, rfl, .percent⟩
  · obtain ⟨n, rfl⟩ := (fits _ List.mem_cons_self).exists_numeral
    split at h
    · contradiction
    · next value hv =>
      split at h
      · contradiction
      · next hd =>
        obtain ⟨rfl, rfl⟩ := Prod.mk.inj (Except.ok.inj h)
        obtain ⟨hn, -⟩ := Decimal.upTo?_eq_some_iff.1 hv
        obtain ⟨faces, rfl, hf, htwo⟩ := Die.ofFaces?_eq_some_iff.1 hd
        rw [← hn] at hf htwo
        exact ⟨.faces n, rfl, .faces htwo hf⟩
  · contradiction

/-- The induction is on the tokens, two or three of which make a step. -/
theorem readSteps_sound {net step : Step} (fits : ∀ token ∈ tokens, token.Fits)
    (h : readSteps net tokens = .ok (step, rest)) :
    ∃ steps : List StepForm, tokens = steps.flatMap StepForm.tokens ++ rest ∧
      (∀ step ∈ steps, Numeral.valueOrOne step.length? ≤ greatestStep) ∧
      step = net.takeAll (steps.map StepForm.move) := by
  fun_induction readSteps net tokens with
  | case1 => contradiction
  | case2 net sign signText diceText digits tokens n hn ih =>
    obtain ⟨steps, rfl, hlengths, hstep⟩ := ih (fun t ht => fits t (by simp [ht])) h
    obtain ⟨numeral, rfl⟩ := (fits ⟨.integer, digits⟩ (by simp)).exists_numeral
    obtain ⟨hvalue, hle⟩ := Decimal.upTo?_eq_some_iff.1 hn
    refine ⟨⟨sign, some numeral⟩ :: steps, ?_, ?_, ?_⟩
    · rw [(fits ⟨.sign sign, signText⟩ (by simp)).text_eq rfl,
        (fits ⟨.dice, diceText⟩ (by simp)).text_eq rfl]
      rfl
    · rintro s (_ | ⟨_, hs⟩)
      · rw [← hvalue] at hle
        exact hle
      · exact hlengths s hs
    · rw [hstep, ← hvalue]
      rfl
  | case3 net sign signText diceText tokens hnumber ih =>
    obtain ⟨steps, rfl, hlengths, hstep⟩ := ih (fun t ht => fits t (by simp [ht])) h
    refine ⟨⟨sign, none⟩ :: steps, ?_, ?_, ?_⟩
    · rw [(fits ⟨.sign sign, signText⟩ (by simp)).text_eq rfl,
        (fits ⟨.dice, diceText⟩ (by simp)).text_eq rfl]
      rfl
    · rintro s (_ | ⟨_, hs⟩)
      · exact (by decide : 1 ≤ greatestStep)
      · exact hlengths s hs
    · rw [hstep]
      rfl
  | case4 =>
    obtain ⟨rfl, rfl⟩ := Prod.mk.inj (Except.ok.inj h)
    exact ⟨[], rfl, by simp, rfl⟩

theorem readSelected_sound {count : Count} (fits : ∀ token ∈ tokens, token.Fits)
    (h : readSelected tokens = .ok (count, rest)) :
    ∃ n?, tokens = Numeral.optionalTokens n? ++ rest ∧ Numeral.valueOrOne n? = count.val := by
  unfold readSelected at h
  split at h
  · obtain ⟨n, rfl⟩ := (fits _ List.mem_cons_self).exists_numeral
    split at h
    · contradiction
    · next value hv =>
      split at h
      · contradiction
      · next hc =>
        obtain ⟨rfl, rfl⟩ := Prod.mk.inj (Except.ok.inj h)
        exact ⟨some n, rfl, n.valueOrOne_eq_count hv hc⟩
  · obtain ⟨rfl, rfl⟩ := Prod.mk.inj (Except.ok.inj h)
    exact ⟨none, rfl, rfl⟩
  · obtain ⟨rfl, rfl⟩ := Prod.mk.inj (Except.ok.inj h)
    exact ⟨none, rfl, rfl⟩
  · contradiction

theorem selecting_eq_ok_iff {make : Count → Selection} {selection : Selection} :
    selecting make tokens = .ok (selection, rest) ↔
      ∃ count, readSelected tokens = .ok (count, rest) ∧ make count = selection := by
  unfold selecting
  cases readSelected tokens with
  | error fault => simp [Except.map]
  | ok result => simp [Except.map, Prod.ext_iff, and_comm]

theorem readSelection_sound {selection : Selection} (fits : ∀ token ∈ tokens, token.Fits)
    (h : readSelection tokens = .ok (selection, rest)) :
    ∃ form : SelectionForm, tokens = form.tokens ++ rest ∧ form.Denotes selection := by
  have hk : ∀ {text}, Token.Fits ⟨.keep, text⟩ → text = ['k'] := fun ht => ht.text_eq rfl
  have hd : ∀ {text}, Token.Fits ⟨.dropLowest, text⟩ → text = ['d', 'l'] := fun ht => ht.text_eq rfl
  unfold readSelection at h
  split at h
  · next text₁ text₂ later =>
    obtain ⟨count, hr, rfl⟩ := selecting_eq_ok_iff.1 h
    obtain ⟨n?, rfl, hv⟩ := readSelected_sound (fun t ht => fits t (by simp [ht])) hr
    rw [hk (fits ⟨.keep, text₁⟩ (by simp)), (fits ⟨.highest, text₂⟩ (by simp)).text_eq rfl]
    exact ⟨.keepHighest n?, rfl, .keepHighest hv⟩
  · next text₁ text₂ later =>
    obtain ⟨count, hr, rfl⟩ := selecting_eq_ok_iff.1 h
    obtain ⟨n?, rfl, hv⟩ := readSelected_sound (fun t ht => fits t (by simp [ht])) hr
    rw [hk (fits ⟨.keep, text₁⟩ (by simp)), (fits ⟨.lowest, text₂⟩ (by simp)).text_eq rfl]
    exact ⟨.keepLowest n?, rfl, .keepLowest hv⟩
  · next text =>
    obtain ⟨count, hr, rfl⟩ := selecting_eq_ok_iff.1 h
    obtain ⟨n?, he, hv⟩ := readSelected_sound (fun t ht => by simp at ht) hr
    rw [hk (fits ⟨.keep, text⟩ (by simp)), he]
    exact ⟨.keep n?, rfl, .keep hv⟩
  · next text digits later =>
    obtain ⟨count, hr, rfl⟩ := selecting_eq_ok_iff.1 h
    obtain ⟨n?, he, hv⟩ := readSelected_sound (fun t ht => fits t (List.mem_cons_of_mem _ ht)) hr
    rw [hk (fits ⟨.keep, text⟩ (by simp)), he]
    exact ⟨.keep n?, rfl, .keep hv⟩
  · next text sign signText later =>
    obtain ⟨count, hr, rfl⟩ := selecting_eq_ok_iff.1 h
    obtain ⟨n?, he, hv⟩ := readSelected_sound (fun t ht => fits t (List.mem_cons_of_mem _ ht)) hr
    rw [hk (fits ⟨.keep, text⟩ (by simp)), he]
    exact ⟨.keep n?, rfl, .keep hv⟩
  · contradiction
  · next text later =>
    obtain ⟨count, hr, rfl⟩ := selecting_eq_ok_iff.1 h
    obtain ⟨n?, rfl, hv⟩ := readSelected_sound (fun t ht => fits t (List.mem_cons_of_mem _ ht)) hr
    rw [hd (fits ⟨.dropLowest, text⟩ (by simp))]
    exact ⟨.dropLowest n?, rfl, .dropLowest hv⟩
  · obtain ⟨rfl, rfl⟩ := Prod.mk.inj (Except.ok.inj h)
    exact ⟨.all, rfl, .all⟩

theorem readModifier_sound {modifier? : Option Modifier} (fits : ∀ token ∈ tokens, token.Fits)
    (h : readModifier tokens = .ok (modifier?, rest)) :
    ∃ form?, tokens = ModifierForm.optionalTokens form? ++ rest ∧
      ModifierForm.Denotes form? modifier? := by
  unfold readModifier at h
  split at h
  · next sign text digits later =>
    obtain ⟨n, rfl⟩ := (fits ⟨.integer, digits⟩ (by simp)).exists_numeral
    rw [(fits ⟨.sign sign, text⟩ (by simp)).text_eq rfl]
    split at h
    · contradiction
    · next modifier hm =>
      obtain ⟨rfl, rfl⟩ := Prod.mk.inj (Except.ok.inj h)
      obtain ⟨value, hv, ho⟩ := Option.bind_eq_some_iff.1 hm
      obtain ⟨hsign, hvalue⟩ := Modifier.ofNat?_eq_some_iff.1 ho
      obtain ⟨hn, -⟩ := Decimal.upTo?_eq_some_iff.1 hv
      exact ⟨some ⟨sign, n⟩, rfl, .some hsign (hn.trans hvalue)⟩
  · contradiction
  · obtain ⟨rfl, rfl⟩ := Prod.mk.inj (Except.ok.inj h)
    exact ⟨none, rfl, .none⟩

/-! ## All readers together -/

private theorem exists_of_bind_eq_ok {ε α β : Type} {x : Except ε α} {f : α → Except ε β} {b : β}
    (h : x >>= f = .ok b) : ∃ a, x = .ok a ∧ f a = .ok b := by
  cases x with
  | error e => contradiction
  | ok a => exact ⟨a, rfl, h⟩

/-- An expression is read when one reader after the other takes its part and nothing is left. -/
theorem ofTokens_eq_ok_iff {e : Expression} :
    ofTokens tokens = .ok e ↔ ∃ r₁ r₂ r₃ r₄ r₅, readCount tokens = .ok (e.count, r₁) ∧
      readLetter r₁ = .ok r₂ ∧ readDie r₂ = .ok (e.die, r₃) ∧
      readSteps Step.zero r₃ = .ok (e.step, r₄) ∧ readSelection r₄ = .ok (e.selection, r₅) ∧
      readModifier r₅ = .ok (e.modifier, []) := by
  constructor
  · intro h
    unfold ofTokens at h
    obtain ⟨⟨count, r₁⟩, h₁, h⟩ := exists_of_bind_eq_ok h
    obtain ⟨r₂, h₂, h⟩ := exists_of_bind_eq_ok h
    obtain ⟨⟨die, r₃⟩, h₃, h⟩ := exists_of_bind_eq_ok h
    obtain ⟨⟨step, r₄⟩, h₄, h⟩ := exists_of_bind_eq_ok h
    obtain ⟨⟨selection, r₅⟩, h₅, h⟩ := exists_of_bind_eq_ok h
    obtain ⟨⟨modifier, r₆⟩, h₆, h⟩ := exists_of_bind_eq_ok h
    dsimp only at h
    split at h
    · next hr =>
      obtain rfl := Except.ok.inj h
      obtain rfl := List.isEmpty_iff.1 hr
      exact ⟨r₁, r₂, r₃, r₄, r₅, h₁, h₂, h₃, h₄, h₅, h₆⟩
    · contradiction
  · intro h
    obtain ⟨r₁, r₂, r₃, r₄, r₅, h₁, h₂, h₃, h₄, h₅, h₆⟩ := h
    simp [ofTokens, h₁, h₂, h₃, h₄, h₅, h₆, bind, Except.bind]

/-- What the parser accepts are the tokens of a form of its result. -/
theorem ofTokens_sound {e : Expression} (fits : ∀ token ∈ tokens, token.Fits)
    (h : ofTokens tokens = .ok e) : ∃ form : ExpressionForm, tokens = form.tokens ∧ form.Denotes e := by
  obtain ⟨r₁, r₂, r₃, r₄, r₅, h₁, h₂, h₃, h₄, h₅, h₆⟩ := ofTokens_eq_ok_iff.1 h
  obtain ⟨count?, rfl, hcount⟩ := readCount_sound fits h₁
  have fits₁ : ∀ token ∈ r₁, token.Fits := fun t ht => fits t (List.mem_append_right _ ht)
  obtain rfl := readLetter_sound fits₁ h₂
  have fits₂ : ∀ token ∈ r₂, token.Fits := fun t ht => fits₁ t (List.mem_cons_of_mem _ ht)
  obtain ⟨die, rfl, hdie⟩ := readDie_sound fits₂ h₃
  have fits₃ : ∀ token ∈ r₃, token.Fits := fun t ht => fits₂ t (List.mem_append_right _ ht)
  obtain ⟨steps, rfl, hlengths, hstep⟩ := readSteps_sound fits₃ h₄
  have fits₄ : ∀ token ∈ r₄, token.Fits := fun t ht => fits₃ t (List.mem_append_right _ ht)
  obtain ⟨selection, rfl, hselection⟩ := readSelection_sound fits₄ h₅
  have fits₅ : ∀ token ∈ r₅, token.Fits := fun t ht => fits₄ t (List.mem_append_right _ ht)
  obtain ⟨modifier?, rfl, hmodifier⟩ := readModifier_sound fits₅ h₆
  refine ⟨⟨count?, die, steps, selection, modifier?⟩, ?_, hcount, hdie, hlengths, hstep, hselection,
    hmodifier⟩
  simp [ExpressionForm.tokens, ExpressionForm.tailTokens]

/-! ## What the readers take, where the grammar puts it -/

theorem readCount_tokens {n? : Option Numeral} {count : Count}
    (h : Numeral.valueOrOne n? = count.val) (rest : List Token) :
    readCount (Numeral.optionalTokens n? ++ ⟨.dice, ['d']⟩ :: rest) =
      .ok (count, ⟨.dice, ['d']⟩ :: rest) := by
  cases n? with
  | none =>
    obtain rfl : Count.one = count := Count.ext_val h
    rfl
  | some n =>
    have hv : Decimal.upTo? Count.greatest n.digits = some count.val :=
      Decimal.upTo?_eq_some_iff.2 ⟨h, count.le_greatest⟩
    show readCount (⟨.integer, n.digits⟩ :: _) = _
    simp only [readCount, hv, Count.ofNat?_val]
    rfl

theorem readDie_tokens {form : DieForm} {die : Die} (h : form.Denotes die) (rest : List Token) :
    readDie (form.tokens ++ rest) = .ok (die, rest) := by
  cases h with
  | percent => rfl
  | @faces n faces two_le value =>
    have hv : Decimal.upTo? Faces.greatest n.digits = some faces.val :=
      Decimal.upTo?_eq_some_iff.2 ⟨value, faces.le_greatest⟩
    have hd : Die.ofFaces? faces.val = some (.poly faces) :=
      Die.ofFaces?_eq_some_iff.2 ⟨faces, rfl, rfl, value ▸ two_le⟩
    show readDie (⟨.integer, n.digits⟩ :: rest) = _
    simp only [readDie, hv, hd]

/-- Tokens that do not go on with steps: no digits, and no sign before a `d`. -/
def EndsSteps (rest : List Token) : Prop :=
  (∀ digits later, rest ≠ ⟨.integer, digits⟩ :: later) ∧
    ∀ sign text text' later, rest ≠ ⟨.sign sign, text⟩ :: ⟨.dice, text'⟩ :: later

theorem readSteps_tokens {steps : List StepForm}
    (lengths : ∀ step ∈ steps, Numeral.valueOrOne step.length? ≤ greatestStep)
    (ends : EndsSteps rest) (net : Step) :
    readSteps net (steps.flatMap StepForm.tokens ++ rest) =
      .ok (net.takeAll (steps.map StepForm.move), rest) := by
  induction steps generalizing net with
  | nil =>
    show readSteps net rest = .ok (net, rest)
    rw [readSteps.eq_def]
    split
    · exact absurd rfl (ends.2 _ _ _ _)
    · exact absurd rfl (ends.2 _ _ _ _)
    · rfl
  | cons step steps ih =>
    have hle := lengths step List.mem_cons_self
    have ih := ih fun s hs => lengths s (List.mem_cons_of_mem _ hs)
    obtain ⟨sign, length?⟩ := step
    cases length? with
    | some n =>
      have hv : Decimal.upTo? greatestStep n.digits = some n.value :=
        Decimal.upTo?_eq_some_iff.2 ⟨rfl, hle⟩
      show readSteps net (⟨.sign sign, _⟩ :: ⟨.dice, _⟩ :: ⟨.integer, n.digits⟩ ::
        (steps.flatMap StepForm.tokens ++ rest)) = _
      rw [readSteps, hv]
      exact ih _
    | none =>
      show readSteps net (⟨.sign sign, _⟩ :: ⟨.dice, _⟩ ::
        (steps.flatMap StepForm.tokens ++ rest)) = _
      rw [readSteps]
      · exact ih _
      · intro digits later he
        cases steps with
        | nil => exact ends.1 digits later he
        | cons next steps => cases (List.cons.inj he).1

/-- Tokens that do not go on with the number of a selection: none at all, or a sign. -/
def EndsSelection : List Token → Prop
  | [] => True
  | token :: _ => ∃ sign text, token = ⟨.sign sign, text⟩

theorem readSelected_tokens {n? : Option Numeral} {count : Count}
    (h : Numeral.valueOrOne n? = count.val) (ends : EndsSelection rest) :
    readSelected (Numeral.optionalTokens n? ++ rest) = .ok (count, rest) := by
  cases n? with
  | none =>
    obtain rfl : Count.one = count := Count.ext_val h
    cases rest with
    | nil => rfl
    | cons token rest =>
      obtain ⟨sign, text, rfl⟩ := ends
      rfl
  | some n =>
    have hv : Decimal.upTo? Count.greatest n.digits = some count.val :=
      Decimal.upTo?_eq_some_iff.2 ⟨h, count.le_greatest⟩
    show readSelected (⟨.integer, n.digits⟩ :: rest) = _
    simp only [readSelected, hv, Count.ofNat?_val]

/-- A selection with a number, or with none where the grammar lets it be left out. -/
theorem selecting_tokens {n? : Option Numeral} {count : Count} (make : Count → Selection)
    (h : Numeral.valueOrOne n? = count.val) (ends : EndsSelection rest) :
    selecting make (Numeral.optionalTokens n? ++ rest) = .ok (make count, rest) :=
  selecting_eq_ok_iff.2 ⟨count, readSelected_tokens h ends, rfl⟩

theorem readSelection_tokens {form : SelectionForm} {selection : Selection}
    (h : form.Denotes selection) (ends : EndsSelection rest) :
    readSelection (form.tokens ++ rest) = .ok (selection, rest) := by
  cases h with
  | all =>
    cases rest with
    | nil => rfl
    | cons token rest =>
      obtain ⟨sign, text, rfl⟩ := ends
      rfl
  | @keep n? count value =>
    have hs := selecting_tokens .keepHighest value ends
    cases n? with
    | some n => exact hs
    | none =>
      cases rest with
      | nil => exact hs
      | cons token rest =>
        obtain ⟨sign, text, rfl⟩ := ends
        exact hs
  | keepHighest value => exact selecting_tokens .keepHighest value ends
  | keepLowest value => exact selecting_tokens .keepLowest value ends
  | dropLowest value => exact selecting_tokens .dropLowest value ends

theorem readModifier_tokens {form? : Option ModifierForm} {modifier? : Option Modifier}
    (h : ModifierForm.Denotes form? modifier?) :
    readModifier (ModifierForm.optionalTokens form?) = .ok (modifier?, []) := by
  cases h with
  | none => rfl
  | @some form modifier sign value =>
    have hv : (Decimal.upTo? Modifier.greatest form.amount.digits).bind
        (Modifier.ofNat? form.sign) = some modifier := by
      refine Option.bind_eq_some_iff.2 ⟨modifier.value, ?_, ?_⟩
      · exact Decimal.upTo?_eq_some_iff.2 ⟨value, modifier.le_greatest⟩
      · exact Modifier.ofNat?_eq_some_iff.2 ⟨sign, rfl⟩
    show readModifier [⟨.sign form.sign, _⟩, ⟨.integer, form.amount.digits⟩] = _
    simp only [readModifier, hv]

theorem endsSelection_optionalTokens (form? : Option ModifierForm) :
    EndsSelection (ModifierForm.optionalTokens form?) := by
  cases form? with
  | none => trivial
  | some form => exact ⟨form.sign, [form.sign.char], rfl⟩

/-- What may follow the steps is no digits, and a sign there stands before digits. -/
theorem endsSteps_tokens (form : SelectionForm) (form? : Option ModifierForm) :
    EndsSteps (form.tokens ++ ModifierForm.optionalTokens form?) := by
  constructor
  · intro digits later
    cases form <;> cases form? <;>
      simp [SelectionForm.tokens, ModifierForm.optionalTokens, ModifierForm.tokens]
  · intro sign text text' later
    cases form <;> cases form? <;>
      simp [SelectionForm.tokens, ModifierForm.optionalTokens, ModifierForm.tokens, Numeral.token]

/-- The parser reads the tokens of a form as the expression that the form denotes. -/
theorem ofTokens_tokens {form : ExpressionForm} {e : Expression} (h : form.Denotes e) :
    ofTokens form.tokens = .ok e := by
  refine ofTokens_eq_ok_iff.2 ⟨_, _, _, _, _, readCount_tokens h.count _, rfl,
    readDie_tokens h.die _, ?_, readSelection_tokens h.selection (endsSelection_optionalTokens _),
    readModifier_tokens h.modifier⟩
  rw [h.step]
  exact readSteps_tokens h.lengths (endsSteps_tokens form.selection form.modifier?) Step.zero

theorem parse_eq_ok_iff {text : List Char} {e : Expression} :
    parse text = .ok e ↔ ofTokens (Token.lex (Text.trim text)) = .ok e := by
  unfold parse
  dsimp only
  cases ofTokens (Token.lex (Text.trim text)) with
  | error fault => simp [Except.mapError]
  | ok e' => simp [Except.mapError]

theorem parse_eq_ok_of_denotes {text : List Char} {form : ExpressionForm} {e : Expression}
    (ht : form.text = Text.trim text) (h : form.Denotes e) : parse text = .ok e := by
  rw [parse_eq_ok_iff, ← ht, form.lex_text]
  exact ofTokens_tokens h

theorem exists_form_of_parse_eq_ok {text : List Char} {e : Expression} (h : parse text = .ok e) :
    ∃ form : ExpressionForm, form.text = Text.trim text ∧ form.Denotes e := by
  rw [parse_eq_ok_iff] at h
  obtain ⟨form, hf, hd⟩ := ofTokens_sound (fun _ => Token.fits_of_mem_lex) h
  refine ⟨form, ?_, hd⟩
  rw [← form.texts_tokens, ← hf, Token.texts_lex]

/-- The parser accepts the texts of forms whose numbers are in range, blanks at both ends put
aside, and no others; it gives the expression that the form denotes. -/
theorem parse_accepts_grammar (text : List Char) :
    ((∃ e, parse text = .ok e) ↔
      ∃ form : ExpressionForm, form.text = Text.trim text ∧ form.InRange) ∧
    ∀ e, parse text = .ok e ↔
      ∃ form : ExpressionForm, form.text = Text.trim text ∧ form.Denotes e := by
  have hiff : ∀ e, parse text = .ok e ↔
      ∃ form : ExpressionForm, form.text = Text.trim text ∧ form.Denotes e := by
    intro e
    constructor
    · exact exists_form_of_parse_eq_ok
    · intro hform
      obtain ⟨form, ht, hd⟩ := hform
      exact parse_eq_ok_of_denotes ht hd
  refine ⟨?_, hiff⟩
  constructor
  · intro haccepted
    obtain ⟨e, h⟩ := haccepted
    obtain ⟨form, ht, hd⟩ := (hiff e).1 h
    exact ⟨form, ht, form.exists_denotes_iff.1 ⟨e, hd⟩⟩
  · intro hform
    obtain ⟨form, ht, hr⟩ := hform
    obtain ⟨e, hd⟩ := form.exists_denotes_iff.2 hr
    exact ⟨e, (hiff e).2 ⟨form, ht, hd⟩⟩

end Expression

end Tabletop
