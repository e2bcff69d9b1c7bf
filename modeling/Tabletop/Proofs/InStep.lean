import Tabletop.Proofs.Reading
import Tabletop.Proofs.Stages

/-!
# The parser in step with the stages

Each reader of the parser takes tokens that lead from the stage where it begins to the stage where
it leaves off, and at a fault the stage that was reached takes no token more. So the parser gives an
expression exactly when the tokens lead to a stage at which one may end, and otherwise stops at
the first token that leads nowhere.
-/
namespace Tabletop.Expression

/-- A reader that starts at the stage and ends at another one, or at a fault where the stage that
was reached stops. `P` tells what was read, the tokens left and the stage. -/
def KeepsStep {β : Type} (stage : Stage) (tokens : List Token) (P : β → List Token → Stage → Prop) :
    Except Fault β → Prop
  | .error fault => ∃ left last, tokens = left ++ fault.rest ∧ stage.run? left = some last ∧
      last.Refuses fault
  | .ok result => ∃ left rest last, tokens = left ++ rest ∧ stage.run? left = some last ∧
      P result rest last

section KeepsStep

variable {β γ : Type} {stage : Stage} {tokens rest : List Token}

theorem KeepsStep.here {P : β → List Token → Stage → Prop} {result : β} (h : P result tokens stage) :
    KeepsStep stage tokens P (.ok result) :=
  ⟨[], tokens, stage, rfl, rfl, h⟩

theorem KeepsStep.unexpected {P : β → List Token → Stage → Prop} {expected : List TokenKind}
    (stops : ∀ kind text later, tokens = ⟨kind, text⟩ :: later → stage.after? kind = none)
    (unfinished : tokens = [] → stage.isComplete = false)
    (offers : ∀ kind ∈ expected, (stage.after? kind).isSome = true)
    (finished : expected = [] → stage.isComplete = true) :
    KeepsStep stage tokens P (.error (.unexpected expected tokens)) :=
  ⟨[], stage, (Fault.rest_unexpected expected tokens).symm, rfl,
    Stage.refuses_unexpected stops unfinished offers finished⟩

theorem KeepsStep.outOfBounds {P : β → List Token → Stage → Prop} {next : Stage}
    {cause : ExpressionError.Cause} {digits : List Char} (hafter : stage.after? .integer = some next)
    (h : stage.OutOfBounds (Decimal.value digits) cause) :
    KeepsStep stage (⟨.integer, digits⟩ :: tokens) P
      (.error ⟨cause, ⟨.integer, digits⟩ :: tokens⟩) :=
  ⟨[], stage, rfl, rfl, Stage.refuses_number hafter h⟩

theorem KeepsStep.mono {P Q : β → List Token → Stage → Prop} {reading : Except Fault β}
    (h : KeepsStep stage tokens P reading)
    (hPQ : ∀ result rest last, P result rest last → Q result rest last) :
    KeepsStep stage tokens Q reading := by
  cases reading with
  | error fault => exact h
  | ok result =>
    obtain ⟨left, rest, last, htokens, hrun, hP⟩ := h
    exact ⟨left, rest, last, htokens, hrun, hPQ result rest last hP⟩

/-- Tokens that lead to a stage, and a reader in step with it. -/
theorem KeepsStep.behind {P : β → List Token → Stage → Prop} {reading : Except Fault β}
    {left : List Token} {next : Stage} (hleft : stage.run? left = some next)
    (h : KeepsStep next rest P reading) : KeepsStep stage (left ++ rest) P reading := by
  cases reading with
  | error fault =>
    obtain ⟨more, last, rfl, hrun, hrefuses⟩ := h
    refine ⟨left ++ more, last, by rw [List.append_assoc], ?_, hrefuses⟩
    rw [Stage.run?_append, hleft]
    exact hrun
  | ok result =>
    obtain ⟨more, rest, last, rfl, hrun, hP⟩ := h
    refine ⟨left ++ more, rest, last, by rw [List.append_assoc], ?_, hP⟩
    rw [Stage.run?_append, hleft]
    exact hrun

theorem KeepsStep.next {P : β → List Token → Stage → Prop} {reading : Except Fault β} {token : Token}
    {next : Stage} (htake : stage.take? token = some next) (h : KeepsStep next rest P reading) :
    KeepsStep stage (token :: rest) P reading := by
  have hrun : stage.run? [token] = some next := by
    rw [Stage.run?_cons, htake]
    rfl
  exact h.behind hrun

theorem KeepsStep.bind {P : β → List Token → Stage → Prop} {Q : γ → List Token → Stage → Prop}
    {reading : Except Fault β} {next : β → Except Fault γ} (h : KeepsStep stage tokens P reading)
    (hnext : ∀ result rest last, P result rest last → KeepsStep last rest Q (next result)) :
    KeepsStep stage tokens Q (reading >>= next) := by
  cases reading with
  | error fault => exact h
  | ok result =>
    obtain ⟨left, rest, last, rfl, hrun, hP⟩ := h
    exact (hnext result rest last hP).behind hrun

end KeepsStep

/-! ## The readers -/

section Readers

variable {stage : Stage} {tokens rest : List Token} {digits : List Char}

theorem admits_integer_iff : stage.Admits ⟨.integer, digits⟩ ↔
    stage.numbers.1 ≤ Decimal.value digits ∧ Decimal.value digits ≤ stage.numbers.2 :=
  ⟨fun h => h rfl, fun h _ => h⟩

theorem take?_integer {next : Stage} (hafter : stage.after? .integer = some next)
    (h : stage.Admits ⟨.integer, digits⟩) : stage.take? ⟨.integer, digits⟩ = some next :=
  (if_pos h).trans hafter

theorem eq_zero_of_count_eq_none {n : Nat} (hle : n ≤ Count.greatest) (h : Count.ofNat? n = none) :
    n = 0 := by
  by_cases hone : 1 ≤ n
  · rw [Count.ofNat?, dif_pos ⟨hone, hle⟩] at h
    contradiction
  · omega

/-- Digits that are read as a count lead on, and others are refused. -/
theorem number_keepsStep {next : Stage} {cause : ExpressionError.Cause}
    (hnumbers : stage.numbers = (1, Count.greatest)) (hafter : stage.after? .integer = some next)
    (hzero : stage.OutOfBounds 0 cause) :
    KeepsStep stage (⟨.integer, digits⟩ :: tokens)
      (fun (result : Count × List Token) rest stage => result.2 = rest ∧ stage = next)
      (match Decimal.upTo? Count.greatest digits with
      | none => .error ⟨.numberTooLarge, ⟨.integer, digits⟩ :: tokens⟩
      | some n =>
        match Count.ofNat? n with
        | none => .error ⟨cause, ⟨.integer, digits⟩ :: tokens⟩
        | some count => .ok (count, tokens)) := by
  split
  · next hn =>
    refine .outOfBounds hafter ?_
    rw [Stage.OutOfBounds, hnumbers]
    exact Decimal.upTo?_eq_none_iff.1 hn
  · next n hn =>
    obtain ⟨rfl, hle⟩ := Decimal.upTo?_eq_some_iff.1 hn
    split
    · next hcount =>
      refine .outOfBounds hafter ?_
      rwa [eq_zero_of_count_eq_none hle hcount]
    · next count hcount =>
      have hadmits : stage.Admits ⟨.integer, digits⟩ := by
        rw [admits_integer_iff, hnumbers, Count.ofNat?_eq_some_iff.1 hcount]
        exact ⟨count.one_le, count.le_greatest⟩
      exact .next (take?_integer hafter hadmits) (.here ⟨rfl, rfl⟩)

/-- Behind the count, or where none is written before the letter. -/
def BehindCount (rest : List Token) (stage : Stage) : Prop :=
  stage = .count ∨ stage = .start ∧ ∃ text later, rest = ⟨.dice, text⟩ :: later

theorem readCount_keepsStep (tokens : List Token) :
    KeepsStep .start tokens (fun result rest stage => result.2 = rest ∧ BehindCount rest stage)
      (readCount tokens) := by
  unfold readCount
  split
  · next digits rest =>
    have hzero : Stage.start.OutOfBounds 0 .noDice := ⟨rfl, rfl⟩
    refine (number_keepsStep rfl rfl hzero).mono ?_
    rintro result rest last ⟨hrest, rfl⟩
    exact ⟨hrest, .inl rfl⟩
  · next text rest => exact .here ⟨rfl, .inr ⟨rfl, text, rest, rfl⟩⟩
  · next rest hinteger hdice =>
    refine .unexpected ?_ ?_ ?_ ?_
    · rintro kind text later rfl
      cases kind with
      | integer => exact absurd rfl (hinteger text later)
      | dice => exact absurd rfl (hdice text later)
      | _ => rfl
    · intro _
      rfl
    · decide
    · simp

theorem readLetter_keepsStep (h : BehindCount tokens stage) :
    KeepsStep stage tokens (fun result rest stage => result = rest ∧ stage = .letter)
      (readLetter tokens) := by
  have hdice : stage.after? .dice = some .letter := by
    rcases h with rfl | ⟨rfl, -⟩ <;> rfl
  unfold readLetter
  split
  · next text rest =>
    have htake : stage.take? ⟨.dice, text⟩ = some .letter :=
      (stage.take?_of_ne_integer (by simp)).trans hdice
    exact .next htake (.here ⟨rfl, rfl⟩)
  · next rest hletter =>
    obtain rfl : stage = .count := by
      rcases h with h | ⟨-, text, later, rfl⟩
      · exact h
      · exact absurd rfl (hletter text later)
    refine .unexpected ?_ ?_ ?_ ?_
    · rintro kind text later rfl
      cases kind with
      | dice => exact absurd rfl (hletter text later)
      | _ => rfl
    · intro _
      rfl
    · decide
    · simp

theorem le_one_of_faces_eq_none {n : Nat} (hle : n ≤ Faces.greatest) (h : Die.ofFaces? n = none) :
    n ≤ 1 := by
  by_cases htwo : 2 ≤ n
  · have hdie : Die.ofFaces? n = some (.poly ⟨n, Nat.le_of_succ_le htwo, hle⟩) :=
      Die.ofFaces?_eq_some_iff.2 ⟨_, rfl, rfl, htwo⟩
    rw [hdie] at h
    contradiction
  · omega

theorem readDie_keepsStep (tokens : List Token) :
    KeepsStep .letter tokens (fun result rest stage => result.2 = rest ∧ stage = .die)
      (readDie tokens) := by
  unfold readDie
  split
  · next text rest =>
    have htake : Stage.letter.take? ⟨.percent, text⟩ = some .die :=
      Stage.take?_of_ne_integer .letter (by simp)
    exact .next htake (.here ⟨rfl, rfl⟩)
  · next digits rest =>
    have hafter : Stage.letter.after? .integer = some .die := rfl
    split
    · next hn => exact .outOfBounds hafter (Decimal.upTo?_eq_none_iff.1 hn)
    · next n hn =>
      obtain ⟨rfl, hle⟩ := Decimal.upTo?_eq_some_iff.1 hn
      split
      · next hdie =>
        exact .outOfBounds hafter ⟨rfl, le_one_of_faces_eq_none hle hdie⟩
      · next die hdie =>
        obtain ⟨-, -, -, htwo⟩ := Die.ofFaces?_eq_some_iff.1 hdie
        exact .next (take?_integer hafter (admits_integer_iff.2 ⟨htwo, hle⟩)) (.here ⟨rfl, rfl⟩)
  · next rest hpercent hinteger =>
    refine .unexpected ?_ ?_ ?_ ?_
    · rintro kind text later rfl
      cases kind with
      | integer => exact absurd rfl (hinteger text later)
      | percent => exact absurd rfl (hpercent text later)
      | _ => rfl
    · intro _
      rfl
    · decide
    · simp

/-- Behind the die and steps; where the last step has no length, no digits come next. -/
def BehindSteps (rest : List Token) (stage : Stage) : Prop :=
  stage = .die ∨ stage = .stepLetter ∧ ∀ digits later, rest ≠ ⟨.integer, digits⟩ :: later

theorem BehindSteps.take?_eq {token : Token} (h : BehindSteps (token :: rest) stage)
    (hinteger : token.kind ≠ .integer) : stage.take? token = Stage.die.after? token.kind := by
  rw [stage.take?_of_ne_integer hinteger]
  rcases h with rfl | ⟨rfl, -⟩
  · rfl
  · revert hinteger
    cases token.kind <;> simp [Stage.after?]

/-- The sign and the letter of a step lead on from behind other steps. -/
theorem KeepsStep.behindLetter {β : Type} {P : β → List Token → Stage → Prop} {reading : Except Fault β}
    {sign : Sign} {signText diceText : List Char} {later : List Token}
    (h : BehindSteps (⟨.sign sign, signText⟩ :: later) stage)
    (hrest : KeepsStep .stepLetter rest P reading) :
    KeepsStep stage (⟨.sign sign, signText⟩ :: ⟨.dice, diceText⟩ :: rest) P reading := by
  have hsign : stage.take? ⟨.sign sign, signText⟩ = some .sign := h.take?_eq (by simp)
  have hdice : Stage.sign.take? ⟨.dice, diceText⟩ = some .stepLetter :=
    Stage.take?_of_ne_integer .sign (by simp)
  exact .next hsign (.next hdice hrest)

/-- The induction is on the tokens, two or three of which make a step. -/
theorem readSteps_keepsStep (net : Step) (h : BehindSteps tokens stage) :
    KeepsStep stage tokens (fun result rest stage => result.2 = rest ∧ BehindSteps rest stage ∧
      ∀ sign text text' later, rest ≠ ⟨.sign sign, text⟩ :: ⟨.dice, text'⟩ :: later)
      (readSteps net tokens) := by
  fun_induction readSteps net tokens generalizing stage with
  | case1 net sign signText diceText digits rest hn =>
    have hafter : Stage.stepLetter.after? .integer = some .die := rfl
    exact .behindLetter h (.outOfBounds hafter (Decimal.upTo?_eq_none_iff.1 hn))
  | case2 net sign signText diceText digits rest n hn ih =>
    obtain ⟨rfl, hle⟩ := Decimal.upTo?_eq_some_iff.1 hn
    have hdigits : Stage.stepLetter.take? ⟨.integer, digits⟩ = some .die :=
      take?_integer rfl (admits_integer_iff.2 ⟨Nat.zero_le _, hle⟩)
    exact .behindLetter h (.next hdigits (ih (.inl rfl)))
  | case3 net sign signText diceText rest hnumber ih =>
    exact .behindLetter h (ih (.inr ⟨rfl, hnumber⟩))
  | case4 net rest hlong hshort => exact .here ⟨rfl, h, hshort⟩

/-- Behind a selection that is written; without a number only a sign or the end comes next. -/
def BehindSelected (rest : List Token) (stage : Stage) : Prop :=
  stage = .selected ∨ (stage = .keep ∨ stage = .selector) ∧ EndsSelection rest

/-- Behind the letters of a selection, where a bare `k` does not wait for more of them. -/
theorem readSelected_keepsStep (h : stage = .selector ∨ stage = .keep ∧
      (EndsSelection tokens ∨ ∃ digits later, tokens = ⟨.integer, digits⟩ :: later)) :
    KeepsStep stage tokens (fun result rest stage => result.2 = rest ∧ BehindSelected rest stage)
      (readSelected tokens) := by
  have hstage : stage = .keep ∨ stage = .selector := h.elim .inr fun hkeep => .inl hkeep.1
  unfold readSelected
  split
  · next digits rest =>
    have hnumbers : stage.numbers = (1, Count.greatest) := by
      rcases hstage with rfl | rfl <;> rfl
    have hafter : stage.after? .integer = some .selected := by
      rcases hstage with rfl | rfl <;> rfl
    have hzero : stage.OutOfBounds 0 .nothingSelected := ⟨congrArg Prod.fst hnumbers, rfl⟩
    refine (number_keepsStep hnumbers hafter hzero).mono ?_
    rintro result rest last ⟨hrest, rfl⟩
    exact ⟨hrest, .inl rfl⟩
  · exact .here ⟨rfl, .inr ⟨hstage, trivial⟩⟩
  · next sign text rest => exact .here ⟨rfl, .inr ⟨hstage, sign, text, rfl⟩⟩
  · next hinteger hnil hsign =>
    obtain rfl : stage = .selector := by
      rcases h with h | ⟨-, hends | ⟨digits, later, rfl⟩⟩
      · exact h
      · cases tokens with
        | nil => exact absurd rfl hnil
        | cons token later =>
          obtain ⟨sign, text, rfl⟩ := hends
          exact absurd rfl (hsign sign text later)
      · exact absurd rfl (hinteger digits later)
    refine .unexpected ?_ ?_ ?_ ?_
    · rintro kind text later rfl
      cases kind with
      | integer => exact absurd rfl (hinteger text later)
      | sign sign => exact absurd rfl (hsign sign text later)
      | _ => rfl
    · exact fun he => absurd he hnil
    · decide
    · simp

/-- Behind the selection, if one is written; otherwise nothing that begins one comes next. -/
def BehindSelection (selection : Selection) (rest : List Token) (stage : Stage) : Prop :=
  selection ≠ .keepAll ∧ BehindSelected rest stage ∨
    selection = .keepAll ∧ BehindSteps rest stage ∧
      (∀ sign text text' later, rest ≠ ⟨.sign sign, text⟩ :: ⟨.dice, text'⟩ :: later) ∧
      ∀ text later, rest ≠ ⟨.keep, text⟩ :: later ∧ rest ≠ ⟨.dropLowest, text⟩ :: later

theorem selecting_keepsStep {make : Count → Selection} (hmake : ∀ count, make count ≠ .keepAll)
    (h : stage = .selector ∨ stage = .keep ∧
      (EndsSelection tokens ∨ ∃ digits later, tokens = ⟨.integer, digits⟩ :: later)) :
    KeepsStep stage tokens (fun result rest stage => result.2 = rest ∧
      BehindSelection result.1 rest stage) (selecting make tokens) := by
  have hread := readSelected_keepsStep h
  unfold selecting
  cases hselected : readSelected tokens with
  | error fault =>
    rw [hselected] at hread
    exact hread
  | ok result =>
    rw [hselected] at hread
    obtain ⟨left, rest, last, htokens, hrun, hrest, hbehind⟩ := hread
    exact ⟨left, rest, last, htokens, hrun, hrest, .inl ⟨hmake result.1, hbehind⟩⟩

theorem readSelection_keepsStep (h : BehindSteps tokens stage)
    (hshort : ∀ sign text text' later, tokens ≠ ⟨.sign sign, text⟩ :: ⟨.dice, text'⟩ :: later) :
    KeepsStep stage tokens (fun result rest stage => result.2 = rest ∧
      BehindSelection result.1 rest stage) (readSelection tokens) := by
  have hkeep : ∀ {text later}, tokens = ⟨.keep, text⟩ :: later →
      stage.take? ⟨.keep, text⟩ = some .keep := by
    rintro text later rfl
    exact h.take?_eq (by simp)
  unfold readSelection
  split
  · next text text' rest =>
    have hhighest : Stage.keep.take? ⟨.highest, text'⟩ = some .selector :=
      Stage.take?_of_ne_integer .keep (by simp)
    exact .next (hkeep rfl) (.next hhighest (selecting_keepsStep (by simp) (.inl rfl)))
  · next text text' rest =>
    have hlowest : Stage.keep.take? ⟨.lowest, text'⟩ = some .selector :=
      Stage.take?_of_ne_integer .keep (by simp)
    exact .next (hkeep rfl) (.next hlowest (selecting_keepsStep (by simp) (.inl rfl)))
  · next text =>
    exact .next (hkeep rfl) (selecting_keepsStep (by simp) (.inr ⟨rfl, .inl trivial⟩))
  · next text digits rest =>
    exact .next (hkeep rfl) (selecting_keepsStep (by simp) (.inr ⟨rfl, .inr ⟨digits, rest, rfl⟩⟩))
  · next text sign text' rest =>
    exact .next (hkeep rfl) (selecting_keepsStep (by simp) (.inr ⟨rfl, .inl ⟨sign, text', rfl⟩⟩))
  · next text rest hhighest hlowest hnil hinteger hsign =>
    refine .next (hkeep rfl) (.unexpected ?_ ?_ ?_ ?_)
    · rintro kind text' later rfl
      cases kind with
      | integer => exact absurd rfl (hinteger text' later)
      | sign sign => exact absurd rfl (hsign sign text' later)
      | highest => exact absurd rfl (hhighest text' later)
      | lowest => exact absurd rfl (hlowest text' later)
      | _ => rfl
    · exact fun he => absurd he hnil
    · decide
    · simp
  · next text rest =>
    have hdrop : stage.take? ⟨.dropLowest, text⟩ = some .selector := h.take?_eq (by simp)
    exact .next hdrop (selecting_keepsStep (by simp) (.inl rfl))
  · next hbare hdrop =>
    exact .here ⟨rfl, .inr ⟨rfl, h, hshort, fun text later => ⟨hbare text later, hdrop text later⟩⟩⟩

/-- Behind the modifier, if one is written; otherwise no sign comes next. -/
def BehindModifier (selection : Selection) (modifier? : Option Modifier) (rest : List Token)
    (stage : Stage) : Prop :=
  modifier?.isSome ∧ stage = .modifier ∨
    modifier? = none ∧ BehindSelection selection rest stage ∧
      ∀ sign text later, rest ≠ ⟨.sign sign, text⟩ :: later

theorem greatest_lt_of_modifier_eq_none {sign : Sign}
    (h : (Decimal.upTo? Modifier.greatest digits).bind (Modifier.ofNat? sign) = none) :
    Modifier.greatest < Decimal.value digits := by
  by_cases hle : Decimal.value digits ≤ Modifier.greatest
  · rw [Decimal.upTo?, if_pos hle, Option.bind_some, Modifier.ofNat?, dif_pos hle] at h
    contradiction
  · omega

/-- A sign behind steps or a selection leads to a stage at which the number of a modifier stands. -/
theorem BehindSelection.take?_sign {selection : Selection} {sign : Sign} {text : List Char}
    (h : BehindSelection selection (⟨.sign sign, text⟩ :: rest) stage) :
    ∃ next, stage.take? ⟨.sign sign, text⟩ = some next ∧
      (next = .sign ∧ (∀ text' later, rest ≠ ⟨.dice, text'⟩ :: later) ∨ next = .modifierSign) := by
  rcases h with ⟨-, rfl | ⟨rfl | rfl, -⟩⟩ | ⟨-, hsteps, hshort, -⟩
  · exact ⟨.modifierSign, Stage.take?_of_ne_integer _ (by simp), .inr rfl⟩
  · exact ⟨.modifierSign, Stage.take?_of_ne_integer _ (by simp), .inr rfl⟩
  · exact ⟨.modifierSign, Stage.take?_of_ne_integer _ (by simp), .inr rfl⟩
  · refine ⟨.sign, hsteps.take?_eq (by simp), .inl ⟨rfl, ?_⟩⟩
    rintro text' later rfl
    exact hshort sign text text' later rfl

theorem readModifier_keepsStep {selection : Selection} (h : BehindSelection selection tokens stage) :
    KeepsStep stage tokens (fun result rest stage => result.2 = rest ∧
      BehindModifier selection result.1 rest stage) (readModifier tokens) := by
  unfold readModifier
  split
  · next sign text digits rest =>
    obtain ⟨next, hsign, hnext⟩ := h.take?_sign
    have hnumbers : next.numbers = (0, Modifier.greatest) := by
      rcases hnext with ⟨rfl, -⟩ | rfl <;> rfl
    have hafter : next.after? .integer = some .modifier := by
      rcases hnext with ⟨rfl, -⟩ | rfl <;> rfl
    split
    · next hn =>
      refine .next hsign (.outOfBounds hafter ?_)
      rw [Stage.OutOfBounds, hnumbers]
      exact greatest_lt_of_modifier_eq_none hn
    · next modifier hn =>
      obtain ⟨n, hvalue, -⟩ := Option.bind_eq_some_iff.1 hn
      obtain ⟨rfl, hle⟩ := Decimal.upTo?_eq_some_iff.1 hvalue
      have hadmits : next.Admits ⟨.integer, digits⟩ := by
        rw [admits_integer_iff, hnumbers]
        exact ⟨Nat.zero_le _, hle⟩
      exact .next hsign (.next (take?_integer hafter hadmits) (.here ⟨rfl, .inl ⟨rfl, rfl⟩⟩))
  · next sign text rest hinteger =>
    obtain ⟨next, hsign, hnext⟩ := h.take?_sign
    refine .next hsign (.unexpected ?_ ?_ ?_ ?_)
    · rintro kind text' later rfl
      rcases hnext with ⟨rfl, hdice⟩ | rfl
      · cases kind with
        | integer => exact absurd rfl (hinteger text' later)
        | dice => exact absurd rfl (hdice text' later)
        | _ => rfl
      · cases kind with
        | integer => exact absurd rfl (hinteger text' later)
        | _ => rfl
    · rintro -
      rcases hnext with ⟨rfl, -⟩ | rfl <;> rfl
    · rcases hnext with ⟨rfl, -⟩ | rfl <;> decide
    · simp
  · next hnumber hsign => exact .here ⟨rfl, .inr ⟨rfl, h, hsign⟩⟩

section BehindModifier

variable {selection : Selection} {modifier? : Option Modifier}

theorem BehindModifier.isComplete (h : BehindModifier selection modifier? rest stage) :
    stage.isComplete = true := by
  rcases h with ⟨-, rfl⟩ | ⟨-, hselection, -⟩
  · rfl
  · rcases hselection with ⟨-, rfl | ⟨rfl | rfl, -⟩⟩ | ⟨-, rfl | ⟨rfl, -⟩, -⟩ <;> rfl

theorem BehindModifier.after?_eq_none {kind : TokenKind} {text : List Char}
    (h : BehindModifier selection modifier? (⟨kind, text⟩ :: rest) stage) :
    stage.after? kind = none := by
  rcases h with ⟨-, rfl⟩ | ⟨-, hselection, hsign⟩
  · rfl
  · rcases hselection with ⟨-, rfl | ⟨-, sign, text', he⟩⟩ | ⟨-, hsteps, -, hselector⟩
    · cases kind with
      | sign sign => exact absurd rfl (hsign sign text rest)
      | _ => rfl
    · exact absurd (congrArg (· :: rest) he) (hsign sign text' rest)
    · have hdie : Stage.die.after? kind = none := by
        cases kind with
        | sign sign => exact absurd rfl (hsign sign text rest)
        | keep => exact absurd rfl (hselector text rest).1
        | dropLowest => exact absurd rfl (hselector text rest).2
        | _ => rfl
      rcases hsteps with rfl | ⟨rfl, hnumber⟩
      · exact hdie
      · cases kind with
        | integer => exact absurd rfl (hnumber text rest)
        | _ => exact hdie

theorem BehindModifier.offers (h : BehindModifier selection modifier? rest stage) :
    ∀ kind ∈ continuations selection modifier?, (stage.after? kind).isSome = true := by
  rcases h with ⟨hsome, -⟩ | ⟨rfl, hselection, -⟩
  · simp [continuations, hsome]
  · rcases hselection with ⟨hne, rfl | ⟨rfl | rfl, -⟩⟩ | ⟨rfl, rfl | ⟨rfl, -⟩, -⟩
    · simp [continuations, hne, Stage.after?]
    · simp [continuations, hne, Stage.after?]
    · simp [continuations, hne, Stage.after?]
    · decide
    · decide

end BehindModifier

/-- The whole parser keeps step with the stages. -/
theorem ofTokens_keepsStep (tokens : List Token) :
    KeepsStep .start tokens (fun _ rest stage => rest = [] ∧ stage.isComplete = true)
      (ofTokens tokens) := by
  unfold ofTokens
  refine (readCount_keepsStep tokens).bind ?_
  rintro ⟨count, _⟩ rest stage ⟨rfl, hcount⟩
  refine (readLetter_keepsStep hcount).bind ?_
  rintro _ rest stage ⟨rfl, rfl⟩
  refine (readDie_keepsStep _).bind ?_
  rintro ⟨die, _⟩ rest stage ⟨rfl, rfl⟩
  refine (readSteps_keepsStep Step.zero (.inl rfl)).bind ?_
  rintro ⟨step, _⟩ rest stage ⟨rfl, hsteps, hshort⟩
  refine (readSelection_keepsStep hsteps hshort).bind ?_
  rintro ⟨selection, _⟩ rest stage ⟨rfl, hselection⟩
  refine (readModifier_keepsStep hselection).bind ?_
  rintro ⟨modifier, rest⟩ _ stage ⟨rfl, hmodifier⟩
  dsimp only
  split
  · next hempty => exact .here ⟨List.isEmpty_iff.1 hempty, hmodifier.isComplete⟩
  · next hmore =>
    refine .unexpected ?_ ?_ hmodifier.offers ?_
    · rintro kind text later rfl
      exact hmodifier.after?_eq_none
    · exact fun he => absurd (List.isEmpty_iff.2 he) hmore
    · exact fun _ => hmodifier.isComplete

/-- Tokens make an expression exactly when they lead to a stage at which one may end. -/
theorem ofTokens_eq_ok_iff_run? (tokens : List Token) : (∃ e, ofTokens tokens = .ok e) ↔
    ∃ last, Stage.start.run? tokens = some last ∧ last.isComplete = true := by
  have hstep := ofTokens_keepsStep tokens
  cases hread : ofTokens tokens with
  | ok e =>
    rw [hread] at hstep
    obtain ⟨left, rest, last, rfl, hrun, rfl, hcomplete⟩ := hstep
    rw [List.append_nil]
    exact ⟨fun _ => ⟨last, hrun, hcomplete⟩, fun _ => ⟨e, rfl⟩⟩
  | error fault =>
    rw [hread] at hstep
    obtain ⟨left, stage, rfl, hrun, hrefuses⟩ := hstep
    simp only [reduceCtorEq, exists_false, false_iff]
    rintro ⟨last, hlast, hcomplete⟩
    rw [Stage.run?_append, hrun] at hlast
    cases hrest : fault.rest with
    | nil =>
      rw [hrest] at hlast
      obtain rfl := Option.some.inj hlast
      rw [hrefuses.unfinished hrest] at hcomplete
      contradiction
    | cons token later =>
      have hstops := hrefuses.stops token (by rw [hrest]; rfl)
      rw [hrest, Option.bind_some, Stage.run?_cons, hstops] at hlast
      contradiction

/-- At a fault the tokens before it lead to a stage, which stops there. -/
theorem exists_refuses_of_ofTokens_eq_error {tokens : List Token} {fault : Fault}
    (h : ofTokens tokens = .error fault) : ∃ left stage, tokens = left ++ fault.rest ∧
      Stage.start.run? left = some stage ∧ stage.Refuses fault := by
  have hstep := ofTokens_keepsStep tokens
  rwa [h] at hstep

end Readers

end Tabletop.Expression
