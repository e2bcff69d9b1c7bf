import Tabletop.Expression.Parser
import Tabletop.Proofs.Lexing

/-!
# The stages of an expression

How far an expression has come is told by one of eleven stages. A stage says which kinds of token
may come next, and which numbers digits may stand for there. Tokens begin an expression when they
lead from stage to stage, and from every stage there is a way to the end. Nothing is said here
about the parser.
-/
namespace Tabletop

theorem Fault.rest_unexpected (expected : List TokenKind) (rest : List Token) :
    (unexpected expected rest).rest = rest := by
  unfold unexpected
  split <;> rfl

/-- The kind of token that is blamed; none where the end of the text is. -/
def ExpressionError.Cause.blamed? : ExpressionError.Cause → Option TokenKind
  | ended _ => none
  | misplaced found _ => some found
  | meaningless _ => some .unknown
  | numberTooLarge | noDice | tooFewFaces | nothingSelected => some .integer

namespace Expression

/-- What was read last. -/
inductive Stage where
  /-- Nothing yet. -/
  | start
  | count
  | letter
  /-- The kind of die, or a step with its length. -/
  | die
  /-- A sign before a step or a modifier. -/
  | sign
  /-- The `d` of a step. -/
  | stepLetter
  /-- The `k` of a selection. -/
  | keep
  /-- All letters of a selection. -/
  | selector
  /-- A selection with its number. -/
  | selected
  /-- A sign that only a modifier can follow. -/
  | modifierSign
  | modifier
  deriving DecidableEq

namespace Stage

/-- The stage after a token of the kind, where such a token may come next. -/
def after? : Stage → TokenKind → Option Stage
  | start, .integer => some count
  | start, .dice | count, .dice => some letter
  | letter, .integer | letter, .percent | stepLetter, .integer => some die
  | die, .sign _ | stepLetter, .sign _ => some sign
  | die, .keep | stepLetter, .keep => some keep
  | die, .dropLowest | stepLetter, .dropLowest => some selector
  | sign, .dice => some stepLetter
  | sign, .integer | modifierSign, .integer => some modifier
  | keep, .highest | keep, .lowest => some selector
  | keep, .integer | selector, .integer => some selected
  | keep, .sign _ | selector, .sign _ | selected, .sign _ => some modifierSign
  | _, _ => none

/-- The least and the greatest number that digits may stand for. -/
def numbers : Stage → Nat × Nat
  | start | keep | selector => (1, Count.greatest)
  | letter => (2, Faces.greatest)
  | stepLetter => (0, greatestStep)
  | _ => (0, Modifier.greatest)

/-- The token is not a number out of bounds. -/
def Admits (stage : Stage) (token : Token) : Prop :=
  token.kind = .integer →
    stage.numbers.1 ≤ Decimal.value token.text ∧ Decimal.value token.text ≤ stage.numbers.2

instance (stage : Stage) (token : Token) : Decidable (stage.Admits token) :=
  inferInstanceAs (Decidable (_ → _))

/-- The stage after the token, if it may come next. -/
def take? (stage : Stage) (token : Token) : Option Stage :=
  if stage.Admits token then stage.after? token.kind else none

/-- The stage after the tokens, if they lead to one. -/
def run? (stage : Stage) (tokens : List Token) : Option Stage :=
  tokens.foldlM take? stage

/-- An expression may end here. -/
def isComplete : Stage → Bool
  | die | stepLetter | keep | selector | selected | modifier => true
  | _ => false

theorem run?_cons (stage : Stage) (token : Token) (tokens : List Token) :
    stage.run? (token :: tokens) = (stage.take? token).bind fun next => next.run? tokens := by
  simp [run?]

theorem run?_append (stage : Stage) (left right : List Token) :
    stage.run? (left ++ right) = (stage.run? left).bind fun next => next.run? right := by
  simp [run?, List.foldlM_append]

/-- A token that is no number leads on by its kind alone. -/
theorem take?_of_ne_integer (stage : Stage) {token : Token} (h : token.kind ≠ .integer) :
    stage.take? token = stage.after? token.kind :=
  if_pos fun hinteger => absurd hinteger h

/-- Tokens that lead to a stage are of kinds that mean something. -/
theorem kind_ne_unknown_of_run? {tokens : List Token} {stage last : Stage}
    (h : stage.run? tokens = some last) : ∀ token ∈ tokens, token.kind ≠ .unknown := by
  induction tokens generalizing stage with
  | nil => simp
  | cons token tokens ih =>
    rw [run?_cons] at h
    obtain ⟨next, hnext, hrest⟩ := Option.bind_eq_some_iff.1 h
    refine List.forall_mem_cons.2 ⟨?_, ih hrest⟩
    intro hunknown
    rw [take?_of_ne_integer stage (by simp [hunknown]), hunknown] at hnext
    cases stage <;> contradiction

/-! ## Going on to the end -/

/-- A token of the kind; digits stand for a number that may stand anywhere. -/
def sample (kind : TokenKind) : Token :=
  ⟨kind, kind.spelling?.getD ['2']⟩

theorem fits_sample {kind : TokenKind} (h : kind ≠ .unknown) : (sample kind).Fits := by
  cases kind with
  | unknown => exact absurd rfl h
  | integer => exact .digits (List.cons_ne_nil '2' []) (List.forall_mem_singleton.2 rfl)
  | _ => exact .symbol rfl

theorem take?_sample {stage next : Stage} {kind : TokenKind} (h : stage.after? kind = some next) :
    stage.take? (sample kind) = some next := by
  by_cases hinteger : kind = .integer
  · subst hinteger
    cases stage <;> first | contradiction | exact h
  · exact (stage.take?_of_ne_integer hinteger).trans h

/-- The kinds of the tokens with which an expression can end from here. -/
def ending : Stage → List TokenKind
  | start | count => [.dice, .percent]
  | letter => [.percent]
  | sign | modifierSign => [.integer]
  | _ => []

theorem run?_ending (stage : Stage) :
    ∃ last, stage.run? (stage.ending.map sample) = some last ∧ last.isComplete = true := by
  cases stage with
  | start | count | letter => exact ⟨.die, rfl, rfl⟩
  | sign | modifierSign => exact ⟨.modifier, rfl, rfl⟩
  | _ => exact ⟨_, rfl, rfl⟩

theorem fits_ending (stage : Stage) : ∀ token ∈ stage.ending.map sample, token.Fits := by
  intro token htoken
  obtain ⟨kind, hkind, rfl⟩ := List.mem_map.1 htoken
  refine fits_sample ?_
  rintro rfl
  cases stage <;> simp [ending] at hkind

/-! ## Where reading stops -/

/-- The cause is what is wrong with such a number where the stage takes one. -/
def OutOfBounds (stage : Stage) (n : Nat) : ExpressionError.Cause → Prop
  | .numberTooLarge => stage.numbers.2 < n
  | .noDice | .nothingSelected => stage.numbers.1 = 1 ∧ n = 0
  | .tooFewFaces => stage.numbers.1 = 2 ∧ n ≤ 1
  | .ended _ | .misplaced _ _ | .meaningless _ => False

/-- The stage stops at the fault. What is expected instead could come next; where nothing is, the
expression could end. Nothing else is expected where a number could come next but for its bounds. -/
structure Refuses (stage : Stage) (fault : Fault) : Prop where
  blames : fault.cause.blamed? = fault.rest.head?.map Token.kind
  known : ∀ expected, fault.cause ≠ .misplaced .unknown expected
  stops : ∀ token ∈ fault.rest.head?, stage.take? token = none
  unfinished : fault.rest = [] → stage.isComplete = false
  offers : ∀ expected ∈ fault.cause.expected?, ∀ kind ∈ expected, (stage.after? kind).isSome = true
  finished : fault.cause.expected? = some [] → stage.isComplete = true
  number : fault.cause.expected? = none → (stage.after? .integer).isSome = true ∧
    ∀ token ∈ fault.rest.head?, stage.OutOfBounds (Decimal.value token.text) fault.cause

theorem refuses_unexpected {stage : Stage} {expected : List TokenKind} {rest : List Token}
    (stops : ∀ kind text later, rest = ⟨kind, text⟩ :: later → stage.after? kind = none)
    (unfinished : rest = [] → stage.isComplete = false)
    (offers : ∀ kind ∈ expected, (stage.after? kind).isSome = true)
    (finished : expected = [] → stage.isComplete = true) :
    stage.Refuses (.unexpected expected rest) := by
  have hrest := Fault.rest_unexpected expected rest
  have hcause : (Fault.unexpected expected rest).cause.expected? = some expected := by
    unfold Fault.unexpected
    split <;> rfl
  refine ⟨?_, ?_, ?_, ?_, ?_, ?_, ?_⟩
  · unfold Fault.unexpected
    split <;> rfl
  · unfold Fault.unexpected
    split <;> simp_all
  · rw [hrest]
    intro token htoken
    obtain ⟨later, hlater⟩ := List.head?_eq_some_iff.1 htoken
    unfold take?
    rw [stops token.kind token.text later hlater, ite_self]
  · rwa [hrest]
  · rw [hcause]
    intro kinds hkinds
    obtain rfl := Option.some.inj hkinds
    exact offers
  · rw [hcause]
    intro hkinds
    exact finished (Option.some.inj hkinds)
  · rw [hcause]
    simp

theorem OutOfBounds.not_admits {stage : Stage} {digits : List Char} {cause : ExpressionError.Cause}
    (h : stage.OutOfBounds (Decimal.value digits) cause) : ¬ stage.Admits ⟨.integer, digits⟩ := by
  intro hadmits
  obtain ⟨hleast, hgreatest⟩ : stage.numbers.1 ≤ Decimal.value digits ∧
    Decimal.value digits ≤ stage.numbers.2 := hadmits rfl
  cases cause with
  | numberTooLarge => exact Nat.not_le_of_lt h hgreatest
  | noDice | nothingSelected | tooFewFaces =>
    obtain ⟨hbound, hvalue⟩ := h
    omega
  | ended | misplaced | meaningless => exact h

theorem refuses_number {stage next : Stage} {cause : ExpressionError.Cause} {digits : List Char}
    {rest : List Token} (hafter : stage.after? .integer = some next)
    (h : stage.OutOfBounds (Decimal.value digits) cause) :
    stage.Refuses ⟨cause, ⟨.integer, digits⟩ :: rest⟩ := by
  have hcause : cause.blamed? = some .integer ∧ cause.expected? = none := by
    cases cause with
    | numberTooLarge | noDice | nothingSelected | tooFewFaces => exact ⟨rfl, rfl⟩
    | ended | misplaced | meaningless => exact h.elim
  refine ⟨hcause.1, ?_, ?_, by simp, by simp [hcause.2], by simp [hcause.2], fun _ => ⟨?_, ?_⟩⟩
  · rintro expected rfl
    exact h
  · intro token htoken
    obtain rfl := Option.some.inj htoken
    exact if_neg h.not_admits
  · rw [hafter, Option.isSome_some]
  · intro token htoken
    obtain rfl := Option.some.inj htoken
    exact h

end Stage

end Expression

end Tabletop
