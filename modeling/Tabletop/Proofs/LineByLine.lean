import Mathlib.Data.List.Basic
import Tabletop.DiceSource.Replay
import Tabletop.Proofs.SameShape
import Tabletop.Proofs.Variables

/-!
# The console line by line

What the console writes is put together from what its lines come to one by one, each on a session
of its own. Only the source is carried from line to line, and it decides neither whether a line
succeeds nor what is wrong with it.
-/
namespace Tabletop

theorem ResultsAlike.map_unit_eq {ε β γ : Type} {alike : β → γ → Prop} {first : Except ε β}
    {second : Except ε γ} (h : ResultsAlike alike first second) :
    first.map (fun _ => ()) = second.map fun _ => () := by
  cases h with
  | error e => rfl
  | ok h => rfl

namespace Session

variable {σ : Type}

/-- A reset keeps nothing of what was done before but the state of the source. -/
theorem reset_eq_start {session : Session σ} {limit : Option Nat}
    (h : session.budget.limit = limit) : session.reset = start limit session.source := by
  subst h
  rfl

variable [DiceSource σ]

theorem limit_throwDice (session : Session σ) (dice : Count) (die : Die) :
    (session.throwDice dice die).2.budget.limit = session.budget.limit := by
  cases hcharge : session.budget.charge dice with
  | error e => rw [throwDice_of_charge_error hcharge]
  | ok budget =>
    rw [throwDice_of_charge_ok hcharge, ((session.budget.charge_eq_ok_iff dice budget).1 hcharge).2]

theorem limit_rollLine (session : Session σ) (line : List Char) :
    (session.rollLine line).2.budget.limit = session.budget.limit :=
  rollAll_keeps (P := fun after => after.budget.limit = session.budget.limit)
    (fun after dice die h => (after.limit_throwDice dice die).trans h) rfl (Line.pieces line)

/-- Whether a line succeeds and what is wrong with it is settled by the budget. -/
theorem rollLine_alike {τ : Type} [DiceSource τ] (limit : Option Nat) (source : σ) (other : τ)
    (line : List Char) :
    ResultsAlike (List.Forall₂ (Roll.Alike Hand.SameShape)) ((start limit source).rollLine line).1
      ((start limit other).rollLine line).1 := by
  have hmatch : (Matching.shapes σ τ).sessions (start limit source) (start limit other) := rfl
  exact ((Matching.shapes σ τ).rollAll hmatch (Line.pieces line) trivial).1

end Session

namespace Console

/-! ## Lines of an input -/

/-- The line without the carriage return at its end, if there is one. -/
def withoutReturn (line : List Char) : List Char :=
  if line.getLast? = some '\r' then line.dropLast else line

theorem withoutReturn_cons {c : Char} {line : List Char} (h : c ≠ '\r' ∨ line ≠ []) :
    withoutReturn (c :: line) = c :: withoutReturn line := by
  cases line with
  | nil =>
    have hc : c ≠ '\r' := h.resolve_right fun hne => hne rfl
    simp [withoutReturn, hc]
  | cons d line =>
    unfold withoutReturn
    rw [List.getLast?_cons_cons, List.dropLast_cons_cons]
    split <;> rfl

/-- What stands before the first line feed is a line, whatever follows. -/
theorem lines_append {text : List Char} (h : '\n' ∉ text) (rest : List Char) :
    lines (text ++ '\n' :: rest) = withoutReturn text :: lines rest := by
  induction text with
  | nil => rfl
  | cons c text ih =>
    rw [List.mem_cons, not_or] at h
    obtain ⟨hc, htext⟩ := h
    by_cases hreturn : c = '\r' ∧ text = []
    · obtain ⟨rfl, rfl⟩ := hreturn
      rfl
    · have hnoFeed : ∀ input, c = '\r' → text ++ '\n' :: rest = '\n' :: input → False := by
        intro input hc' hinput
        cases text with
        | nil => exact hreturn ⟨hc', rfl⟩
        | cons d text => exact htext ((List.cons.inj hinput).1 ▸ List.mem_cons_self)
      have hcons : withoutReturn (c :: text) = c :: withoutReturn text :=
        withoutReturn_cons (not_and_or.1 hreturn)
      rw [List.cons_append, lines.eq_4 c _ (fun heq => hc heq.symm) hnoFeed, ih htext, hcons]

theorem lines_of_not_mem {text : List Char} (h : '\n' ∉ text) :
    lines text = if text = [] then [] else [text] := by
  induction text with
  | nil => rfl
  | cons c text ih =>
    rw [List.mem_cons, not_or] at h
    obtain ⟨hc, htext⟩ := h
    have hnoFeed : ∀ input, c = '\r' → text = '\n' :: input → False := by
      intro input _ hinput
      exact htext (hinput ▸ List.mem_cons_self)
    rw [lines.eq_4 c text (fun heq => hc heq.symm) hnoFeed, ih htext]
    by_cases hempty : text = []
    · simp [hempty]
    · simp [hempty]

/-- The lines are what stands before the line feeds, and what is left behind the last of them unless
nothing is. -/
theorem exists_splitOn_eq (input : List Char) : ∃ ended last,
    input.splitOn '\n' = ended ++ [last] ∧
      lines input = ended.map withoutReturn ++ if last = [] then [] else [last] := by
  induction hlength : input.length using Nat.strong_induction_on generalizing input with
  | _ length ih =>
    by_cases hfeed : '\n' ∈ input
    · obtain ⟨text, rest, rfl, htext⟩ := List.eq_append_cons_of_mem hfeed
      have hshorter : rest.length < length := by
        rw [← hlength, List.length_append, List.length_cons]
        omega
      obtain ⟨ended, last, hsplit, hlines⟩ := ih rest.length hshorter rest rfl
      refine ⟨text :: ended, last, ?_, ?_⟩
      · have hnone : ∀ c ∈ text, (c == '\n') = false := by
          intro c hc
          exact beq_false_of_ne fun heq => htext (heq ▸ hc)
        rw [List.splitOn, List.splitOnP_append_cons_of_forall_mem hnone '\n' rfl,
          ← List.splitOn, hsplit]
        rfl
      · rw [lines_append htext, hlines]
        rfl
    · refine ⟨[], input, ?_, lines_of_not_mem hfeed⟩
      rw [List.splitOn]
      refine List.splitOnP_eq_singleton ?_
      intro c hc
      exact beq_false_of_ne fun heq => hfeed (heq ▸ hc)

/-- A carriage return that ends the input stays. -/
example : lines "2d6\r\n\n,\r".toList = ["2d6".toList, [], ",\r".toList] := by decide

/-! ## Lines on their own -/

section Alone

variable {σ : Type} [DiceSource σ] (settings : Settings) (source : σ)

/-- What a line comes to on a fresh session, with the source in this state. -/
def rollAlone (line : List Char) : Except Failure (List Roll) × Session σ :=
  (Session.start settings.limit source).rollLine line

/-- The state in which a line leaves the source. -/
def sourceAfter (line : List Char) : σ :=
  if Text.allBlank line then source else (rollAlone settings source line).2.source

/-- What is shown for a line: its rolls, if it is not blank and succeeds. -/
def shown (line : List Char) : String :=
  if Text.allBlank line then ""
  else
    match (rollAlone settings source line).1 with
    | .ok rolls => String.ofList (settings.style.rollsText rolls) ++ "\n"
    | .error _ => ""

/-- What is complained of a line: why it fails, if it is not blank and does. -/
def complained (line : List Char) : String :=
  if Text.allBlank line then ""
  else
    match (rollAlone settings source line).1 with
    | .ok _ => ""
    | .error failure => "Error: " ++ failure.message ++ "\n"

/-- The reply to a line on a fresh session. -/
def replyAlone (line : List Char) : Reply :=
  if Text.allBlank line then .nothing
  else
    match (rollAlone settings source line).1 with
    | .ok rolls => .rolled (settings.style.rollsText rolls)
    | .error failure => .failed failure

/-- The lines in turn, each with the state in which those before it leave the source. -/
def turns (lines : List (List Char)) : List (σ × List Char) :=
  (lines.scanl (sourceAfter settings) source).zip lines

theorem output_replyAlone (line : List Char) :
    (replyAlone settings source line).output = shown settings source line := by
  unfold replyAlone shown
  split
  · rfl
  · cases (rollAlone settings source line).1 <;> rfl

theorem complaint_replyAlone (line : List Char) :
    (replyAlone settings source line).complaint = complained settings source line := by
  unfold replyAlone complained
  split
  · rfl
  · cases (rollAlone settings source line).1 <;> rfl

theorem turns_cons (line : List Char) (lines : List (List Char)) :
    turns settings source (line :: lines) =
      (source, line) :: turns settings (sourceAfter settings source line) lines := by
  rw [turns, List.scanl_cons, List.zip_cons_cons]
  rfl

/-- Under the limit that is set, a line is answered as on a fresh session, and leaves the source as
it would there. -/
theorem answer_eq {session : Session σ} (h : session.budget.limit = settings.limit)
    (line : List Char) :
    (answer settings session line).1 = replyAlone settings session.source line ∧
      (answer settings session line).2.source = sourceAfter settings session.source line ∧
      (answer settings session line).2.budget.limit = settings.limit := by
  unfold answer replyAlone sourceAfter
  rw [Session.reset_eq_start h]
  by_cases hblank : Text.allBlank line = true
  · rw [if_pos hblank, if_pos hblank, if_pos hblank]
    exact ⟨rfl, rfl, h⟩
  · rw [if_neg hblank, if_neg hblank, if_neg hblank]
    have hlimit := (Session.start settings.limit session.source).limit_rollLine line
    unfold rollAlone
    cases hroll : (Session.start settings.limit session.source).rollLine line with
    | mk result after =>
      rw [hroll] at hlimit
      cases result with
      | ok rolls => exact ⟨rfl, rfl, hlimit⟩
      | error failure => exact ⟨rfl, rfl, hlimit⟩

theorem answers_eq {session : Session σ} (h : session.budget.limit = settings.limit)
    (lines : List (List Char)) : answers settings session lines =
      (turns settings session.source lines).map fun turn => replyAlone settings turn.1 turn.2 := by
  induction lines generalizing session with
  | nil => rfl
  | cons line lines ih =>
    obtain ⟨hreply, hsource, hlimit⟩ := answer_eq settings h line
    rw [answers, turns_cons, List.map_cons, ← hsource, ← ih hlimit, ← hreply]

theorem getElem?_answers (before after : List (List Char)) (line : List Char) :
    (answers settings (Session.start settings.limit source) (before ++ line :: after))[before.length]? =
      some (replyAlone settings (before.foldl (sourceAfter settings) source) line) := by
  rw [answers_eq settings rfl, List.getElem?_map]
  show (turns settings source (before ++ line :: after))[before.length]?.map _ = _
  induction before generalizing source with
  | nil => rw [List.nil_append, turns_cons]; rfl
  | cons first before ih =>
    rw [List.cons_append, turns_cons, List.length_cons, List.getElem?_cons_succ, ih]
    rfl

end Alone

/-- Whether a line is replied to, and if so, whether it succeeds or how it fails. -/
def Reply.fate : Reply → Option (Except Failure Unit)
  | nothing => none
  | rolled _ => some (.ok ())
  | failed failure => some (.error failure)

variable {σ τ : Type} [DiceSource σ] [DiceSource τ]

theorem fate_replyAlone_eq (settings : Settings) (source : σ) (line : List Char) :
    (replyAlone settings source line).fate =
      if Text.allBlank line then none
      else some ((rollAlone settings source line).1.map fun _ => ()) := by
  unfold replyAlone
  split
  · rfl
  · cases (rollAlone settings source line).1 <;> rfl

/-- The source has no part in the fate of a line. -/
theorem fate_replyAlone (settings : Settings) (source : σ) (other : τ) (line : List Char) :
    (replyAlone settings source line).fate = (replyAlone settings other line).fate := by
  have halike : (rollAlone settings source line).1.map (fun _ => ()) =
      (rollAlone settings other line).1.map fun _ => () :=
    (Session.rollLine_alike settings.limit source other line).map_unit_eq
  rw [fate_replyAlone_eq, fate_replyAlone_eq, halike]

/-- Neither the lines before it, nor those behind it, nor the source have a part in the fate of a
line. -/
theorem fate_answers (settings : Settings) (source : σ) (other : τ)
    (before before' after after' : List (List Char)) (line : List Char) :
    (answers settings (Session.start settings.limit source)
        (before ++ line :: after))[before.length]?.map Reply.fate =
      (answers settings (Session.start settings.limit other)
        (before' ++ line :: after'))[before'.length]?.map Reply.fate := by
  rw [getElem?_answers, getElem?_answers, Option.map_some, Option.map_some]
  exact congrArg some (fate_replyAlone settings _ _ line)

/-- The transcript of these lines, each of which is rolled on a fresh session with the source as the
lines before it leave it. -/
structure LineByLine (settings : Settings) (source : σ) (lines : List (List Char))
    (transcript : Transcript) : Prop where
  output : transcript.output = "> " ++ String.join
    ((turns settings source lines).map fun turn => shown settings turn.1 turn.2 ++ "> ")
  complaints : transcript.complaints = String.join
    ((turns settings source lines).map fun turn => complained settings turn.1 turn.2)
  exitCode : transcript.exitCode = 0

theorem lineByLine_transcript (settings : Settings) (source : σ) (input : List Char) :
    LineByLine settings source (lines input) (transcript settings source input) := by
  have hanswers : answers settings (Session.start settings.limit source) (lines input) =
      (turns settings source (lines input)).map fun turn => replyAlone settings turn.1 turn.2 :=
    answers_eq settings rfl (lines input)
  refine ⟨?_, ?_, rfl⟩
  · simp only [transcript, hanswers, List.map_map, Function.comp_def, output_replyAlone, prompt]
  · simp only [transcript, hanswers, List.map_map, Function.comp_def, complaint_replyAlone]

/-- The variables `DICE_MAX_ROLLS` and `DICE_FORMAT` settle the limit and the style, and `RUST_LOG`
is not set, so that nothing is logged among the complaints. Whatever the two variables hold, a run
writes a prompt before each line and at the end, and in between what each line shows; all that the
lines are complained of, in order; and ends well. A line comes to what it comes to on a fresh session
under the limit, with the source as the lines before it leave it, and whether it succeeds and how it
fails does not hang on what else the input holds. -/
theorem transcript_line_by_line (lookup : String → Option String) (source : σ) (other : τ)
    (input : List Char) :
    (∀ settings : Settings, settings.SetBy lookup ↔ settings = Settings.ofVariables lookup) ∧
    (∃ ended last, input.splitOn '\n' = ended ++ [last] ∧
      lines input = ended.map withoutReturn ++ if last = [] then [] else [last]) ∧
    LineByLine (Settings.ofVariables lookup) source (lines input)
      (transcript (Settings.ofVariables lookup) source input) ∧
    ∀ (before before' after after' : List (List Char)) (line : List Char),
      (answers (Settings.ofVariables lookup)
          (Session.start (Settings.ofVariables lookup).limit source)
          (before ++ line :: after))[before.length]?.map Reply.fate =
        (answers (Settings.ofVariables lookup)
          (Session.start (Settings.ofVariables lookup).limit other)
          (before' ++ line :: after'))[before'.length]?.map Reply.fate :=
  ⟨Settings.setBy_iff lookup, exists_splitOn_eq input, lineByLine_transcript _ source input,
    fate_answers _ source other⟩

/-- Five dice a line, shown with marks. -/
def fiveMarked (name : String) : Option String :=
  if name = "DICE_MAX_ROLLS" then some " +5"
  else if name = "DICE_FORMAT" then some "MD "
  else none

/-- Six dice are too many for one line, and nothing is said against five on a later one. -/
theorem transcript_line_by_line_under_five : ∃ settings : Settings,
    settings = ⟨some 5, .markdown⟩ ∧ settings.SetBy fiveMarked ∧
    lines "6d6\n\n5d8-d".toList = ["6d6".toList, [], "5d8-d".toList] ∧
    (transcript settings (Replay.mk #[3, 1, 7] (by decide) 0) "6d6\n\n5d8-d".toList).complaints =
      "Error: too many dice rolled: 6 would exceed the limit of 5\n" ∧
    LineByLine settings (Replay.mk #[3, 1, 7] (by decide) 0) (lines "6d6\n\n5d8-d".toList)
      (transcript settings (Replay.mk #[3, 1, 7] (by decide) 0) "6d6\n\n5d8-d".toList) := by
  obtain ⟨hset, -, hlines, -⟩ := transcript_line_by_line fiveMarked
    (Replay.mk #[3, 1, 7] (by decide) 0) (Replay.mk #[1] (by decide) 0) "6d6\n\n5d8-d".toList
  have hvariables : Settings.ofVariables fiveMarked = ⟨some 5, .markdown⟩ := by
    decide +kernel
  rw [hvariables] at hset hlines
  exact ⟨_, rfl, (hset _).2 rfl, by decide, by decide +kernel, hlines⟩

end Console

end Tabletop
