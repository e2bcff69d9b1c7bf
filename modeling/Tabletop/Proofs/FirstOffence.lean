import Mathlib.Data.List.DropRight
import Mathlib.Data.List.Infix
import Tabletop.Proofs.InStep

/-!
# The first token that is to blame

An error in an expression points at the first token with which no expression goes on: what stands
before it can be completed, and no accepted text begins with it and that token. Each kind of token
that the error expects instead can be used there. At the end of the text the error says that the
text is no expression yet.
-/
namespace Tabletop

namespace Text

/-- What stands in the text before a byte. -/
def before (position : Nat) : List Char → List Char
  | [] => []
  | c :: text => if position = 0 then [] else c :: before (position - c.utf8Size) text

theorem before_width (left right : List Char) : before (width left) (left ++ right) = left := by
  induction left with
  | nil => cases right <;> rfl
  | cons c left ih =>
    have hpos := c.utf8Size_pos
    have hne : ¬ width (c :: left) = 0 := by
      rw [width_cons]
      omega
    rw [List.cons_append, before, if_neg hne, width_cons, Nat.add_sub_cancel_left, ih]

/-- Trimming leaves no blank at the front, as what it takes from the end is taken after. -/
theorem dropWhile_trim (text : List Char) : (trim text).dropWhile isBlank = trim text := by
  have hfront : trim text <+: text.dropWhile isBlank := List.rdropWhile_prefix isBlank _
  have hhead := List.dropWhile_eq_self_iff.1 (List.dropWhile_idempotent isBlank text)
  refine List.dropWhile_eq_self_iff.2 ?_
  intro hpos
  rw [hfront.getElem hpos]
  exact hhead _

theorem trim_trim (text : List Char) : trim (trim text) = trim text := by
  have hend : trimEnd (trim text) = trim text := List.rdropWhile_idempotent isBlank _
  rw [trim, dropWhile_trim, hend]

end Text

namespace Expression

theorem parse_trim (text : List Char) : parse (Text.trim text) = parse text := by
  unfold parse
  rw [Text.trim_trim]

/-- The tokens that the parser reads of a text. -/
def tokensOf (text : List Char) : List Token :=
  Token.lex (Text.trim text)

def Accepted (text : List Char) : Prop :=
  ∃ e, parse text = .ok e

theorem accepted_iff (text : List Char) : Accepted text ↔
    ∃ last, Stage.start.run? (tokensOf text) = some last ∧ last.isComplete = true := by
  rw [← ofTokens_eq_ok_iff_run?]
  exact exists_congr fun e => parse_eq_ok_iff

/-- Fitting tokens that lead to a stage at which an expression may end are the tokens of an accepted
text. -/
theorem accepted_texts {tokens : List Token} {last : Stage} (fits : ∀ token ∈ tokens, token.Fits)
    (hrun : Stage.start.run? tokens = some last) (hcomplete : last.isComplete = true) :
    Accepted (Token.texts tokens) ∧ tokensOf (Token.texts tokens) = tokens := by
  obtain ⟨e, he⟩ := (ofTokens_eq_ok_iff_run? tokens).2 ⟨last, hrun, hcomplete⟩
  obtain ⟨form, rfl, hdenotes⟩ := ofTokens_sound fits he
  have htokens : tokensOf form.text = form.tokens := by
    rw [tokensOf, form.trim_text, form.lex_text]
  rw [form.texts_tokens]
  exact ⟨⟨e, parse_eq_ok_of_denotes form.trim_text.symm hdenotes⟩, htokens⟩

/-- Fitting tokens that lead to a stage can be completed. -/
theorem accepted_completed {left : List Token} {stage : Stage} (fits : ∀ token ∈ left, token.Fits)
    (hrun : Stage.start.run? left = some stage) :
    ∃ rest, Accepted (Token.texts left ++ rest) ∧ left <+: tokensOf (Token.texts left ++ rest) := by
  obtain ⟨last, hending, hcomplete⟩ := stage.run?_ending
  have hall : ∀ token ∈ left ++ stage.ending.map Stage.sample, token.Fits :=
    List.forall_mem_append.2 ⟨fits, stage.fits_ending⟩
  have hlast : Stage.start.run? (left ++ stage.ending.map Stage.sample) = some last := by
    rw [Stage.run?_append, hrun]
    exact hending
  obtain ⟨haccepted, htokens⟩ := accepted_texts hall hlast hcomplete
  rw [Token.texts_append] at haccepted htokens
  exact ⟨_, haccepted, htokens ▸ List.prefix_append _ _⟩

/-- No accepted text begins with tokens that lead to a stage and one that the stage does not take. -/
theorem not_isPrefix_tokensOf {left : List Token} {token : Token} {stage : Stage}
    (hrun : Stage.start.run? left = some stage) (hstops : stage.take? token = none) {text : List Char}
    (haccepted : Accepted text) : ¬ left ++ [token] <+: tokensOf text := by
  rintro ⟨rest, hrest⟩
  obtain ⟨last, hlast, -⟩ := (accepted_iff text).1 haccepted
  have hstuck : Stage.start.run? (left ++ [token]) = none := by
    rw [Stage.run?_append, hrun, Option.bind_some, Stage.run?_cons, hstops]
    rfl
  rw [← hrest, Stage.run?_append, hstuck] at hlast
  contradiction

end Expression

namespace ExpressionError

open Expression

/-- What stands before the error, in the text without the blanks at its ends. -/
def front (e : ExpressionError) (text : List Char) : List Char :=
  Text.before e.start (Text.trim text)

/-- The error points at the first token with which no expression goes on, or at the end of a text
that is no expression yet, and what it expects instead can be used. -/
structure BlamesFirst (e : ExpressionError) (text : List Char) : Prop where
  completable : ∃ longer, Accepted longer ∧ e.front text <+: longer
  leadsNowhere : ∀ kind, e.cause.blamed? = some kind →
    Token.lex (e.front text) ++ [⟨kind, e.slice⟩] <+: Token.lex (Text.trim text) ∧
      e.stop = e.start + Text.width e.slice ∧
      ∀ other, Accepted other → ¬ Token.lex (e.front text) ++ [⟨kind, e.slice⟩] <+: tokensOf other
  unfinished : e.cause.blamed? = none → e.front text = Text.trim text ∧ ¬ Accepted (e.front text)
  usable : ∀ expected ∈ e.cause.expected?, ∀ kind ∈ expected, ∃ token rest,
    token.kind = kind ∧ token.Fits ∧ Accepted (e.front text ++ token.text ++ rest) ∧
      Token.lex (e.front text) ++ [token] <+: tokensOf (e.front text ++ token.text ++ rest)
  finished : e.cause.expected? = some [] → Accepted (e.front text)

end ExpressionError

namespace Expression

/-- An error is a fault of the tokens, placed in the text. -/
theorem exists_fault_of_parse_eq_error {text : List Char} {e : ExpressionError}
    (h : parse text = .error e) : ∃ fault, ofTokens (tokensOf text) = .error fault ∧
      e = fault.locate (Text.trim text) := by
  unfold parse at h
  dsimp only at h
  cases hread : ofTokens (Token.lex (Text.trim text)) with
  | ok expression =>
    rw [hread] at h
    contradiction
  | error fault =>
    rw [hread] at h
    exact ⟨fault, hread, (Except.error.inj h).symm⟩

theorem cause_locate (source : List Char) (fault : Fault) : (fault.locate source).cause = fault.cause := by
  unfold Fault.locate
  dsimp only
  split <;> rfl

theorem slice_locate_nil (source : List Char) {fault : Fault} (h : fault.rest = []) :
    (fault.locate source).slice = [] ∧ (fault.locate source).stop = (fault.locate source).start := by
  unfold Fault.locate
  rw [h]
  exact ⟨rfl, rfl⟩

theorem slice_locate (source : List Char) {fault : Fault} {token : Token} {rest : List Token}
    (h : fault.rest = token :: rest) : (fault.locate source).slice = token.text ∧
      (fault.locate source).stop = (fault.locate source).start + Text.width token.text := by
  unfold Fault.locate
  rw [h]
  exact ⟨rfl, rfl⟩

theorem trim_eq_texts {text : List Char} {left rest : List Token} (h : tokensOf text = left ++ rest) :
    Text.trim text = Token.texts left ++ Token.texts rest := by
  rw [← Token.texts_append, ← h, tokensOf, Token.texts_lex]

/-- The error starts where the tokens before the fault end. -/
theorem start_locate {text : List Char} {left : List Token} {fault : Fault}
    (h : tokensOf text = left ++ fault.rest) :
    (fault.locate (Text.trim text)).start = Text.width (Token.texts left) := by
  have hlocate : (fault.locate (Text.trim text)).start =
      Text.width (Text.trim text) - Text.width (Token.texts fault.rest) := by
    unfold Fault.locate
    dsimp only
    split <;> rfl
  rw [hlocate, trim_eq_texts h, Text.width_append, Nat.add_sub_cancel]

/-- Before the error stand the texts of the tokens before the fault. -/
theorem front_locate {text : List Char} {left : List Token} {fault : Fault}
    (h : tokensOf text = left ++ fault.rest) :
    (fault.locate (Text.trim text)).front text = Token.texts left := by
  rw [ExpressionError.front, start_locate h, trim_eq_texts h, Text.before_width]

/-- What comes next of a kind that the stage takes can be completed. -/
theorem accepted_with_sample {left : List Token} {stage : Stage} {kind : TokenKind}
    (fits : ∀ token ∈ left, token.Fits) (hrun : Stage.start.run? left = some stage)
    (h : (stage.after? kind).isSome = true) :
    ∃ token rest, token.kind = kind ∧ token.Fits ∧
      Accepted (Token.texts left ++ token.text ++ rest) ∧
        left ++ [token] <+: tokensOf (Token.texts left ++ token.text ++ rest) := by
  obtain ⟨next, hnext⟩ := Option.isSome_iff_exists.1 h
  have htake := Stage.take?_sample hnext
  have hknown : kind ≠ .unknown := by
    rintro rfl
    cases stage <;> contradiction
  have hsample : (Stage.sample kind).Fits := Stage.fits_sample hknown
  have hboth : ∀ token ∈ left ++ [Stage.sample kind], token.Fits :=
    List.forall_mem_append.2 ⟨fits, by simpa using hsample⟩
  have hrunBoth : Stage.start.run? (left ++ [Stage.sample kind]) = some next := by
    rw [Stage.run?_append, hrun, Option.bind_some, Stage.run?_cons, htake]
    rfl
  have htexts : Token.texts (left ++ [Stage.sample kind]) =
      Token.texts left ++ (Stage.sample kind).text := by
    simp [Token.texts]
  obtain ⟨rest, haccepted, htokens⟩ := accepted_completed hboth hrunBoth
  rw [htexts] at haccepted htokens
  exact ⟨Stage.sample kind, rest, rfl, hsample, haccepted, htokens⟩

/-- An error of the parser points at the first token to blame, and its hints are of use. -/
theorem parse_error_blames_first {text : List Char} {e : ExpressionError}
    (h : parse text = .error e) : e.BlamesFirst text := by
  obtain ⟨fault, hread, rfl⟩ := exists_fault_of_parse_eq_error h
  obtain ⟨left, stage, htokens, hrun, hrefuses⟩ := exists_refuses_of_ofTokens_eq_error hread
  have hcut : Token.IsCut (left ++ fault.rest) := htokens ▸ Token.isCut_lex (Text.trim text)
  have fits : ∀ token ∈ left, token.Fits := fun t ht => hcut.fits t (List.mem_append_left _ ht)
  have hlex : Token.lex (Token.texts left) = left :=
    Token.IsCut.lex_texts ⟨fits, hcut.apart.left_of_append⟩
  have hfront := front_locate htokens
  have hcause := cause_locate (Text.trim text) fault
  refine ⟨?_, ?_, ?_, ?_, ?_⟩
  · obtain ⟨rest, haccepted, -⟩ := accepted_completed fits hrun
    rw [hfront]
    exact ⟨_, haccepted, List.prefix_append _ _⟩
  · intro kind hblamed
    rw [hcause, hrefuses.blames] at hblamed
    obtain ⟨token, htoken, rfl⟩ := Option.map_eq_some_iff.1 hblamed
    obtain ⟨rest, hrest⟩ := List.head?_eq_some_iff.1 htoken
    obtain ⟨hslice, hstop⟩ := slice_locate (Text.trim text) hrest
    rw [hfront, hlex, hslice]
    refine ⟨?_, hstop, fun other => not_isPrefix_tokensOf hrun (hrefuses.stops token htoken)⟩
    show left ++ [token] <+: tokensOf text
    rw [htokens, hrest]
    exact ⟨rest, by simp⟩
  · intro hblamed
    rw [hcause, hrefuses.blames, Option.map_eq_none_iff, List.head?_eq_none_iff] at hblamed
    have hall : Token.texts left = Text.trim text := by
      rw [hblamed, List.append_nil] at htokens
      rw [← htokens, tokensOf, Token.texts_lex]
    rw [hfront, hall, Accepted, parse_trim, h]
    simp
  · intro expected hexpected kind hkind
    rw [hcause] at hexpected
    rw [hfront, hlex]
    exact accepted_with_sample fits hrun (hrefuses.offers expected hexpected kind hkind)
  · intro hexpected
    rw [hcause] at hexpected
    rw [hfront]
    exact (accepted_texts fits hrun (hrefuses.finished hexpected)).1

/-- Behind the `k` of a selection stands a character of three bytes that means nothing. -/
theorem parse_error_blames_first_behind_keep : ∃ e : ExpressionError,
    parse "  2d20k€ ".toList = .error e ∧ e.cause = .meaningless [.integer, .highest, .lowest] ∧
      e.front "  2d20k€ ".toList = "2d20k".toList ∧ e.slice = ['€'] ∧
      e.BlamesFirst "  2d20k€ ".toList :=
  ⟨⟨.meaningless [.integer, .highest, .lowest], 5, 8, ['€']⟩, rfl, rfl, rfl, rfl,
    parse_error_blames_first rfl⟩

end Expression

end Tabletop
