import Tabletop.Proofs.FirstOffence

/-!
# What errors report

An error in an expression names a stretch of the trimmed text that begins and ends between
characters, repeats what stands there, and is right in what it says of it. Blanks around the text
change nothing, the positions included.
-/
namespace Tabletop

namespace Text

theorem dropWhile_of_allBlank {text : List Char} (h : allBlank text = true) :
    text.dropWhile isBlank = [] :=
  List.dropWhile_eq_nil_iff.2 (List.all_eq_true.1 h)

theorem trimEnd_append_blank (text : List Char) {back : List Char} (h : allBlank back = true) :
    trimEnd (text ++ back) = trimEnd text := by
  have hback : ∀ c ∈ back.reverse, isBlank c = true := by
    intro c hc
    exact List.all_eq_true.1 h c (List.mem_reverse.1 hc)
  rw [trimEnd, trimEnd, List.reverse_append, List.dropWhile_append_of_pos hback]

/-- Blanks around a text are trimmed with those at its ends. -/
theorem trim_padded {front back : List Char} (text : List Char) (hfront : allBlank front = true)
    (hback : allBlank back = true) : trim (front ++ text ++ back) = trim text := by
  rw [trim, trim, List.append_assoc, List.dropWhile_append_of_pos (List.all_eq_true.1 hfront),
    List.dropWhile_append]
  split
  · next hblank =>
    rw [dropWhile_of_allBlank hback, List.isEmpty_iff.1 hblank]
  · exact trimEnd_append_blank _ hback

/-- Between the characters of a text there is a position for each part that it begins with. -/
theorem isValid_width (left right : List Char) :
    String.Pos.Raw.IsValid (String.ofList (left ++ right)) ⟨width left⟩ := by
  rw [String.Pos.Raw.isValid_iff_exists_append]
  refine ⟨String.ofList left, String.ofList right, String.ofList_append, ?_⟩
  rw [width_eq_utf8ByteSize]
  rfl

/-- All of the digits that stand together in a text, between these two parts of it. -/
structure IsRun (left digits right : List Char) : Prop where
  nonempty : digits ≠ []
  digits : ∀ c ∈ digits, c.isDigit = true
  left : ∀ c ∈ left.getLast?, c.isDigit = false
  right : ∀ c ∈ right.head?, c.isDigit = false

end Text

namespace Token

/-- No token of the notation begins with the character. -/
def StartsNone (c : Char) : Prop :=
  ∀ token : Token, token.Fits → token.kind ≠ .unknown → token.text.head? ≠ some c

theorem startsNone_of_ofChar {c : Char} (h : TokenKind.ofChar c = .unknown) : StartsNone c := by
  intro token fits hkind hhead
  exact fits.meaningful hkind c (List.mem_of_mem_head? hhead) h

theorem ofChar_of_startsNone {c : Char} (h : StartsNone c) : TokenKind.ofChar c = .unknown := by
  by_contra hknown
  exact h ⟨TokenKind.ofChar c, [c]⟩ (fits_ofChar c) hknown rfl

/-- A right cut is one on either side of each of its tokens. -/
theorem IsCut.lex_around {left rest : List Token} {token : Token}
    (h : IsCut (left ++ token :: rest)) :
    lex (texts left ++ token.text ++ texts rest) = lex (texts left) ++ token :: lex (texts rest) := by
  have htexts : texts left ++ token.text ++ texts rest = texts (left ++ token :: rest) := by
    rw [texts_append, texts_cons, List.append_assoc]
  have hrest : IsCut rest := (isCut_cons.1 h.right_of_append).2.2
  rw [htexts, h.lex_texts, h.left_of_append.lex_texts, hrest.lex_texts]

/-- In a right cut a number takes in all digits that stand together. -/
theorem IsCut.isRun {left rest : List Token} {digits : List Char}
    (h : IsCut (left ++ ⟨.integer, digits⟩ :: rest)) :
    Text.IsRun (texts left) digits (texts rest) := by
  have fits : Fits ⟨.integer, digits⟩ := h.fits _ (by simp)
  obtain ⟨n, rfl⟩ := fits.exists_numeral
  refine ⟨n.nonempty, n.isDigit, ?_, ?_⟩
  · intro c hc
    rcases left.eq_nil_or_concat' with rfl | ⟨init, last, rfl⟩
    · contradiction
    · have hlast : last.Fits := h.fits last (by simp)
      have hapart : last.Apart ⟨.integer, n.digits⟩ := by
        have hchain := h.apart
        rw [List.append_assoc] at hchain
        exact (List.isChain_cons.1 hchain.right_of_append).1 _ rfl
      have htexts : texts (init ++ [last]) = texts init ++ last.text := by simp [texts]
      rw [htexts, List.getLast?_append_of_ne_nil _ hlast.text_ne_nil] at hc
      have hmem : c ∈ last.text := List.mem_of_getLast? hc
      exact hlast.isDigit_eq_false (fun hinteger => hapart.1 ⟨hinteger, rfl⟩) c hmem
  · intro c hc
    cases rest with
    | nil => contradiction
    | cons next rest =>
      have hnext : next.Fits := h.fits next (by simp)
      have hapart : Apart ⟨.integer, n.digits⟩ next :=
        (List.isChain_cons.1 h.apart.right_of_append).1 next rfl
      rw [texts_cons, List.head?_append_of_ne_nil _ hnext.text_ne_nil] at hc
      exact hnext.isDigit_eq_false (fun hinteger => hapart.1 ⟨rfl, hinteger⟩) c
        (List.mem_of_mem_head? hc)

end Token

namespace Expression

/-- The greatest number of the type that digits are read as, by the kinds of the tokens before them,
the last one first. -/
def limitBehind : List TokenKind → Nat
  | .dice :: .sign _ :: _ => greatestStep
  | .dice :: _ => Faces.greatest
  | .sign _ :: _ => Modifier.greatest
  | _ => Count.greatest

theorem limitBehind_dice_of_sign {kinds : List TokenKind}
    (h : ∃ sign, kinds.head? = some (.sign sign)) :
    limitBehind (.dice :: kinds) = greatestStep := by
  obtain ⟨sign, hhead⟩ := h
  obtain ⟨rest, rfl⟩ := List.head?_eq_some_iff.1 hhead
  rfl

theorem limitBehind_dice_of_not_sign {kinds : List TokenKind}
    (h : ¬ ∃ sign, kinds.head? = some (.sign sign)) :
    limitBehind (.dice :: kinds) = Faces.greatest := by
  cases kinds with
  | nil => rfl
  | cons kind kinds =>
    cases kind with
    | sign sign => exact absurd ⟨sign, rfl⟩ h
    | _ => rfl

namespace Stage

/-- What a stage tells of the kinds of the tokens that led to it, the last one first. -/
structure Behind (stage : Stage) (kinds : List TokenKind) : Prop where
  sign : (∃ sign, kinds.head? = some (.sign sign)) ↔ stage = .sign ∨ stage = .modifierSign
  limit : (stage.after? .integer).isSome = true → stage.numbers.2 = limitBehind kinds

theorem behind_start : Behind .start [] :=
  ⟨by simp, fun _ => rfl⟩

theorem Behind.after? {stage next : Stage} {kind : TokenKind} {kinds : List TokenKind}
    (h : stage.Behind kinds) (hafter : stage.after? kind = some next) :
    next.Behind (kind :: kinds) := by
  cases kind with
  | dice =>
    cases stage with
    | start | count =>
      obtain rfl := Option.some.inj hafter
      have hnone : ¬ ∃ sign, kinds.head? = some (.sign sign) := by
        rw [h.sign]
        simp
      exact ⟨by simp, fun _ => (limitBehind_dice_of_not_sign hnone).symm⟩
    | sign =>
      obtain rfl := Option.some.inj hafter
      exact ⟨by simp, fun _ => (limitBehind_dice_of_sign (h.sign.2 (.inl rfl))).symm⟩
    | _ => contradiction
  | sign _ =>
    cases stage with
    | die | stepLetter | keep | selector | selected =>
      obtain rfl := Option.some.inj hafter
      exact ⟨by simp, fun _ => rfl⟩
    | _ => contradiction
  | _ =>
    cases stage <;> first | contradiction | obtain rfl := Option.some.inj hafter
    all_goals first | exact ⟨by simp, fun _ => rfl⟩ | exact ⟨by simp, by simp [Stage.after?]⟩

theorem Behind.run? {tokens : List Token} {stage last : Stage} {kinds : List TokenKind}
    (h : stage.Behind kinds) (hrun : stage.run? tokens = some last) :
    last.Behind ((tokens.map Token.kind).reverse ++ kinds) := by
  induction tokens generalizing stage kinds with
  | nil =>
    obtain rfl := Option.some.inj hrun
    exact h
  | cons token tokens ih =>
    rw [run?_cons] at hrun
    obtain ⟨next, htake, hrest⟩ := Option.bind_eq_some_iff.1 hrun
    have hafter : stage.after? token.kind = some next := (Option.ite_none_right_eq_some.1 htake).2
    have hlast := ih (h.after? hafter) hrest
    rwa [List.map_cons, List.reverse_cons, List.append_assoc]

/-- The numbers that a stage takes go up to the greatest of the type that is read there. -/
theorem greatest_eq_limitBehind {left : List Token} {stage : Stage}
    (hrun : Stage.start.run? left = some stage) (hafter : (stage.after? .integer).isSome = true) :
    stage.numbers.2 = limitBehind (left.map Token.kind).reverse := by
  have hbehind := behind_start.run? hrun
  rw [List.append_nil] at hbehind
  exact hbehind.limit hafter

end Stage

end Expression

namespace ExpressionError

open Expression

/-- The error tells the truth of a text in which its slice stands between these two parts. -/
structure Truthful (e : ExpressionError) (left right : List Char) : Prop where
  start : e.start = Text.width left
  stop : e.stop = Text.width (left ++ e.slice)
  empty : e.slice = [] ↔ ∃ expected, e.cause = .ended expected
  atEnd : e.slice = [] → right = []
  number : e.cause = .numberTooLarge ∨ e.cause = .noDice ∨ e.cause = .tooFewFaces ∨
    e.cause = .nothingSelected → Text.IsRun left e.slice right
  tooLarge : e.cause = .numberTooLarge →
    limitBehind ((Token.lex left).map Token.kind).reverse < Decimal.value e.slice
  noDice : e.cause = .noDice → Decimal.value e.slice = 0
  tooFewFaces : e.cause = .tooFewFaces → Decimal.value e.slice ≤ 1
  nothingSelected : e.cause = .nothingSelected → Decimal.value e.slice = 0
  meaningless : ∀ expected, e.cause = .meaningless expected →
    ∃ c, e.slice = [c] ∧ Token.StartsNone c
  misplaced : ∀ found expected, e.cause = .misplaced found expected →
    found ≠ .unknown ∧ Token.Fits ⟨found, e.slice⟩ ∧
      Token.lex (left ++ e.slice ++ right) = Token.lex left ++ ⟨found, e.slice⟩ :: Token.lex right

namespace Cause

theorem blamed?_eq_none_iff {cause : Cause} :
    cause.blamed? = none ↔ ∃ expected, cause = .ended expected := by
  cases cause <;> simp [blamed?]

end Cause

end ExpressionError

namespace Expression

section Locate

variable {text : List Char} {left : List Token} {stage : Stage} {fault : Fault}

/-- At the end of the text nothing is blamed. -/
theorem truthful_locate_end (htokens : tokensOf text = left ++ fault.rest)
    (hrefuses : stage.Refuses fault) (hrest : fault.rest = []) :
    (fault.locate (Text.trim text)).Truthful (Token.texts left) [] := by
  obtain ⟨hslice, hstop⟩ := slice_locate_nil (Text.trim text) hrest
  have hstart := start_locate htokens
  have hblamed : fault.cause.blamed? = none := by
    rw [hrefuses.blames, hrest]
    rfl
  obtain ⟨expected, hended⟩ := ExpressionError.Cause.blamed?_eq_none_iff.1 hblamed
  have hcause : (fault.locate (Text.trim text)).cause = .ended expected :=
    (cause_locate _ fault).trans hended
  constructor
  case start => exact hstart
  case stop => rw [hstop, hstart, hslice, List.append_nil]
  case empty => exact ⟨fun _ => ⟨expected, hcause⟩, fun _ => hslice⟩
  case atEnd => exact fun _ => rfl
  all_goals simp [hcause]

/-- A token that is blamed is the one that stands there. -/
theorem truthful_locate_token {token : Token} {rest : List Token}
    (htokens : tokensOf text = left ++ fault.rest) (hrun : Stage.start.run? left = some stage)
    (hrefuses : stage.Refuses fault) (hrest : fault.rest = token :: rest) :
    (fault.locate (Text.trim text)).Truthful (Token.texts left) (Token.texts rest) := by
  obtain ⟨hslice, hstop⟩ := slice_locate (Text.trim text) hrest
  have hstart := start_locate htokens
  have hcause := cause_locate (Text.trim text) fault
  have hcut : Token.IsCut (left ++ token :: rest) := by
    rw [← hrest, ← htokens]
    exact Token.isCut_lex (Text.trim text)
  have fits : token.Fits := hcut.fits token (by simp)
  have hlex : Token.lex (Token.texts left) = left := hcut.left_of_append.lex_texts
  have hblamed : fault.cause.blamed? = some token.kind := by
    rw [hrefuses.blames, hrest]
    rfl
  have hkind : ∀ {kind}, fault.cause.blamed? = some kind → token.kind = kind := by
    intro kind h
    rw [hblamed] at h
    exact Option.some.inj h
  have hnumber : ∀ {cause}, fault.cause = cause → cause.expected? = none →
      (stage.after? .integer).isSome = true ∧
        stage.OutOfBounds (Decimal.value token.text) cause := by
    intro cause h hexpected
    obtain ⟨hafter, hvalue⟩ := hrefuses.number (by rw [h, hexpected])
    rw [h] at hvalue
    exact ⟨hafter, hvalue token (by rw [hrest]; rfl)⟩
  constructor
  case start => exact hstart
  case stop => rw [hstop, hstart, hslice, Text.width_append]
  case empty =>
    rw [hslice, hcause, ← ExpressionError.Cause.blamed?_eq_none_iff, hblamed]
    simp [fits.text_ne_nil]
  case atEnd =>
    rw [hslice]
    exact fun h => absurd h fits.text_ne_nil
  case number =>
    rw [hcause, hslice]
    intro h
    have hinteger : token.kind = .integer := by
      apply hkind
      rcases h with h | h | h | h <;> rw [h] <;> rfl
    obtain ⟨kind, digits⟩ := token
    obtain rfl : kind = .integer := hinteger
    exact hcut.isRun
  case tooLarge =>
    rw [hcause, hslice, hlex]
    intro h
    obtain ⟨hafter, hvalue⟩ := hnumber h rfl
    rwa [← Stage.greatest_eq_limitBehind hrun hafter]
  case noDice =>
    rw [hcause, hslice]
    intro h
    exact (hnumber h rfl).2.2
  case tooFewFaces =>
    rw [hcause, hslice]
    intro h
    exact (hnumber h rfl).2.2
  case nothingSelected =>
    rw [hcause, hslice]
    intro h
    exact (hnumber h rfl).2.2
  case meaningless =>
    rw [hcause, hslice]
    intro expected h
    have hunknown : token.kind = .unknown := hkind (by rw [h]; rfl)
    obtain ⟨c, htext, hc⟩ := fits.stray_of_unknown hunknown
    exact ⟨c, htext, Token.startsNone_of_ofChar hc⟩
  case misplaced =>
    rw [hcause, hslice]
    intro found expected h
    obtain rfl : token.kind = found := hkind (by rw [h]; rfl)
    refine ⟨?_, fits, hcut.lex_around⟩
    intro hunknown
    exact hrefuses.known expected (by rw [h, hunknown])

end Locate

theorem exists_truthful {text : List Char} {e : ExpressionError} (h : parse text = .error e) :
    ∃ left right, Text.trim text = left ++ e.slice ++ right ∧ e.Truthful left right := by
  obtain ⟨fault, hread, rfl⟩ := exists_fault_of_parse_eq_error h
  obtain ⟨left, stage, htokens, hrun, hrefuses⟩ := exists_refuses_of_ofTokens_eq_error hread
  have hsource := trim_eq_texts htokens
  cases hrest : fault.rest with
  | nil =>
    refine ⟨Token.texts left, [], ?_, truthful_locate_end htokens hrefuses hrest⟩
    rw [hrest] at hsource
    rw [(slice_locate_nil _ hrest).1, List.append_nil]
    exact hsource
  | cons token rest =>
    refine ⟨Token.texts left, Token.texts rest, ?_,
      truthful_locate_token htokens hrun hrefuses hrest⟩
    rw [hrest, Token.texts_cons, ← List.append_assoc] at hsource
    rw [(slice_locate _ hrest).1]
    exact hsource

/-- Blanks around a text change nothing. An error names a stretch within the trimmed text, from
between two characters to between two characters, with what stands there; the stretch is empty only
where the text ends too early, and what the error says of it is true. -/
theorem parse_errors_truthful (text : List Char) :
    (∀ front back, Text.allBlank front = true → Text.allBlank back = true →
      parse (front ++ text ++ back) = parse text) ∧
    ∀ e, parse text = .error e →
      e.start ≤ e.stop ∧ e.stop ≤ Text.width (Text.trim text) ∧
      String.Pos.Raw.IsValid (String.ofList (Text.trim text)) ⟨e.start⟩ ∧
      String.Pos.Raw.IsValid (String.ofList (Text.trim text)) ⟨e.stop⟩ ∧
      ∃ left right, Text.trim text = left ++ e.slice ++ right ∧ e.Truthful left right := by
  refine ⟨?_, ?_⟩
  · intro front back hfront hback
    rw [parse, Text.trim_padded text hfront hback]
    rfl
  · intro e h
    obtain ⟨left, right, hsource, htruthful⟩ := exists_truthful h
    rw [hsource, htruthful.start, htruthful.stop]
    refine ⟨?_, ?_, ?_, Text.isValid_width _ _, left, right, rfl, htruthful⟩
    · rw [Text.width_append]
      omega
    · rw [Text.width_append _ right]
      omega
    · rw [List.append_assoc]
      exact Text.isValid_width _ _

/-- The length of a step that 31 bits do not hold, with blanks of one and of three bytes around it. -/
theorem parse_errors_truthful_of_long_step : ∃ (e : ExpressionError) (left right : List Char),
    Text.allBlank ['\u3000', ' '] = true ∧ Text.allBlank ['\t'] = true ∧
      parse (['\u3000', ' '] ++ "2d6+d2147483648".toList ++ ['\t']) = .error e ∧
      parse "2d6+d2147483648".toList = .error e ∧
      e.cause = .numberTooLarge ∧ e.start = 5 ∧ e.stop = 15 ∧
      Text.trim "2d6+d2147483648".toList = left ++ e.slice ++ right ∧ e.Truthful left right := by
  obtain ⟨hpadded, herrors⟩ := parse_errors_truthful "2d6+d2147483648".toList
  have herror : parse "2d6+d2147483648".toList =
      .error ⟨.numberTooLarge, 5, 15, "2147483648".toList⟩ := rfl
  obtain ⟨-, -, -, -, left, right, htrim, htruthful⟩ := herrors _ herror
  have hblank := hpadded ['\u3000', ' '] ['\t'] (by decide) (by decide)
  exact ⟨_, left, right, by decide, by decide, hblank.trans herror, herror, rfl, rfl, rfl, htrim,
    htruthful⟩

end Expression

end Tabletop
