import Tabletop.Proofs.ErrorReports

/-!
# Where the tokens stand

The tokens of a text, told by their kinds and their bytes alone. Stretches that join from the first
byte to the last, each of them over a text of its kind, make up the text in one way only if no
token continues the one before it; the lexer finds that way. What it makes of a text up to the end
of a token does not hang on what follows.
-/
namespace Tabletop

/-- A kind of token, with the bytes from `start` to before `stop` at which a token of it stands. -/
structure Stretch where
  kind : TokenKind
  start : Nat
  stop : Nat
  deriving DecidableEq

/-- The text is one of the kind: digits, or the spelling of the kind, or a character with which no
token begins. -/
inductive TokenKind.HasText : TokenKind → List Char → Prop
  | digits {text : List Char} (nonempty : text ≠ []) (digits : ∀ c ∈ text, c.isDigit = true) :
      HasText .integer text
  | symbol {kind : TokenKind} {text : List Char} (spelled : kind.spelling? = some text) :
      HasText kind text
  | stray {c : Char} (startsNone : Token.StartsNone c) : HasText .unknown [c]

namespace Stretch

/-- From one byte to another, each stretch begins where the one before it stops. -/
def Joined : Nat → Nat → List Stretch → Prop
  | start, stop, [] => start = stop
  | start, stop, stretch :: stretches => stretch.start = start ∧ Joined stretch.stop stop stretches

/-- What stands at the bytes of the stretch is a text of its kind. -/
def StandsIn (stretch : Stretch) (text : List Char) : Prop :=
  ∃ left slice right, text = left ++ slice ++ right ∧ stretch.start = Text.width left ∧
    stretch.stop = Text.width (left ++ slice) ∧ stretch.kind.HasText slice

/-- The stretches are a right cut of the whole text. -/
structure AreCutOf (stretches : List Stretch) (text : List Char) : Prop where
  joined : Joined 0 (Text.width text) stretches
  nonempty : ∀ stretch ∈ stretches, stretch.start < stretch.stop
  boundaries : ∀ stretch ∈ stretches,
    String.Pos.Raw.IsValid (String.ofList text) ⟨stretch.start⟩ ∧
      String.Pos.Raw.IsValid (String.ofList text) ⟨stretch.stop⟩
  standsIn : ∀ stretch ∈ stretches, stretch.StandsIn text
  apart : (stretches.map kind).IsChain fun first second =>
    ¬ (first = .integer ∧ second = .integer) ∧ ¬ (first = .dice ∧ second = .lowest)

end Stretch

namespace Token

/-- The stretches of tokens that follow each other, from a byte on. -/
def stretchesFrom (start : Nat) : List Token → List Stretch
  | [] => []
  | token :: tokens =>
    ⟨token.kind, start, start + token.width⟩ :: stretchesFrom (start + token.width) tokens

/-- The stretches at which the tokens of a text stand. -/
def stretches (text : List Char) : List Stretch :=
  stretchesFrom 0 (lex text)

theorem stretchesFrom_append (start : Nat) (left right : List Token) :
    stretchesFrom start (left ++ right) =
      stretchesFrom start left ++ stretchesFrom (start + Text.width (texts left)) right := by
  induction left generalizing start with
  | nil => rfl
  | cons token left ih =>
    rw [List.cons_append, stretchesFrom, stretchesFrom, ih, texts_cons, Text.width_append,
      ← Nat.add_assoc]
    rfl

theorem length_stretchesFrom (start : Nat) (tokens : List Token) :
    (stretchesFrom start tokens).length = tokens.length := by
  induction tokens generalizing start with
  | nil => rfl
  | cons token tokens ih => rw [stretchesFrom, List.length_cons, ih, List.length_cons]

theorem map_kind_stretchesFrom (start : Nat) (tokens : List Token) :
    (stretchesFrom start tokens).map Stretch.kind = tokens.map kind := by
  induction tokens generalizing start with
  | nil => rfl
  | cons token tokens ih => rw [stretchesFrom, List.map_cons, ih, List.map_cons]

theorem joined_stretchesFrom (start : Nat) (tokens : List Token) :
    Stretch.Joined start (start + Text.width (texts tokens)) (stretchesFrom start tokens) := by
  induction tokens generalizing start with
  | nil => rfl
  | cons token tokens ih =>
    rw [texts_cons, Text.width_append, ← Nat.add_assoc]
    exact ⟨rfl, ih (start + token.width)⟩

/-! ## Texts of a kind -/

theorem fits_iff_hasText (kind : TokenKind) (text : List Char) :
    Fits ⟨kind, text⟩ ↔ kind.HasText text := by
  constructor
  · intro fits
    cases fits with
    | digits nonempty digits => exact .digits nonempty digits
    | symbol spelled => exact .symbol spelled
    | stray meaningless => exact .stray (startsNone_of_ofChar meaningless)
  · intro h
    cases h with
    | digits nonempty digits => exact .digits nonempty digits
    | symbol spelled => exact .symbol spelled
    | stray startsNone => exact .stray (ofChar_of_startsNone startsNone)

theorem standsIn_of_mem_stretchesFrom {tokens : List Token} (fits : ∀ token ∈ tokens, token.Fits)
    (left : List Char) : ∀ stretch ∈ stretchesFrom (Text.width left) tokens,
      stretch.StandsIn (left ++ texts tokens) := by
  induction tokens generalizing left with
  | nil => exact fun _ hmem => absurd hmem List.not_mem_nil
  | cons token tokens ih =>
    obtain ⟨hfits, hrest⟩ := List.forall_mem_cons.1 fits
    have hstop : Text.width left + token.width = Text.width (left ++ token.text) :=
      (Text.width_append left token.text).symm
    rw [stretchesFrom, hstop, texts_cons, ← List.append_assoc]
    refine List.forall_mem_cons.2 ⟨?_, ih hrest (left ++ token.text)⟩
    exact ⟨left, token.text, texts tokens, rfl, rfl, rfl, (fits_iff_hasText _ _).1 hfits⟩

end Token

namespace Stretch

open Token

theorem StandsIn.start_lt_stop {stretch : Stretch} {text : List Char} (h : stretch.StandsIn text) :
    stretch.start < stretch.stop := by
  obtain ⟨left, slice, right, -, hstart, hstop, hkind⟩ := h
  have hslice := Text.width_pos ((fits_iff_hasText _ _).2 hkind).text_ne_nil
  rw [hstart, hstop, Text.width_append]
  exact Nat.lt_add_of_pos_right hslice

theorem StandsIn.isValid {stretch : Stretch} {text : List Char} (h : stretch.StandsIn text) :
    String.Pos.Raw.IsValid (String.ofList text) ⟨stretch.start⟩ ∧
      String.Pos.Raw.IsValid (String.ofList text) ⟨stretch.stop⟩ := by
  obtain ⟨left, slice, right, rfl, hstart, hstop, -⟩ := h
  rw [hstart, hstop]
  refine ⟨?_, Text.isValid_width (left ++ slice) right⟩
  rw [List.append_assoc]
  exact Text.isValid_width left (slice ++ right)

/-! ## One cut of a text -/

/-- Stretches that join over the rest of a text, with texts of their kinds, are those of tokens that
make up the rest. -/
theorem exists_tokens {list : List Stretch} {left rest : List Char}
    (hjoined : Joined (Text.width left) (Text.width (left ++ rest)) list)
    (hstands : ∀ stretch ∈ list, stretch.StandsIn (left ++ rest)) :
    ∃ tokens, list = stretchesFrom (Text.width left) tokens ∧ texts tokens = rest ∧
      ∀ token ∈ tokens, token.Fits := by
  induction list generalizing left rest with
  | nil =>
    have hwidth : Text.width left = Text.width (left ++ rest) := hjoined
    have hempty : rest = [] := by
      by_contra hne
      have hpos := Text.width_pos hne
      rw [Text.width_append] at hwidth
      omega
    exact ⟨[], rfl, hempty.symm, by simp⟩
  | cons stretch list ih =>
    obtain ⟨kind, start, stop⟩ := stretch
    obtain ⟨hhead, htail⟩ := List.forall_mem_cons.1 hstands
    obtain ⟨front, slice, right, htext, hstart, hstop, hkind⟩ := hhead
    obtain ⟨hbegins, hrest⟩ := hjoined
    dsimp only at hstart hstop hkind hbegins hrest
    have hfront : left = front := by
      have hsame := congrArg (Text.before start) htext
      rw [List.append_assoc, hstart, Text.before_width, ← hstart, hbegins, Text.before_width] at hsame
      exact hsame
    subst hfront
    rw [List.append_assoc, List.append_cancel_left_eq] at htext
    subst htext hstop hbegins
    rw [← List.append_assoc] at hrest htail
    obtain ⟨tokens, rfl, htexts, hfits⟩ := ih hrest htail
    refine ⟨⟨kind, slice⟩ :: tokens, ?_, ?_, ?_⟩
    · rw [stretchesFrom, Text.width_append]
      rfl
    · rw [texts_cons, htexts]
    · exact List.forall_mem_cons.2 ⟨(fits_iff_hasText _ _).2 hkind, hfits⟩

theorem areCutOf_stretches (text : List Char) : AreCutOf (stretches text) text := by
  have hcut := isCut_lex text
  have hstands : ∀ stretch ∈ stretches text, stretch.StandsIn text := by
    have hfrom := standsIn_of_mem_stretchesFrom hcut.fits []
    rwa [List.nil_append, texts_lex] at hfrom
  constructor
  case joined =>
    have hjoined := joined_stretchesFrom 0 (lex text)
    rwa [Nat.zero_add, texts_lex] at hjoined
  case nonempty => exact fun stretch hmem => (hstands stretch hmem).start_lt_stop
  case boundaries => exact fun stretch hmem => (hstands stretch hmem).isValid
  case standsIn => exact hstands
  case apart =>
    rw [stretches, map_kind_stretchesFrom, List.isChain_map]
    exact hcut.apart

theorem AreCutOf.eq_stretches {list : List Stretch} {text : List Char} (h : AreCutOf list text) :
    list = stretches text := by
  have hjoined : Joined (Text.width []) (Text.width ([] ++ text)) list := h.joined
  obtain ⟨tokens, hlist, htexts, hfits⟩ := exists_tokens hjoined h.standsIn
  have happart := h.apart
  rw [hlist, map_kind_stretchesFrom, List.isChain_map] at happart
  have hcut : IsCut tokens := ⟨hfits, happart⟩
  rw [stretches, ← htexts, hcut.lex_texts]
  exact hlist

theorem areCutOf_iff (list : List Stretch) (text : List Char) :
    AreCutOf list text ↔ list = stretches text := by
  constructor
  · exact AreCutOf.eq_stretches
  · rintro rfl
    exact areCutOf_stretches text

/-- The tokens up to one of them are those of the text up to where it ends. -/
theorem exists_left_of_stretches_eq_append {text : List Char} {before after : List Stretch}
    (h : stretches text = before ++ after) :
    ∃ left right, text = left ++ right ∧ Joined 0 (Text.width left) before ∧
      stretches left = before := by
  have hparted := List.take_append_drop before.length (lex text)
  have hcut : IsCut ((lex text).take before.length) := by
    have hwhole := isCut_lex text
    rw [← hparted] at hwhole
    exact hwhole.left_of_append
  have hlength : before.length ≤ (lex text).length := by
    have hall := congrArg List.length h
    rw [stretches, length_stretchesFrom, List.length_append] at hall
    omega
  have hbefore : stretchesFrom 0 ((lex text).take before.length) = before := by
    rw [stretches, ← hparted, stretchesFrom_append] at h
    refine (List.append_inj h ?_).1
    rw [length_stretchesFrom, List.length_take, Nat.min_eq_left hlength]
  have hjoined := joined_stretchesFrom 0 ((lex text).take before.length)
  rw [Nat.zero_add, hbefore] at hjoined
  refine ⟨_, texts ((lex text).drop before.length), ?_, hjoined, ?_⟩
  · rw [← texts_append, hparted, texts_lex]
  · rw [stretches, hcut.lex_texts, hbefore]

/-- The lexer finds the one way to cut a text into stretches that join from its first byte to its
last, with a text of its kind at each of them, so that digits never follow digits and no lone `l`
follows a lone `d`. What it finds up to a boundary it finds in the text up to there. -/
theorem stretches_are_the_only_cut (text : List Char) :
    (∀ list, AreCutOf list text ↔ list = stretches text) ∧
    ∀ before after, stretches text = before ++ after →
      ∃ left right, text = left ++ right ∧ Joined 0 (Text.width left) before ∧
        stretches left = before :=
  ⟨fun list => areCutOf_iff list text, fun _ _ h => exists_left_of_stretches_eq_append h⟩

/-- Behind a character of three bytes the letters `dl` are one token, and no cut has two there. -/
theorem stretches_are_the_only_cut_behind_stray :
    AreCutOf ([⟨.integer, 0, 2⟩, ⟨.dice, 2, 3⟩, ⟨.unknown, 3, 6⟩] ++ [⟨.dropLowest, 6, 8⟩])
      "12d€dl".toList ∧
    ¬ AreCutOf ([⟨.integer, 0, 2⟩, ⟨.dice, 2, 3⟩, ⟨.unknown, 3, 6⟩] ++
      [⟨.dice, 6, 7⟩, ⟨.lowest, 7, 8⟩]) "12d€dl".toList ∧
    ∃ left right, "12d€dl".toList = left ++ right ∧
      Joined 0 (Text.width left) [⟨.integer, 0, 2⟩, ⟨.dice, 2, 3⟩, ⟨.unknown, 3, 6⟩] ∧
      stretches left = [⟨.integer, 0, 2⟩, ⟨.dice, 2, 3⟩, ⟨.unknown, 3, 6⟩] := by
  obtain ⟨honly, hleft⟩ := stretches_are_the_only_cut "12d€dl".toList
  have hstretches : stretches "12d€dl".toList =
      [⟨.integer, 0, 2⟩, ⟨.dice, 2, 3⟩, ⟨.unknown, 3, 6⟩] ++ [⟨.dropLowest, 6, 8⟩] := by
    decide
  refine ⟨(honly _).2 hstretches.symm, fun hcut => ?_, hleft _ _ hstretches⟩
  exact absurd ((honly _).1 hcut) (by decide)

end Stretch

end Tabletop
