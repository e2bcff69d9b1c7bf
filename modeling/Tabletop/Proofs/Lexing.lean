import Mathlib.Data.List.Chain
import Tabletop.Expression.Token
import Tabletop.Text.Blank

/-!
# The tokens of a text

A cut of a text into tokens is right when the text of every token fits its kind and no token
continues the one before it: digits never stand next to digits, and a lone `d` never stands
before a lone `l`. Every text has exactly one right cut, and `Token.lex` finds it. Which
characters a kind admits is stated here without the lexer.
-/
namespace Tabletop

/-- The text of a kind that can be written in one way only. -/
def TokenKind.spelling? : TokenKind → Option (List Char)
  | .integer | .unknown => none
  | .dice => some ['d']
  | .percent => some ['%']
  | .sign mark => some [mark.char]
  | .keep => some ['k']
  | .dropLowest => some ['d', 'l']
  | .highest => some ['h']
  | .lowest => some ['l']

namespace Token

/-- The text of a token is one of its kind. -/
inductive Fits : Token → Prop
  | digits {text : List Char} (nonempty : text ≠ []) (digits : ∀ c ∈ text, c.isDigit = true) :
      Fits ⟨.integer, text⟩
  | symbol {kind : TokenKind} {text : List Char} (spelled : kind.spelling? = some text) :
      Fits ⟨kind, text⟩
  | stray {c : Char} (meaningless : TokenKind.ofChar c = .unknown) : Fits ⟨.unknown, [c]⟩

/-- The second token does not continue the first. -/
def Apart (first second : Token) : Prop :=
  ¬ (first.kind = .integer ∧ second.kind = .integer) ∧
    ¬ (first.kind = .dice ∧ second.kind = .lowest)

/-- The tokens are a right cut of the text that they cover. -/
structure IsCut (tokens : List Token) : Prop where
  fits : ∀ token ∈ tokens, token.Fits
  apart : tokens.IsChain Apart

theorem lex_append (left right : List Char) : lex (left ++ right) = left.foldr push (lex right) := by
  simp [lex, List.foldr_append]

theorem texts_append (left right : List Token) : texts (left ++ right) = texts left ++ texts right := by
  simp [texts]

theorem texts_cons (token : Token) (tokens : List Token) :
    texts (token :: tokens) = token.text ++ texts tokens := rfl

/-! ## The characters of a kind -/

/-- A character is a digit, or writes its kind out in full, or means nothing. -/
theorem ofChar_cases (c : Char) :
    (TokenKind.ofChar c = .integer ∧ c.isDigit = true) ∨
      (TokenKind.ofChar c).spelling? = some [c] ∨ TokenKind.ofChar c = .unknown := by
  unfold TokenKind.ofChar
  split
  · exact Or.inl ⟨rfl, ‹_›⟩
  · right
    split <;> simp [TokenKind.spelling?, Sign.char]

theorem ofChar_of_isBlank (c : Char) (h : Text.isBlank c = true) : TokenKind.ofChar c = .unknown := by
  unfold TokenKind.ofChar
  split
  · next hdigit => simp [Text.isBlank_eq_false_of_isDigit hdigit] at h
  · split
    all_goals first | rfl | exact absurd h (by decide)

theorem ofChar_of_isDigit {c : Char} (h : c.isDigit = true) : TokenKind.ofChar c = .integer := by
  simp [TokenKind.ofChar, h]

theorem isDigit_of_ofChar {c : Char} (h : TokenKind.ofChar c = .integer) : c.isDigit = true := by
  rcases ofChar_cases c with hc | hc | hc
  · exact hc.2
  · simp [h, TokenKind.spelling?] at hc
  · simp [h] at hc

/-- The notation has a use for every character of the text. -/
def Meaningful (text : List Char) : Prop := ∀ c ∈ text, TokenKind.ofChar c ≠ .unknown

theorem meaningful_nil : Meaningful [] := by simp [Meaningful]

theorem meaningful_cons {c : Char} {text : List Char} :
    Meaningful (c :: text) ↔ TokenKind.ofChar c ≠ .unknown ∧ Meaningful text :=
  List.forall_mem_cons

theorem meaningful_append {left right : List Char} :
    Meaningful (left ++ right) ↔ Meaningful left ∧ Meaningful right :=
  List.forall_mem_append

theorem meaningful_of_digits {text : List Char} (h : ∀ c ∈ text, c.isDigit = true) :
    Meaningful text := by
  intro c hc
  rw [ofChar_of_isDigit (h c hc)]
  simp

theorem Meaningful.not_mem {text : List Char} (h : Meaningful text) {c : Char}
    (hc : TokenKind.ofChar c = .unknown) : c ∉ text :=
  fun hmem => h c hmem hc

/-- A test that only characters without meaning pass fails throughout the text. -/
theorem Meaningful.eq_false {text : List Char} (h : Meaningful text) {test : Char → Bool}
    (htest : ∀ c, test c = true → TokenKind.ofChar c = .unknown) : ∀ c ∈ text, test c = false := by
  intro c hc
  cases hpass : test c with
  | false => rfl
  | true => exact absurd (htest c hpass) (h c hc)

/-- A token that means something is made of characters that do. -/
theorem Fits.meaningful {token : Token} (fits : token.Fits) (hkind : token.kind ≠ .unknown) :
    Meaningful token.text := by
  cases fits with
  | digits _ digits => exact meaningful_of_digits digits
  | @symbol kind text spelled =>
    cases kind with
    | integer | unknown => simp [TokenKind.spelling?] at spelled
    | sign mark =>
      obtain rfl := Option.some.inj spelled
      cases mark <;> exact meaningful_cons.2 ⟨by decide, meaningful_nil⟩
    | dropLowest =>
      obtain rfl := Option.some.inj spelled
      exact meaningful_cons.2 ⟨by decide, meaningful_cons.2 ⟨by decide, meaningful_nil⟩⟩
    | dice | percent | keep | highest | lowest =>
      obtain rfl := Option.some.inj spelled
      exact meaningful_cons.2 ⟨by decide, meaningful_nil⟩
  | stray _ => exact absurd rfl hkind

theorem Fits.text_ne_nil {token : Token} (fits : token.Fits) : token.text ≠ [] := by
  cases fits with
  | digits nonempty _ => exact nonempty
  | @symbol kind text spelled =>
    rintro rfl
    cases kind <;> simp [TokenKind.spelling?] at spelled
  | @stray c _ => exact List.cons_ne_nil c []

/-- A token that is no number has no digits. -/
theorem Fits.isDigit_eq_false {token : Token} (fits : token.Fits) (hkind : token.kind ≠ .integer) :
    ∀ c ∈ token.text, c.isDigit = false := by
  cases fits with
  | digits _ _ => exact absurd rfl hkind
  | @symbol kind text spelled =>
    cases kind with
    | integer | unknown => simp [TokenKind.spelling?] at spelled
    | sign mark =>
      obtain rfl := Option.some.inj spelled
      cases mark <;> exact List.forall_mem_singleton.2 rfl
    | dropLowest =>
      obtain rfl := Option.some.inj spelled
      exact List.forall_mem_cons.2 ⟨rfl, List.forall_mem_singleton.2 rfl⟩
    | dice | percent | keep | highest | lowest =>
      obtain rfl := Option.some.inj spelled
      exact List.forall_mem_singleton.2 rfl
  | @stray c meaningless =>
    intro d hd
    obtain rfl := List.mem_singleton.1 hd
    cases hdigit : d.isDigit with
    | false => rfl
    | true => rw [ofChar_of_isDigit hdigit] at meaningless; contradiction

theorem Fits.stray_of_unknown {token : Token} (fits : token.Fits) (hkind : token.kind = .unknown) :
    ∃ c, token.text = [c] ∧ TokenKind.ofChar c = .unknown := by
  cases fits with
  | digits _ _ => contradiction
  | @symbol kind text spelled =>
    obtain rfl : kind = .unknown := hkind
    simp [TokenKind.spelling?] at spelled
  | @stray c meaningless => exact ⟨c, rfl, meaningless⟩

/-- A character alone makes a token of its kind. -/
theorem fits_ofChar (c : Char) : Fits ⟨TokenKind.ofChar c, [c]⟩ := by
  rcases ofChar_cases c with ⟨hk, hd⟩ | hs | hk
  · rw [hk]
    exact .digits (List.cons_ne_nil c []) (by simpa using hd)
  · exact .symbol hs
  · rw [hk]
    exact .stray hk

/-! ## One character in front of a right cut -/

theorem push_digit_joins {c : Char} (h : c.isDigit = true) (text : List Char) (rest : List Token) :
    push c (⟨.integer, text⟩ :: rest) = ⟨.integer, c :: text⟩ :: rest := by
  simp [push, ofChar_of_isDigit h]

theorem push_d_joins (text : List Char) (rest : List Token) :
    push 'd' (⟨.lowest, text⟩ :: rest) = ⟨.dropLowest, 'd' :: text⟩ :: rest := rfl

/-- A character that the next token does not take in starts a token of its own. -/
theorem push_apart {c : Char} {later : List Token}
    (h : ∀ next ∈ later.head?, Apart ⟨TokenKind.ofChar c, [c]⟩ next) :
    push c later = ⟨TokenKind.ofChar c, [c]⟩ :: later := by
  unfold push
  split
  · exact absurd ⟨‹_›, rfl⟩ (h _ rfl).1
  · exact absurd ⟨‹_›, rfl⟩ (h _ rfl).2
  · rfl

/-- Digits before tokens that begin otherwise become one token. -/
theorem foldr_push_digits {text : List Char} (nonempty : text ≠ [])
    (digits : ∀ c ∈ text, c.isDigit = true) {later : List Token}
    (h : ∀ next ∈ later.head?, next.kind ≠ .integer) :
    text.foldr push later = ⟨.integer, text⟩ :: later := by
  induction text with
  | nil => exact absurd rfl nonempty
  | cons c text ih =>
    have hc : c.isDigit = true := digits c List.mem_cons_self
    rw [List.foldr_cons]
    cases text with
    | nil =>
      rw [List.foldr_nil, push_apart, ofChar_of_isDigit hc]
      intro next hn
      exact ⟨fun hk => h next hn hk.2, fun hk => by simp [ofChar_of_isDigit hc] at hk⟩
    | cons d text =>
      have hrest : ∀ c ∈ d :: text, c.isDigit = true := fun c hm => digits c (List.mem_cons_of_mem _ hm)
      rw [ih (List.cons_ne_nil d text) hrest, push_digit_joins hc]

/-- The characters of a token, put before tokens that do not continue it, become that token. -/
theorem foldr_push_text {token : Token} (fits : token.Fits) {later : List Token}
    (h : ∀ next ∈ later.head?, token.Apart next) :
    token.text.foldr push later = token :: later := by
  cases fits with
  | digits nonempty digits =>
    exact foldr_push_digits nonempty digits fun next hn hk => (h next hn).1 ⟨rfl, hk⟩
  | @symbol kind text spelled =>
    cases kind with
    | integer | unknown => simp [TokenKind.spelling?] at spelled
    | dropLowest =>
      obtain rfl := Option.some.inj spelled
      have hl : push 'l' later = ⟨.lowest, ['l']⟩ :: later := by
        refine push_apart fun next _ => ⟨?_, ?_⟩ <;> intro hk <;> exact absurd hk.1 (by decide)
      rw [List.foldr_cons, List.foldr_cons, List.foldr_nil, hl, push_d_joins]
    | sign mark =>
      obtain rfl := Option.some.inj spelled
      cases mark <;> exact push_apart h
    | dice | percent | keep | highest | lowest =>
      obtain rfl := Option.some.inj spelled
      exact push_apart h
  | @stray c meaningless =>
    have hp := @push_apart c later (by rwa [meaningless])
    rwa [meaningless] at hp

/-- A right cut is what the lexer makes of the text that it covers. -/
theorem IsCut.lex_texts {tokens : List Token} (h : IsCut tokens) : lex (texts tokens) = tokens := by
  induction tokens with
  | nil => rfl
  | cons token tokens ih =>
    obtain ⟨hapart, hchain⟩ := List.isChain_cons.1 h.apart
    have hrest : IsCut tokens := ⟨fun t ht => h.fits t (List.mem_cons_of_mem token ht), hchain⟩
    rw [texts_cons, lex_append, ih hrest]
    exact foldr_push_text (h.fits token List.mem_cons_self) hapart

/-! ## The lexer cuts right -/

theorem isCut_nil : IsCut [] := ⟨by simp, .nil⟩

theorem isCut_cons {token : Token} {tokens : List Token} :
    IsCut (token :: tokens) ↔
      token.Fits ∧ (∀ next ∈ tokens.head?, token.Apart next) ∧ IsCut tokens := by
  constructor
  · rintro ⟨fits, apart⟩
    obtain ⟨hhead, htail⟩ := List.isChain_cons.1 apart
    exact ⟨fits token List.mem_cons_self, hhead, fun t ht => fits t (List.mem_cons_of_mem _ ht), htail⟩
  · rintro ⟨hfits, hhead, fits, apart⟩
    refine ⟨?_, List.isChain_cons.2 ⟨hhead, apart⟩⟩
    rintro t (_ | ⟨_, ht⟩)
    · exact hfits
    · exact fits t ht

/-- A token that continues no other. -/
def Opens (token : Token) : Prop :=
  token.kind ≠ .integer ∧ token.kind ≠ .lowest

theorem Opens.apart {token : Token} (h : token.Opens) (before : Token) : before.Apart token :=
  ⟨fun hk => h.1 hk.2, fun hk => h.2 hk.2⟩

/-- Two right cuts, the second of which begins anew, make a right cut. -/
theorem IsCut.append {left right : List Token} (hl : IsCut left) (hr : IsCut right)
    (h : ∀ next ∈ right.head?, next.Opens) : IsCut (left ++ right) := by
  constructor
  · intro token ht
    rcases List.mem_append.1 ht with ht | ht
    · exact hl.fits token ht
    · exact hr.fits token ht
  · exact hl.apart.append hr.apart fun before _ next hn => (h next hn).apart before

theorem IsCut.left_of_append {left right : List Token} (h : IsCut (left ++ right)) : IsCut left :=
  ⟨fun token ht => h.fits token (List.mem_append_left right ht), h.apart.left_of_append⟩

theorem IsCut.right_of_append {left right : List Token} (h : IsCut (left ++ right)) : IsCut right :=
  ⟨fun token ht => h.fits token (List.mem_append_right left ht), h.apart.right_of_append⟩

/-- The one character that the lexer adds leaves the cut right. -/
theorem isCut_push (c : Char) {later : List Token} (h : IsCut later) : IsCut (push c later) := by
  unfold push
  split
  · next digits rest hk =>
    obtain ⟨hfits, hhead, hrest⟩ := isCut_cons.1 h
    have hd : ∀ d ∈ digits, d.isDigit = true := by
      cases hfits with
      | digits _ hd => exact hd
      | symbol spelled => simp [TokenKind.spelling?] at spelled
    refine isCut_cons.2 ⟨.digits (List.cons_ne_nil c digits) ?_, hhead, hrest⟩
    rintro d (_ | ⟨_, hm⟩)
    · exact isDigit_of_ofChar hk
    · exact hd d hm
  · next letter rest hk =>
    obtain ⟨hfits, hhead, hrest⟩ := isCut_cons.1 h
    have hl : letter = ['l'] := by
      cases hfits with
      | symbol spelled => exact (Option.some.inj spelled).symm
    have hc : c = 'd' := by
      rcases ofChar_cases c with hc | hc | hc
      · simp [hk] at hc
      · simpa [hk, TokenKind.spelling?] using hc.symm
      · simp [hk] at hc
    subst hl hc
    refine isCut_cons.2 ⟨.symbol rfl, fun next _ => ⟨?_, ?_⟩, hrest⟩ <;>
      intro hn <;> exact absurd hn.1 (by decide)
  · next hnumber hletter =>
    refine isCut_cons.2 ⟨fits_ofChar c, ?_, h⟩
    rintro ⟨kind, text⟩ hn
    have hl := List.eq_cons_of_mem_head? hn
    constructor
    · rintro ⟨hk, rfl⟩
      exact hnumber text _ hk hl
    · rintro ⟨hk, rfl⟩
      exact hletter text _ hk hl

theorem isCut_lex (text : List Char) : IsCut (lex text) := by
  induction text with
  | nil => exact isCut_nil
  | cons c text ih => exact isCut_push c ih

/-- Every token of a text fits its kind. -/
theorem fits_of_mem_lex {text : List Char} {token : Token} (h : token ∈ lex text) : token.Fits :=
  (isCut_lex text).fits token h

end Token

end Tabletop
