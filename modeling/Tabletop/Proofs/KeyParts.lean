import Tabletop.TableKey.Parser

/-!
# The parts of a key's text

A key's text is cut into words, each behind a gap of spaces and tabs that may be empty. A part keeps
its word and whether the gap before it is empty. The main statements say which texts are cut into no
part, and which into a first part and others: that is all that the reader of keys knows of a text.
-/
namespace Tabletop

/-- A run of spaces and tabs; it may be empty. -/
structure Gap where
  chars : List Char
  isSpace : ∀ c ∈ chars, c = ' ' ∨ c = '\t'

namespace Gap

/-- There is a space or a tab. -/
def spaced (gap : Gap) : Bool := !gap.chars.isEmpty

def empty : Gap := ⟨[], by simp⟩

/-- A single space. -/
def space : Gap := ⟨[' '], by simp⟩

theorem spaced_space : space.spaced = true := rfl

/-- One more space or tab in front. -/
def push (c : Char) (h : c = ' ' ∨ c = '\t') (gap : Gap) : Gap :=
  ⟨c :: gap.chars, List.forall_mem_cons.2 ⟨h, gap.isSpace⟩⟩

end Gap

namespace KeyWord

def text : KeyWord → List Char
  | number digits => digits
  | plus => ['+']
  | minus => ['-']
  | or => ['o', 'r']
  | lower => ['l', 'o', 'w', 'e', 'r']

/-- A number has digits and nothing else. -/
def Fits : KeyWord → Prop
  | number digits => digits ≠ [] ∧ ∀ c ∈ digits, c.isDigit = true
  | _ => True

/-- What stands behind does not continue the word. -/
def EndsAt (word : KeyWord) (later : List Char) : Prop :=
  ∀ digits, word = number digits → ∀ c ∈ later.head?, c.isDigit = false

end KeyWord

namespace KeyPart

/-- Behind a gap the text begins with the part, and `later` stands behind it. Where `spaced` holds,
there are spaces or tabs before the text. -/
structure Begins (spaced : Bool) (text : List Char) (part : KeyPart) (later : List Char) : Prop where
  stands : ∃ gap : Gap, text = gap.chars ++ (part.word.text ++ later) ∧
    part.spaced = (spaced || gap.spaced)
  fits : part.word.Fits
  ends : part.word.EndsAt later

/-- Where no gap stands in front, the text begins with the word itself. -/
theorem Begins.eq_append {text later : List Char} {part : KeyPart} (h : Begins false text part later)
    (hspaced : part.spaced = false) : text = part.word.text ++ later := by
  obtain ⟨⟨chars, isSpace⟩, rfl, hgap⟩ := h.stands
  obtain rfl : chars = [] := by simpa [Gap.spaced, hspaced] using hgap
  rfl

section Lex

variable {spaced : Bool} {text later : List Char} {part : KeyPart} {rest : List KeyPart}

theorem lex_gap (gap : Gap) (spaced : Bool) (text : List Char) :
    lex spaced (gap.chars ++ text) = lex (spaced || gap.spaced) text := by
  obtain ⟨chars, isSpace⟩ := gap
  induction chars generalizing spaced with
  | nil => simp [Gap.spaced]
  | cons c chars ih =>
    obtain ⟨hc, hchars⟩ := List.forall_mem_cons.1 isSpace
    have hstep : lex spaced (c :: (chars ++ text)) = lex true (chars ++ text) := by
      rcases hc with rfl | rfl <;> simp [lex]
    rw [List.cons_append, hstep, ih true hchars]
    simp [Gap.spaced]

theorem lex_digit {c : Char} (h : c.isDigit = true) (spaced : Bool) (text : List Char) :
    lex spaced (c :: text) = (lex false text).map (pushDigit c spaced) := by
  have hspace : ¬ (c = ' ' ∨ c = '\t') := by
    rintro (rfl | rfl) <;> contradiction
  conv => lhs; unfold lex
  split <;> simp_all

theorem exists_pushDigit_eq (c : Char) (spaced : Bool) (parts : List KeyPart) :
    ∃ digits rest, pushDigit c spaced parts = ⟨.number (c :: digits), spaced⟩ :: rest := by
  unfold pushDigit
  split
  · exact ⟨_, _, rfl⟩
  · exact ⟨_, _, rfl⟩

/-! ## What a cut tells of the text -/

theorem exists_gap_of_lex_eq_nil (h : lex spaced text = some []) : ∃ gap : Gap, text = gap.chars := by
  fun_induction lex spaced text with
  | case1 spaced => exact ⟨.empty, rfl⟩
  | case6 spaced c text _ _ _ _ hc ih =>
    obtain ⟨gap, rfl⟩ := ih h
    exact ⟨gap.push c hc, rfl⟩
  | case7 spaced c text _ _ _ _ _ _ ih =>
    obtain ⟨parts, -, hparts⟩ := Option.map_eq_some_iff.1 h
    obtain ⟨digits, rest, hpush⟩ := exists_pushDigit_eq c spaced parts
    rw [hpush] at hparts
    contradiction
  | _ => simp at h

/-- A word that is no number ends where its letters do. -/
theorem begins_of_symbol (word : KeyWord) (fits : word.Fits) (hword : ∀ digits, word ≠ .number digits)
    (h : (lex false text).map (⟨word, spaced⟩ :: ·) = some (part :: rest)) :
    ∃ later, Begins spaced (word.text ++ text) part later ∧ lex false later = some rest := by
  obtain ⟨parts, hparts, heq⟩ := Option.map_eq_some_iff.1 h
  obtain ⟨rfl, rfl⟩ := List.cons.inj heq
  refine ⟨text, ⟨⟨.empty, rfl, ?_⟩, fits, fun digits hnumber => absurd hnumber (hword digits)⟩, hparts⟩
  exact (Bool.or_false spaced).symm

theorem begins_of_lex_eq_cons (h : lex spaced text = some (part :: rest)) :
    ∃ later, Begins spaced text part later ∧ lex false later = some rest := by
  fun_induction lex spaced text generalizing part rest with
  | case1 spaced => simp at h
  | case2 spaced text ih => exact begins_of_symbol .plus trivial (by simp) h
  | case3 spaced text ih => exact begins_of_symbol .minus trivial (by simp) h
  | case4 spaced text ih => exact begins_of_symbol .or trivial (by simp) h
  | case5 spaced text ih => exact begins_of_symbol .lower trivial (by simp) h
  | case6 spaced c text _ _ _ _ hc ih =>
    obtain ⟨later, ⟨⟨gap, rfl, hspaced⟩, fits, ends⟩, hlater⟩ := ih h
    refine ⟨later, ⟨⟨gap.push c hc, rfl, ?_⟩, fits, ends⟩, hlater⟩
    rw [hspaced]
    exact (Bool.or_true spaced).symm
  | case7 spaced c text _ _ _ _ _ hc ih =>
    obtain ⟨parts, hparts, hpush⟩ := Option.map_eq_some_iff.1 h
    unfold pushDigit at hpush
    split at hpush
    · next digits parts =>
      obtain ⟨rfl, rfl⟩ := List.cons.inj hpush
      obtain ⟨later, hbegins, hlater⟩ := ih hparts
      obtain rfl := hbegins.eq_append rfl
      refine ⟨later, ⟨⟨.empty, rfl, (Bool.or_false spaced).symm⟩, ?_, ?_⟩, hlater⟩
      · exact ⟨List.cons_ne_nil c digits, List.forall_mem_cons.2 ⟨hc, hbegins.fits.2⟩⟩
      · intro _ _
        exact hbegins.ends digits rfl
    · next hjoins =>
      obtain ⟨rfl, rfl⟩ := List.cons.inj hpush
      refine ⟨text, ⟨⟨.empty, rfl, (Bool.or_false spaced).symm⟩, ?_, ?_⟩, hparts⟩
      · exact ⟨List.cons_ne_nil c [], by simpa using hc⟩
      · intro _ _ d hd
        obtain ⟨text, rfl⟩ := List.head?_eq_some_iff.1 hd
        refine Bool.eq_false_iff.2 fun hdigit => ?_
        rw [lex_digit hdigit] at hparts
        obtain ⟨parts', -, rfl⟩ := Option.map_eq_some_iff.1 hparts
        obtain ⟨digits, rest, hpush⟩ := exists_pushDigit_eq d false parts'
        exact hjoins _ rest hpush
  | case8 => simp at h

/-! ## What the text tells of its cut -/

/-- Digits before a text that goes on otherwise become one number. -/
theorem lex_number {digits : List Char} (nonempty : digits ≠ []) (hdigits : ∀ c ∈ digits, c.isDigit = true)
    (ends : ∀ c ∈ text.head?, c.isDigit = false) :
    lex spaced (digits ++ text) = (lex false text).map (⟨.number digits, spaced⟩ :: ·) := by
  induction digits generalizing spaced with
  | nil => exact absurd rfl nonempty
  | cons c digits ih =>
    obtain ⟨hc, hrest⟩ := List.forall_mem_cons.1 hdigits
    rw [List.cons_append, lex_digit hc]
    cases digits with
    | nil =>
      rw [List.nil_append]
      cases hparts : lex false text with
      | none => rfl
      | some parts =>
        have hpush : pushDigit c spaced parts = ⟨.number [c], spaced⟩ :: parts := by
          unfold pushDigit
          split
          · next digits parts =>
            obtain ⟨later, hbegins, -⟩ := begins_of_lex_eq_cons hparts
            obtain ⟨d, digits, rfl⟩ := List.exists_cons_of_ne_nil hbegins.fits.1
            obtain rfl := hbegins.eq_append rfl
            have hdigit : d.isDigit = true := hbegins.fits.2 d List.mem_cons_self
            rw [ends d rfl] at hdigit
            exact absurd hdigit Bool.false_ne_true
          · rfl
        rw [Option.map_some, hpush, Option.map_some]
    | cons d digits =>
      rw [ih (List.cons_ne_nil d digits) hrest, Option.map_map]
      rfl

theorem lex_word {word : KeyWord} (fits : word.Fits) (ends : word.EndsAt text) :
    lex spaced (word.text ++ text) = (lex false text).map (⟨word, spaced⟩ :: ·) := by
  cases word with
  | number digits => exact lex_number fits.1 fits.2 (ends digits rfl)
  | plus | minus | or | lower => simp [KeyWord.text, lex]

theorem lex_eq_nil_iff : lex spaced text = some [] ↔ ∃ gap : Gap, text = gap.chars := by
  constructor
  · exact exists_gap_of_lex_eq_nil
  · intro h
    obtain ⟨gap, rfl⟩ := h
    have hgap := lex_gap gap spaced []
    rw [List.append_nil] at hgap
    rw [hgap, lex]

/-- A text is cut into a part and others exactly when it begins with the part and what stands behind
is cut into the others. -/
theorem lex_eq_cons_iff : lex spaced text = some (part :: rest) ↔
    ∃ later, Begins spaced text part later ∧ lex false later = some rest := by
  constructor
  · exact begins_of_lex_eq_cons
  · intro h
    obtain ⟨later, ⟨⟨gap, rfl, hspaced⟩, fits, ends⟩, hlater⟩ := h
    rw [lex_gap, lex_word fits ends, hlater, ← hspaced]
    rfl

end Lex

end KeyPart

end Tabletop
