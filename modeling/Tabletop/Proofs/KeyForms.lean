import Tabletop.Proofs.Form
import Tabletop.Proofs.KeyParts

/-!
# Written forms of table keys

The grammar of table keys, character by character and apart from the reader:

    N    N+    N-N    N or lower

with digits for `N`. Spaces and tabs may stand at both ends and around the signs; around the two words
there must be some. A form is one way of filling in this grammar, and it denotes a range when its
numbers are not beyond the greatest total. The reader accepts the texts of such forms and no others.
-/
namespace Tabletop

inductive KeyForm where
  | single (n : Numeral)
  | atLeast (n : Numeral) (gap : Gap)
  | between (n : Numeral) (gap gap' : Gap) (m : Numeral)
  | atMost (n : Numeral) (gap gap' : Gap) (spaced : gap.spaced = true) (spaced' : gap'.spaced = true)

namespace KeyForm

/-- The text without what stands at its ends. -/
def text : KeyForm → List Char
  | single n => n.digits
  | atLeast n gap => n.digits ++ gap.chars ++ ['+']
  | between n gap gap' m => n.digits ++ gap.chars ++ ['-'] ++ gap'.chars ++ m.digits
  | atMost n gap gap' _ _ =>
    n.digits ++ gap.chars ++ ['o', 'r'] ++ gap'.chars ++ ['l', 'o', 'w', 'e', 'r']

/-- The text is the form's, with spaces and tabs at its ends. -/
def Writes (form : KeyForm) (text : List Char) : Prop :=
  ∃ left right : Gap, text = left.chars ++ form.text ++ right.chars

def numerals : KeyForm → List Numeral
  | single n | atLeast n _ | atMost n _ _ _ _ => [n]
  | between n _ _ m => [n, m]

/-- No number is beyond the greatest total. -/
def InRange (form : KeyForm) : Prop :=
  ∀ n ∈ form.numerals, (n.value : Int) ≤ Bound.greatest

def lower? : KeyForm → Option Nat
  | single n | atLeast n _ => some n.value
  | between n _ _ m => some (min n.value m.value)
  | atMost _ _ _ _ _ => none

def upper? : KeyForm → Option Nat
  | single n | atMost n _ _ _ _ => some n.value
  | between n _ _ m => some (max n.value m.value)
  | atLeast _ _ => none

/-- The form is a way of writing the range. -/
structure Denotes (form : KeyForm) (range : TotalRange) : Prop where
  lower : range.lower?.map Bound.val = form.lower?.map Nat.cast
  upper : range.upper?.map Bound.val = form.upper?.map Nat.cast

theorem Denotes.inRange {form : KeyForm} {range : TotalRange} (h : form.Denotes range) :
    form.InRange := by
  have hlow : ∀ n ∈ form.lower?, (n : Int) ≤ Bound.greatest := by
    intro n hn
    obtain ⟨bound, -, hbound⟩ := Option.map_eq_some_iff.1 (h.lower.trans (congrArg _ hn))
    exact hbound ▸ bound.le_greatest
  have hhigh : ∀ n ∈ form.upper?, (n : Int) ≤ Bound.greatest := by
    intro n hn
    obtain ⟨bound, -, hbound⟩ := Option.map_eq_some_iff.1 (h.upper.trans (congrArg _ hn))
    exact hbound ▸ bound.le_greatest
  cases form with
  | single n => exact List.forall_mem_singleton.2 (hlow n.value rfl)
  | atLeast n gap => exact List.forall_mem_singleton.2 (hlow n.value rfl)
  | atMost n gap gap' spaced spaced' => exact List.forall_mem_singleton.2 (hhigh n.value rfl)
  | between n gap gap' m =>
    have hmax := hhigh (max n.value m.value) rfl
    refine List.forall_mem_cons.2 ⟨?_, List.forall_mem_singleton.2 ?_⟩ <;> omega

end KeyForm

theorem Bound.ofDigits?_eq_some_iff {digits : List Char} {bound : Bound} :
    ofDigits? digits = some bound ↔ bound.val = Decimal.value digits := by
  have hleast := bound.least_le
  have hgreatest := bound.le_greatest
  unfold ofDigits? ofInt?
  split
  · rw [Option.some.injEq]
    constructor
    · rintro rfl
      rfl
    · intro h
      exact ext_val h.symm
  · next hn =>
    simp only [reduceCtorEq, false_iff]
    omega

namespace TotalRange

/-- A range is told by its bounds. -/
theorem ext_bounds {a b : TotalRange} (hlower : a.lower? = b.lower?) (hupper : a.upper? = b.upper?) :
    a = b := by
  cases a <;> cases b <;> simp_all [lower?, upper?]

theorem lower?_spanning (a b : Bound) :
    (spanning a b).lower?.map Bound.val = some (min a.val b.val) := by
  unfold spanning
  split
  · next h => exact congrArg some (Int.min_eq_left h).symm
  · next h => exact congrArg some (Int.min_eq_right (Int.le_of_lt (Int.lt_of_not_ge h))).symm

theorem upper?_spanning (a b : Bound) :
    (spanning a b).upper?.map Bound.val = some (max a.val b.val) := by
  unfold spanning
  split
  · next h => exact congrArg some (Int.max_eq_right h).symm
  · next h => exact congrArg some (Int.max_eq_left (Int.le_of_lt (Int.lt_of_not_ge h))).symm

end TotalRange

namespace KeyForm

theorem Denotes.unique {form : KeyForm} {a b : TotalRange} (ha : form.Denotes a)
    (hb : form.Denotes b) : a = b := by
  have hval : Function.Injective Bound.val := fun _ _ => Bound.ext_val
  exact TotalRange.ext_bounds (Option.map_injective hval (ha.lower.trans hb.lower.symm))
    (Option.map_injective hval (ha.upper.trans hb.upper.symm))

section Denotes

variable {n m : Numeral} {a b : Bound} {gap gap' : Gap}

theorem denotes_single (h : a.val = n.value) : (single n).Denotes (.single a) :=
  ⟨congrArg some h, congrArg some h⟩

theorem denotes_atLeast (h : a.val = n.value) : (atLeast n gap).Denotes (.atLeast a) :=
  ⟨congrArg some h, rfl⟩

theorem denotes_between (ha : a.val = n.value) (hb : b.val = m.value) :
    (between n gap gap' m).Denotes (.spanning a b) := by
  refine ⟨(TotalRange.lower?_spanning a b).trans ?_, (TotalRange.upper?_spanning a b).trans ?_⟩
  · show some (min a.val b.val) = some ((min n.value m.value : Nat) : Int)
    rw [ha, hb, Option.some.injEq]
    omega
  · show some (max a.val b.val) = some ((max n.value m.value : Nat) : Int)
    rw [ha, hb, Option.some.injEq]
    omega

theorem denotes_atMost {spaced : gap.spaced = true} {spaced' : gap'.spaced = true}
    (h : a.val = n.value) : (atMost n gap gap' spaced spaced').Denotes (.atMost a) :=
  ⟨rfl, congrArg some h⟩

end Denotes

/-! ## Parts of forms -/

/-- The parts of the text, the first of which stands behind a gap or does not. -/
def parts (spaced : Bool) : KeyForm → List KeyPart
  | single n => [⟨.number n.digits, spaced⟩]
  | atLeast n gap => [⟨.number n.digits, spaced⟩, ⟨.plus, gap.spaced⟩]
  | between n gap gap' m =>
    [⟨.number n.digits, spaced⟩, ⟨.minus, gap.spaced⟩, ⟨.number m.digits, gap'.spaced⟩]
  | atMost n gap gap' _ _ =>
    [⟨.number n.digits, spaced⟩, ⟨.or, gap.spaced⟩, ⟨.lower, gap'.spaced⟩]

theorem lex_number_behind (gap : Gap) (n : Numeral) {later : List Char}
    (ends : ∀ c ∈ later.head?, c.isDigit = false) :
    KeyPart.lex false (gap.chars ++ (n.digits ++ later)) =
      (KeyPart.lex false later).map (⟨.number n.digits, gap.spaced⟩ :: ·) := by
  rw [KeyPart.lex_gap, KeyPart.lex_number n.nonempty n.isDigit ends, Bool.false_or]

theorem lex_symbol_behind (gap : Gap) (word : KeyWord) (fits : word.Fits)
    (hword : ∀ digits, word ≠ .number digits) (later : List Char) :
    KeyPart.lex false (gap.chars ++ (word.text ++ later)) =
      (KeyPart.lex false later).map (⟨word, gap.spaced⟩ :: ·) := by
  have ends : word.EndsAt later := fun digits hdigits => absurd hdigits (hword digits)
  rw [KeyPart.lex_gap, KeyPart.lex_word fits ends, Bool.false_or]

/-- Neither a gap nor a symbol behind it continues a number. -/
theorem ends_gap (gap : Gap) {later : List Char} (h : ∀ c ∈ later.head?, c.isDigit = false) :
    ∀ c ∈ (gap.chars ++ later).head?, c.isDigit = false := by
  obtain ⟨chars, isSpace⟩ := gap
  cases chars with
  | nil => exact h
  | cons c chars =>
    intro d hd
    obtain rfl := Option.some.inj hd
    rcases isSpace c List.mem_cons_self with rfl | rfl <;> rfl

/-- The text of a form is cut into its parts. -/
theorem lex_of_writes (form : KeyForm) (left right : Gap) :
    KeyPart.lex false (left.chars ++ form.text ++ right.chars) = some (form.parts left.spaced) := by
  have hright : KeyPart.lex false right.chars = some [] := KeyPart.lex_eq_nil_iff.2 ⟨right, rfl⟩
  have hend : ∀ c ∈ right.chars.head?, c.isDigit = false := by
    have hends : ∀ c ∈ (right.chars ++ []).head?, c.isDigit = false := ends_gap right (by simp)
    rwa [List.append_nil] at hends
  cases form with
  | single n =>
    rw [text, List.append_assoc, lex_number_behind left n hend, hright]
    rfl
  | atLeast n gap =>
    have hplus : KeyPart.lex false (gap.chars ++ '+' :: right.chars) = _ :=
      lex_symbol_behind gap .plus trivial (by simp) right.chars
    simp only [text, List.append_assoc, List.cons_append, List.nil_append]
    rw [lex_number_behind left n (ends_gap gap (by simp)), hplus, hright]
    rfl
  | between n gap gap' m =>
    have hminus : KeyPart.lex false (gap.chars ++ '-' :: (gap'.chars ++ (m.digits ++ right.chars))) = _ :=
      lex_symbol_behind gap .minus trivial (by simp)
        (gap'.chars ++ (m.digits ++ right.chars))
    simp only [text, List.append_assoc, List.cons_append, List.nil_append]
    rw [lex_number_behind left n (ends_gap gap (by simp)), hminus, lex_number_behind gap' m hend, hright]
    rfl
  | atMost n gap gap' spaced spaced' =>
    have hor : KeyPart.lex false
        (gap.chars ++ 'o' :: 'r' :: (gap'.chars ++ 'l' :: 'o' :: 'w' :: 'e' :: 'r' :: right.chars)) = _ :=
      lex_symbol_behind gap .or trivial (by simp)
        (gap'.chars ++ 'l' :: 'o' :: 'w' :: 'e' :: 'r' :: right.chars)
    have hlower : KeyPart.lex false (gap'.chars ++ 'l' :: 'o' :: 'w' :: 'e' :: 'r' :: right.chars) = _ :=
      lex_symbol_behind gap' .lower trivial (by simp) right.chars
    simp only [text, List.append_assoc, List.cons_append, List.nil_append]
    rw [lex_number_behind left n (ends_gap gap (by simp)), hor, hlower, hright]
    rfl

/-- What the parts of a form are read as is what it denotes. -/
theorem rangeOf?_parts {form : KeyForm} (h : form.InRange) (spaced : Bool) :
    ∃ range, TableKey.rangeOf? (form.parts spaced) = some range ∧ form.Denotes range := by
  have hbound : ∀ n ∈ form.numerals, ∃ bound,
      Bound.ofDigits? n.digits = some bound ∧ bound.val = n.value := by
    intro n hn
    have hleast : Bound.least ≤ (n.value : Int) := Int.le_trans (by decide) (Int.natCast_nonneg n.value)
    exact ⟨⟨n.value, hleast, h n hn⟩, Bound.ofDigits?_eq_some_iff.2 rfl, rfl⟩
  cases form with
  | single n =>
    obtain ⟨bound, hread, hval⟩ := hbound n List.mem_cons_self
    refine ⟨.single bound, ?_, denotes_single hval⟩
    rw [parts, TableKey.rangeOf?, hread]
    rfl
  | atLeast n gap =>
    obtain ⟨bound, hread, hval⟩ := hbound n List.mem_cons_self
    refine ⟨.atLeast bound, ?_, denotes_atLeast hval⟩
    rw [parts, TableKey.rangeOf?, hread]
    rfl
  | between n gap gap' m =>
    obtain ⟨a, ha, hval⟩ := hbound n List.mem_cons_self
    obtain ⟨b, hb, hval'⟩ := hbound m (List.mem_cons_of_mem n List.mem_cons_self)
    refine ⟨.spanning a b, ?_, denotes_between hval hval'⟩
    rw [parts, TableKey.rangeOf?, ha, hb]
  | atMost n gap gap' spaced spaced' =>
    obtain ⟨bound, hread, hval⟩ := hbound n List.mem_cons_self
    refine ⟨.atMost bound, ?_, denotes_atMost hval⟩
    rw [parts, spaced, spaced', TableKey.rangeOf?, hread]
    rfl

end KeyForm

namespace TableKey

open KeyPart

/-- A number in front is a numeral behind a gap. -/
theorem exists_numeral_of_lex {text digits : List Char} {spaced : Bool} {rest : List KeyPart}
    (h : lex false text = some (⟨.number digits, spaced⟩ :: rest)) : ∃ (gap : Gap) (n : Numeral)
      (later : List Char), text = gap.chars ++ (n.digits ++ later) ∧ n.digits = digits ∧
        lex false later = some rest := by
  obtain ⟨later, ⟨⟨gap, rfl, -⟩, fits, -⟩, hlater⟩ := lex_eq_cons_iff.1 h
  exact ⟨gap, ⟨digits, fits.1, fits.2⟩, later, rfl, rfl, hlater⟩

/-- Parts that are read as a range are those of a form that denotes it. -/
theorem exists_form_of_rangeOf? {text : List Char} {parts : List KeyPart} {range : TotalRange}
    (hlex : lex false text = some parts) (h : rangeOf? parts = some range) :
    ∃ form : KeyForm, form.Writes text ∧ form.Denotes range := by
  unfold rangeOf? at h
  split at h
  · obtain ⟨bound, hbound, rfl⟩ := Option.map_eq_some_iff.1 h
    obtain ⟨left, n, later, rfl, rfl, hend⟩ := exists_numeral_of_lex hlex
    obtain ⟨right, rfl⟩ := lex_eq_nil_iff.1 hend
    refine ⟨.single n, ⟨left, right, ?_⟩, ?_⟩
    · simp [KeyForm.text]
    · exact KeyForm.denotes_single (Bound.ofDigits?_eq_some_iff.1 hbound)
  · obtain ⟨bound, hbound, rfl⟩ := Option.map_eq_some_iff.1 h
    obtain ⟨left, n, _, rfl, rfl, hplus⟩ := exists_numeral_of_lex hlex
    obtain ⟨later, ⟨⟨gap, rfl, -⟩, -, -⟩, hend⟩ := lex_eq_cons_iff.1 hplus
    obtain ⟨right, rfl⟩ := lex_eq_nil_iff.1 hend
    refine ⟨.atLeast n gap, ⟨left, right, ?_⟩, ?_⟩
    · simp [KeyForm.text, KeyWord.text]
    · exact KeyForm.denotes_atLeast (Bound.ofDigits?_eq_some_iff.1 hbound)
  · obtain ⟨bound, hbound, rfl⟩ := Option.map_eq_some_iff.1 h
    obtain ⟨left, n, _, rfl, rfl, hor⟩ := exists_numeral_of_lex hlex
    obtain ⟨_, ⟨⟨gap, rfl, hgap⟩, -, -⟩, hlower⟩ := lex_eq_cons_iff.1 hor
    obtain ⟨later, ⟨⟨gap', rfl, hgap'⟩, -, -⟩, hend⟩ := lex_eq_cons_iff.1 hlower
    obtain ⟨right, rfl⟩ := lex_eq_nil_iff.1 hend
    refine ⟨.atMost n gap gap' hgap.symm hgap'.symm, ⟨left, right, ?_⟩, ?_⟩
    · simp [KeyForm.text, KeyWord.text]
    · exact KeyForm.denotes_atMost (Bound.ofDigits?_eq_some_iff.1 hbound)
  · split at h
    · next a b ha hb =>
      obtain rfl := Option.some.inj h
      obtain ⟨left, n, _, rfl, rfl, hminus⟩ := exists_numeral_of_lex hlex
      obtain ⟨_, ⟨⟨gap, rfl, -⟩, -, -⟩, hsecond⟩ := lex_eq_cons_iff.1 hminus
      obtain ⟨gap', m, later, rfl, rfl, hend⟩ := exists_numeral_of_lex hsecond
      obtain ⟨right, rfl⟩ := lex_eq_nil_iff.1 hend
      refine ⟨.between n gap gap' m, ⟨left, right, ?_⟩, ?_⟩
      · simp [KeyForm.text, KeyWord.text]
      · exact KeyForm.denotes_between (Bound.ofDigits?_eq_some_iff.1 ha)
          (Bound.ofDigits?_eq_some_iff.1 hb)
    · contradiction
  · contradiction

/-- The reader finds a range exactly where a form of the text denotes it. -/
theorem bind_rangeOf?_eq_some_iff {text : List Char} {range : TotalRange} :
    (lex false text).bind rangeOf? = some range ↔
      ∃ form : KeyForm, form.Writes text ∧ form.Denotes range := by
  constructor
  · intro h
    obtain ⟨parts, hlex, hrange⟩ := Option.bind_eq_some_iff.1 h
    exact exists_form_of_rangeOf? hlex hrange
  · intro h
    obtain ⟨form, ⟨left, right, rfl⟩, hdenotes⟩ := h
    obtain ⟨range', hread, hdenotes'⟩ := KeyForm.rangeOf?_parts hdenotes.inRange left.spaced
    rw [form.lex_of_writes, Option.bind_some, hread, hdenotes.unique hdenotes']

theorem parse_eq_ok_iff {text : List Char} {key : TableKey} : parse text = .ok key ↔
    (∃ form : KeyForm, form.Writes text ∧ form.Denotes key.range) ∧ key.label = text := by
  rw [← bind_rangeOf?_eq_some_iff]
  unfold parse
  split
  · next h => simp [h]
  · next range h =>
    rw [h, Except.ok.injEq, Option.some.injEq]
    constructor
    · intro heq
      exact heq ▸ ⟨rfl, rfl⟩
    · intro hkey
      obtain ⟨rfl, rfl⟩ := hkey
      rfl

theorem exists_parse_eq_ok_iff {text : List Char} : (∃ key, parse text = .ok key) ↔
    ∃ form : KeyForm, form.Writes text ∧ form.InRange := by
  constructor
  · intro h
    obtain ⟨key, hkey⟩ := h
    obtain ⟨⟨form, hwrites, hdenotes⟩, -⟩ := parse_eq_ok_iff.1 hkey
    exact ⟨form, hwrites, hdenotes.inRange⟩
  · intro h
    obtain ⟨form, hwrites, hrange⟩ := h
    obtain ⟨range, -, hdenotes⟩ := KeyForm.rangeOf?_parts hrange false
    exact ⟨⟨range, text⟩, parse_eq_ok_iff.2 ⟨⟨form, hwrites, hdenotes⟩, rfl⟩⟩

theorem parse_eq_error_iff {text : List Char} {e : TableError} : parse text = .error e ↔
    (¬ ∃ form : KeyForm, form.Writes text ∧ form.InRange) ∧ e = .invalidKey text := by
  rw [← exists_parse_eq_ok_iff]
  unfold parse
  split
  · simp [eq_comm]
  · simp

/-- A text is a key exactly when it is written in one of the four forms with no number beyond the
greatest total. The form then tells the bounds, and the label is the text as it stands; any other
text is refused as no key, and the error keeps it as it stands. -/
theorem parse_accepts_forms (text : List Char) :
    (∀ key, parse text = .ok key ↔
      (∃ form : KeyForm, form.Writes text ∧ form.Denotes key.range) ∧ key.label = text) ∧
    ((∃ key, parse text = .ok key) ↔ ∃ form : KeyForm, form.Writes text ∧ form.InRange) ∧
    (∀ e, parse text = .error e ↔
      (¬ ∃ form : KeyForm, form.Writes text ∧ form.InRange) ∧ e = .invalidKey text) :=
  ⟨fun _ => parse_eq_ok_iff, exists_parse_eq_ok_iff, fun _ => parse_eq_error_iff⟩

/-- Spaces and tabs are free around a sign, but they have to stand around a word. -/
example : (parse " 12 -\t19 ".toList).isOk = true ∧ (parse "1 or\tlower".toList).isOk = true ∧
    (parse "1or lower".toList).isOk = false := by
  decide

end TableKey

end Tabletop
