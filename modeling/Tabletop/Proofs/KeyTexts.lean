import Tabletop.Proofs.KeyForms

/-!
# Canonical texts of keys read back

The canonical text of a range without negative bounds is that of a form which denotes the range, so it
is read as the same range. A minus sign is the sign between two numbers to the reader, never that of a
number: the text of any other range begins with one, and such a text is no key at all.
-/
namespace Tabletop

namespace TotalRange

/-- The bounds that the range has, one or two. -/
def bounds (range : TotalRange) : List Bound :=
  range.lower?.toList ++ range.upper?.toList

/-- How the range is written, which is right where no bound is negative. -/
def form : TotalRange → KeyForm
  | between low high _ =>
    if low.val = high.val then .single (Numeral.ofNat low.val.natAbs)
    else .between (Numeral.ofNat low.val.natAbs) .empty .empty (Numeral.ofNat high.val.natAbs)
  | atLeast low => .atLeast (Numeral.ofNat low.val.natAbs) .empty
  | atMost high => .atMost (Numeral.ofNat high.val.natAbs) .space .space Gap.spaced_space Gap.spaced_space

end TotalRange

theorem Decimal.ofInt_of_nonneg {n : Int} (h : 0 ≤ n) : ofInt n = ofNat n.natAbs :=
  if_neg (Int.not_lt.2 h)

theorem Decimal.ofInt_of_neg {n : Int} (h : n < 0) : ofInt n = '-' :: ofNat n.natAbs :=
  if_pos h

namespace TotalRange

variable {range : TotalRange}

theorem text_form (h : ∀ bound ∈ range.bounds, 0 ≤ bound.val) : range.form.text = range.text := by
  cases range with
  | between low high ordered =>
    have hlow : 0 ≤ low.val := h low (by simp [bounds, lower?])
    have hhigh : 0 ≤ high.val := by omega
    rw [form, text, Decimal.ofInt_of_nonneg hlow, Decimal.ofInt_of_nonneg hhigh]
    by_cases hone : low.val = high.val
    · rw [if_pos hone, if_pos hone]
      rfl
    · rw [if_neg hone, if_neg hone]
      simp [KeyForm.text, Numeral.ofNat, Gap.empty]
  | atLeast low =>
    have hlow : 0 ≤ low.val := h low (by simp [bounds, lower?])
    rw [form, text, Decimal.ofInt_of_nonneg hlow]
    simp [KeyForm.text, Numeral.ofNat, Gap.empty]
  | atMost high =>
    have hhigh : 0 ≤ high.val := h high (by simp [bounds, lower?, upper?])
    rw [form, text, Decimal.ofInt_of_nonneg hhigh]
    simp [KeyForm.text, Numeral.ofNat, Gap.space]

theorem denotes_form (h : ∀ bound ∈ range.bounds, 0 ≤ bound.val) : range.form.Denotes range := by
  have hvalue : ∀ bound ∈ range.bounds, bound.val = (Numeral.ofNat bound.val.natAbs).value := by
    intro bound hbound
    have hnonneg := h bound hbound
    rw [Numeral.value_ofNat]
    omega
  cases range with
  | between low high ordered =>
    have hlow := hvalue low (by simp [bounds, lower?])
    have hhigh := hvalue high (by simp [bounds, upper?])
    rw [form]
    split
    · next hone =>
      obtain rfl := Bound.ext_val hone
      exact KeyForm.denotes_single hlow
    · have hspanning : spanning low high = between low high ordered := dif_pos ordered
      exact hspanning ▸ KeyForm.denotes_between hlow hhigh
  | atLeast low => exact KeyForm.denotes_atLeast (hvalue low (by simp [bounds, lower?]))
  | atMost high => exact KeyForm.denotes_atMost (hvalue high (by simp [bounds, lower?, upper?]))

/-- The first of two bounds is the lesser, so a minus sign comes first if there is any. -/
theorem exists_text_eq_cons (h : ∃ bound ∈ range.bounds, bound.val < 0) :
    ∃ later, range.text = '-' :: later := by
  obtain ⟨bound, hmem, hneg⟩ := h
  cases range with
  | between low high ordered =>
    have hlow : low.val < 0 := by
      have hbound : bound = low ∨ bound = high := by simpa [bounds, lower?, upper?] using hmem
      rcases hbound with rfl | rfl <;> omega
    rw [text, Decimal.ofInt_of_neg hlow]
    split
    · exact ⟨_, rfl⟩
    · exact ⟨_, rfl⟩
  | atLeast low =>
    obtain rfl : bound = low := by simpa [bounds, lower?, upper?] using hmem
    rw [text, Decimal.ofInt_of_neg hneg]
    exact ⟨_, rfl⟩
  | atMost high =>
    obtain rfl : bound = high := by simpa [bounds, lower?, upper?] using hmem
    rw [text, Decimal.ofInt_of_neg hneg]
    exact ⟨_, rfl⟩

end TotalRange

/-- No form is written with a minus sign in front: first comes a number. -/
theorem KeyForm.not_writes_minus (form : KeyForm) (later : List Char) :
    ¬ form.Writes ('-' :: later) := by
  intro h
  obtain ⟨left, right, heq⟩ := h
  have hlex := form.lex_of_writes left right
  have hminus : KeyPart.lex false ('-' :: later) =
      (KeyPart.lex false later).map (⟨.minus, false⟩ :: ·) := by
    simp [KeyPart.lex]
  rw [← heq, hminus] at hlex
  obtain ⟨rest, -, hparts⟩ := Option.map_eq_some_iff.1 hlex
  cases form <;> simp [parts] at hparts

/-- A form denotes no negative bound. -/
theorem KeyForm.Denotes.nonneg {form : KeyForm} {range : TotalRange} (h : form.Denotes range) :
    ∀ bound ∈ range.bounds, 0 ≤ bound.val := by
  intro bound hbound
  have hcast : ∀ {bound? : Option Bound} {n? : Option Nat}, bound?.map Bound.val = n?.map Nat.cast →
      bound ∈ bound? → 0 ≤ bound.val := by
    intro bound? n? heq hmem
    have hval : n?.map Nat.cast = some bound.val := heq.symm.trans (congrArg _ hmem)
    obtain ⟨n, -, hn⟩ := Option.map_eq_some_iff.1 hval
    exact hn ▸ Int.natCast_nonneg n
  rcases List.mem_append.1 hbound with hlower | hupper
  · exact hcast h.lower (Option.mem_toList.1 hlower)
  · exact hcast h.upper (Option.mem_toList.1 hupper)

namespace TableKey

/-- The keys that are made of bounds. -/
inductive Made : TableKey → Prop
  | ofBounds {lower upper : Option Bound} {key : TableKey} (h : ofBounds lower upper = .ok key) : Made key
  | single (n : Bound) : Made (single n)
  | spanning (a b : Bound) : Made (spanning a b)

theorem Made.label {key : TableKey} (h : key.Made) : key.label = key.text := by
  cases h with
  | @ofBounds lower upper _ h =>
    unfold TableKey.ofBounds at h
    split at h
    · contradiction
    · obtain rfl := Except.ok.inj h
      rfl
  | single n => rfl
  | spanning a b => rfl

theorem parse_text (key : TableKey) (h : ∀ bound ∈ key.range.bounds, 0 ≤ bound.val) :
    parse key.text = .ok ⟨key.range, key.text⟩ := by
  refine parse_eq_ok_iff.2 ⟨⟨key.range.form, ⟨.empty, .empty, ?_⟩, TotalRange.denotes_form h⟩, rfl⟩
  rw [TotalRange.text_form h]
  exact (List.append_nil _).symm

theorem parse_text_of_neg (key : TableKey) (h : ∃ bound ∈ key.range.bounds, bound.val < 0) :
    parse key.text = .error (.invalidKey key.text) := by
  obtain ⟨later, htext⟩ := TotalRange.exists_text_eq_cons h
  refine parse_eq_error_iff.2 ⟨?_, rfl⟩
  intro hform
  obtain ⟨form, hwrites, -⟩ := hform
  have hminus : form.Writes ('-' :: later) := htext ▸ hwrites
  exact form.not_writes_minus later hminus

theorem nonneg_of_parse_eq_ok {text : List Char} {key : TableKey} (h : parse text = .ok key) :
    ∀ bound ∈ key.range.bounds, 0 ≤ bound.val := by
  obtain ⟨⟨form, -, hdenotes⟩, -⟩ := parse_eq_ok_iff.1 h
  exact hdenotes.nonneg

/-- The canonical text of a key without negative bounds is read as the same bounds, and as the key
itself where the key was made of bounds. The canonical text of any other key is refused. No key that
was read has a negative bound, so it is read from its canonical text again. -/
theorem canonical_text_is_read_or_refused :
    (∀ key : TableKey, (∀ bound ∈ key.range.bounds, 0 ≤ bound.val) →
      ∃ back, parse key.text = .ok back ∧ back.range = key.range) ∧
    (∀ key : TableKey, key.Made → (∀ bound ∈ key.range.bounds, 0 ≤ bound.val) →
      parse key.text = .ok key) ∧
    (∀ key : TableKey, (∃ bound ∈ key.range.bounds, bound.val < 0) →
      parse key.text = .error (.invalidKey key.text)) ∧
    (∀ text key, parse text = .ok key → (∀ bound ∈ key.range.bounds, 0 ≤ bound.val) ∧
      ∃ back, parse key.text = .ok back ∧ back.range = key.range) := by
  refine ⟨?_, ?_, parse_text_of_neg, ?_⟩
  · intro key h
    exact ⟨_, parse_text key h, rfl⟩
  · intro key hmade h
    rw [parse_text key h, ← hmade.label]
  · intro text key h
    have hnonneg := nonneg_of_parse_eq_ok h
    exact ⟨hnonneg, _, parse_text key hnonneg, rfl⟩

/-- A key with two bounds out of order, a key that was read with gaps, and one whose text holds three
minus signs. -/
theorem canonical_text_of_swapped_spread_and_negative : ∃ swapped spread negative : TableKey,
    swapped.Made ∧ (∀ bound ∈ swapped.range.bounds, 0 ≤ bound.val) ∧
      swapped.text = "3-9".toList ∧ parse swapped.text = .ok swapped ∧
    parse " 6 - 4 ".toList = .ok spread ∧ spread.text = "4-6".toList ∧
      (∃ back, parse spread.text = .ok back ∧ back.range = spread.range) ∧
    (∃ bound ∈ negative.range.bounds, bound.val < 0) ∧ negative.text = "-5--3".toList ∧
      parse negative.text = .error (.invalidKey negative.text) := by
  obtain ⟨-, hmade, hneg, hread⟩ := canonical_text_is_read_or_refused
  let swapped := spanning ⟨9, by decide, by decide⟩ ⟨3, by decide, by decide⟩
  let spread : TableKey :=
    ⟨.between ⟨4, by decide, by decide⟩ ⟨6, by decide, by decide⟩ (by decide), " 6 - 4 ".toList⟩
  let negative := spanning ⟨-5, by decide, by decide⟩ ⟨-3, by decide, by decide⟩
  have hswapped : ∀ bound ∈ swapped.range.bounds, 0 ≤ bound.val := by decide
  have hspread : parse " 6 - 4 ".toList = .ok spread := by decide
  have hnegative : ∃ bound ∈ negative.range.bounds, bound.val < 0 := by decide
  exact ⟨swapped, spread, negative, .spanning _ _, hswapped, by decide,
    hmade swapped (.spanning _ _) hswapped, hspread, by decide, (hread _ spread hspread).2, hnegative,
    by decide, hneg negative hnegative⟩

end TableKey

end Tabletop
