import Tabletop.Console
import Tabletop.Proofs.Form

/-!
# What the variables set

The settings are told here by the values of the two variables and not by reading them. A value that
is a number sets the limit, where zero lifts it; one that names the marked style sets that. Any
other value is as good as none.
-/
namespace Tabletop

namespace Decimal

theorem upTo?_of_digits_eq_some_iff (limit : Nat) (digits : List Char) (n : Nat) :
    (if digits.isEmpty || !digits.all Char.isDigit then none else upTo? limit digits) = some n ↔
      n ≤ limit ∧ ∃ numeral : Numeral, numeral.digits = digits ∧ numeral.value = n := by
  by_cases hdigits : digits ≠ [] ∧ ∀ c ∈ digits, c.isDigit = true
  · obtain ⟨hne, hall⟩ := hdigits
    have hreadable : (digits.isEmpty || !digits.all Char.isDigit) = false := by
      simpa [hne] using hall
    rw [hreadable, if_neg Bool.false_ne_true, upTo?_eq_some_iff]
    constructor
    · intro h
      exact ⟨h.2, ⟨digits, hne, hall⟩, rfl, h.1⟩
    · intro h
      obtain ⟨hle, numeral, rfl, hvalue⟩ := h
      exact ⟨hvalue, hle⟩
  · have hunreadable : (digits.isEmpty || !digits.all Char.isDigit) = true := by
      by_contra hreadable
      exact hdigits (by simpa using hreadable)
    rw [hunreadable, if_pos rfl]
    constructor
    · intro h
      contradiction
    · intro h
      obtain ⟨-, numeral, rfl, -⟩ := h
      exact absurd ⟨numeral.nonempty, numeral.isDigit⟩ hdigits

/-- One plus sign may stand before the digits, and nothing else. -/
theorem read?_eq_some_iff (limit : Nat) (text : List Char) (n : Nat) :
    read? limit text = some n ↔ n ≤ limit ∧ ∃ numeral : Numeral,
      (text = numeral.digits ∨ text = '+' :: numeral.digits) ∧ numeral.value = n := by
  have hnoSign : ∀ numeral : Numeral, ∀ rest, numeral.digits ≠ '+' :: rest := by
    intro numeral rest h
    have hplus := numeral.isDigit '+' (h ▸ List.mem_cons_self)
    contradiction
  unfold read?
  split
  · next rest =>
    rw [upTo?_of_digits_eq_some_iff]
    constructor
    · intro h
      obtain ⟨hle, numeral, rfl, hvalue⟩ := h
      exact ⟨hle, numeral, .inr rfl, hvalue⟩
    · intro h
      obtain ⟨hle, numeral, hdigits | hdigits, hvalue⟩ := h
      · exact absurd hdigits.symm (hnoSign numeral rest)
      · exact ⟨hle, numeral, (List.cons.inj hdigits).2.symm, hvalue⟩
  · next hother =>
    rw [upTo?_of_digits_eq_some_iff]
    constructor
    · intro h
      obtain ⟨hle, numeral, rfl, hvalue⟩ := h
      exact ⟨hle, numeral, .inl rfl, hvalue⟩
    · intro h
      obtain ⟨hle, numeral, hdigits | hdigits, hvalue⟩ := h
      · exact ⟨hle, numeral, hdigits.symm, hvalue⟩
      · exact absurd hdigits (hother numeral.digits)

end Decimal

namespace Settings

/-- The value is there and is this number, of at most 64 bits; blanks around it and a plus sign do
not matter. -/
def IsNumber (value? : Option String) (n : Nat) : Prop :=
  ∃ value ∈ value?, n ≤ Count.greatest ∧ ∃ numeral : Numeral,
    (Text.trim value.toList = numeral.digits ∨ Text.trim value.toList = '+' :: numeral.digits) ∧
      numeral.value = n

/-- The value is there and is one of the names; blanks around it and case do not matter. -/
def IsOneOf (names : List String) (value? : Option String) : Prop :=
  ∃ value ∈ value?, String.ofList ((Text.trim value.toList).map Char.toLower) ∈ names

/-- The settings that are meant by the variables. -/
structure SetBy (lookup : String → Option String) (settings : Settings) : Prop where
  unlimited : IsNumber (lookup "DICE_MAX_ROLLS") 0 → settings.limit = none
  limited : ∀ n, 0 < n → IsNumber (lookup "DICE_MAX_ROLLS") n → settings.limit = some n
  standard : (∀ n, ¬ IsNumber (lookup "DICE_MAX_ROLLS") n) → settings.limit = some 1000
  markdown : IsOneOf ["markdown", "md"] (lookup "DICE_FORMAT") → settings.style = .markdown
  simple : ¬ IsOneOf ["markdown", "md"] (lookup "DICE_FORMAT") → settings.style = .simple

theorem readLimit_eq_some_iff (value : List Char) (limit : Option Nat) :
    readLimit value = some limit ↔
      ∃ n, Decimal.read? Count.greatest (Text.trim value) = some n ∧
        limit = if n = 0 then none else some n := by
  rw [readLimit, Option.map_eq_some_iff]
  exact exists_congr fun n => and_congr_right fun _ => eq_comm

/-- The limit that a value sets. -/
theorem bind_readLimit_eq_some_iff (value? : Option String) (limit : Option Nat) :
    (value?.bind (readLimit ·.toList)) = some limit ↔
      ∃ n, IsNumber value? n ∧ limit = if n = 0 then none else some n := by
  cases value? with
  | none => simp [IsNumber]
  | some value =>
    rw [Option.bind_some, readLimit_eq_some_iff]
    refine exists_congr fun n => ?_
    rw [Decimal.read?_eq_some_iff]
    simp [IsNumber]

theorem ofName?_eq_markdown_iff (text : List Char) :
    Style.ofName? text = some .markdown ↔
      String.ofList ((Text.trim text).map Char.toLower) ∈ ["markdown", "md"] := by
  unfold Style.ofName?
  dsimp only
  split
  · next hsimple => simp [hsimple]
  · split <;> simp_all

/-- The style that a value sets. -/
theorem bind_ofName?_getD_eq_markdown_iff (value? : Option String) :
    (value?.bind (Style.ofName? ·.toList)).getD .simple = .markdown ↔
      IsOneOf ["markdown", "md"] value? := by
  cases value? with
  | none => simp [IsOneOf]
  | some value =>
    have hnamed : IsOneOf ["markdown", "md"] (some value) ↔
        Style.ofName? value.toList = some .markdown := by
      rw [ofName?_eq_markdown_iff]
      simp [IsOneOf]
    rw [hnamed, Option.bind_some]
    cases Style.ofName? value.toList with
    | none => simp
    | some style => simp

theorem setBy_ofVariables (lookup : String → Option String) : (ofVariables lookup).SetBy lookup := by
  have hlimit : ∀ n, IsNumber (lookup "DICE_MAX_ROLLS") n →
      (ofVariables lookup).limit = if n = 0 then none else some n := by
    intro n hn
    have hset := (bind_readLimit_eq_some_iff (lookup limitVariable) _).2 ⟨n, hn, rfl⟩
    rw [ofVariables, hset, Option.getD_some]
  have hstyle := bind_ofName?_getD_eq_markdown_iff (lookup styleVariable)
  constructor
  case unlimited => exact hlimit 0
  case limited =>
    intro n hpos hn
    rw [hlimit n hn, if_neg (Nat.ne_of_gt hpos)]
  case standard =>
    intro hnone
    have hunset : (lookup limitVariable).bind (readLimit ·.toList) = none := by
      rw [Option.eq_none_iff_forall_ne_some]
      intro limit hread
      obtain ⟨n, hn, -⟩ := (bind_readLimit_eq_some_iff _ limit).1 hread
      exact hnone n hn
    rw [ofVariables, hunset]
    rfl
  case markdown => exact hstyle.2
  case simple =>
    intro hnot
    cases hread : (ofVariables lookup).style with
    | simple => rfl
    | markdown => exact absurd (hstyle.1 hread) hnot

/-- The variables leave no choice. -/
theorem SetBy.unique {lookup : String → Option String} {first second : Settings}
    (hfirst : first.SetBy lookup) (hsecond : second.SetBy lookup) : first = second := by
  have hlimit : first.limit = second.limit := by
    by_cases hset : ∃ n, IsNumber (lookup "DICE_MAX_ROLLS") n
    · obtain ⟨n, hn⟩ := hset
      by_cases hzero : n = 0
      · subst hzero
        rw [hfirst.unlimited hn, hsecond.unlimited hn]
      · rw [hfirst.limited n (Nat.pos_of_ne_zero hzero) hn,
          hsecond.limited n (Nat.pos_of_ne_zero hzero) hn]
    · rw [hfirst.standard (not_exists.1 hset), hsecond.standard (not_exists.1 hset)]
  have hstyle : first.style = second.style := by
    by_cases hmarked : IsOneOf ["markdown", "md"] (lookup "DICE_FORMAT")
    · rw [hfirst.markdown hmarked, hsecond.markdown hmarked]
    · rw [hfirst.simple hmarked, hsecond.simple hmarked]
  cases first
  cases second
  rw [Settings.mk.injEq]
  exact ⟨hlimit, hstyle⟩

theorem setBy_iff (lookup : String → Option String) (settings : Settings) :
    settings.SetBy lookup ↔ settings = ofVariables lookup := by
  constructor
  · exact fun h => h.unique (setBy_ofVariables lookup)
  · intro h
    rw [h]
    exact setBy_ofVariables lookup

end Settings

end Tabletop
