/-!
# Widths of texts

A text's width is the number of bytes of its UTF-8 form. Positions in error reports are widths
of the text before them.
-/
namespace Tabletop.Text

/-- Bytes of the text in UTF-8. -/
def width (text : List Char) : Nat :=
  text.foldr (fun c bytes => c.utf8Size + bytes) 0

@[simp] theorem width_nil : width [] = 0 := rfl

@[simp] theorem width_cons (c : Char) (text : List Char) :
    width (c :: text) = c.utf8Size + width text := rfl

@[simp] theorem width_append (left right : List Char) :
    width (left ++ right) = width left + width right := by
  induction left with
  | nil => exact (Nat.zero_add _).symm
  | cons c left ih => rw [List.cons_append, width_cons, width_cons, ih, Nat.add_assoc]

theorem width_pos {text : List Char} (h : text ≠ []) : 0 < width text := by
  cases text with
  | nil => exact absurd rfl h
  | cons c text =>
    have hc := c.utf8Size_pos
    rw [width_cons]
    omega

/-- The width is the size that the text has as a string. -/
theorem width_eq_utf8ByteSize (text : List Char) :
    width text = (String.ofList text).utf8ByteSize := by
  induction text with
  | nil => rfl
  | cons c text ih =>
    have h : String.ofList (c :: text) = String.singleton c ++ String.ofList text := by
      rw [String.singleton_eq_ofList, ← String.ofList_append]
      rfl
    rw [width_cons, ih, h, String.utf8ByteSize_append, String.utf8ByteSize_singleton]

end Tabletop.Text
