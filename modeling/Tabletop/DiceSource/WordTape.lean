import Tabletop.DiceSource

/-!
# Rolls from random words

A tape of random 32-bit words drives the dice. A word times the number of faces is cut into a
high and a low half; the high half is the roll, and a word whose low half lies beyond the zone
of the die is passed over, which makes all faces equally likely. Past its end the tape reads
zero words.
-/
namespace Tabletop

structure WordTape where
  words : List UInt32
  /-- How many words were read so far, those past the end included. -/
  taken : Nat := 0

namespace WordTape

/-- 2³², how many words there are. -/
def wordCount : Nat := 4294967296

/-- The greatest low half that is accepted: the number of faces, doubled until it fills 32 bits,
less one. -/
def zone (faces : Faces) : Nat :=
  faces.val <<< (31 - faces.val.log2) - 1

/-- Reads the tape up to the first word that is accepted. A zero word always is. -/
def rollFrom (faces : Faces) (words : List UInt32) (taken : Nat) : Nat × WordTape :=
  match words with
  | [] => (1, ⟨[], taken + 1⟩)
  | word :: words =>
    let product := word.toNat * faces.val
    if product % wordCount ≤ zone faces then (product / wordCount + 1, ⟨words, taken + 1⟩)
    else rollFrom faces words (taken + 1)

theorem one_le_rollFrom (faces : Faces) (words : List UInt32) (taken : Nat) :
    1 ≤ (rollFrom faces words taken).1 := by
  fun_induction rollFrom faces words taken with
  | case1 => exact Nat.le_refl 1
  | case2 => exact Nat.le_add_left 1 _
  | case3 _ _ _ _ _ ih => exact ih

theorem rollFrom_le_faces (faces : Faces) (words : List UInt32) (taken : Nat) :
    (rollFrom faces words taken).1 ≤ faces.val := by
  fun_induction rollFrom faces words taken with
  | case1 => exact faces.one_le
  | case2 taken word words product accepted =>
    have h : word.toNat < wordCount := word.toNat_lt
    have hp : product < wordCount * faces.val :=
      Nat.mul_lt_mul_of_pos_right h faces.one_le
    exact Nat.div_lt_of_lt_mul hp
  | case3 _ _ _ _ _ ih => exact ih

instance : DiceSource WordTape where
  roll faces tape := rollFrom faces tape.words tape.taken
  one_le_roll faces tape := one_le_rollFrom faces tape.words tape.taken
  roll_le_faces faces tape := rollFrom_le_faces faces tape.words tape.taken

end WordTape

end Tabletop
