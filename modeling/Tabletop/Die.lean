import Tabletop.Chain
import Tabletop.Text.Decimal
import Tabletop.Text.Quoted

/-!
# Dice

The kinds of dice: one with any number of faces, or the percentile die with its hundred. A kind
is written as the number of its faces or as a percent sign.
-/
namespace Tabletop

/-- 2³² - 1, beyond which no die has faces. -/
def Faces.greatest : Nat := 4294967295

/-- How many faces a die has. -/
structure Faces where
  val : Nat
  one_le : 1 ≤ val
  le_greatest : val ≤ Faces.greatest

namespace Faces

def ofNat? (n : Nat) : Option Faces :=
  if h : 1 ≤ n ∧ n ≤ greatest then some ⟨n, h.1, h.2⟩ else none

/-- The faces of the percentile die. -/
def hundred : Faces := ⟨100, by decide, by decide⟩

theorem ext_val {a b : Faces} (h : a.val = b.val) : a = b := by
  cases a; cases b; cases h; rfl

instance : DecidableEq Faces := fun _ _ =>
  decidable_of_iff _ ⟨ext_val, congrArg val⟩

theorem ofNat?_eq_some_iff {n : Nat} {faces : Faces} : ofNat? n = some faces ↔ n = faces.val := by
  unfold ofNat?
  split
  · rw [Option.some.injEq]
    exact ⟨fun h => h ▸ rfl, fun h => ext_val h⟩
  · next hn =>
    simp only [reduceCtorEq, false_iff]
    rintro rfl
    exact hn ⟨faces.one_le, faces.le_greatest⟩

/-- The faces of a die that many steps along the chain. -/
def move (faces : Faces) (delta : Int) : Faces where
  val := Chain.move faces.val delta
  one_le := by
    rcases Chain.move_eq_or_mem faces.val delta with h | h
    · rw [h]; exact faces.one_le
    · have := Chain.bounds_of_mem h; omega
  le_greatest := by
    rcases Chain.move_eq_or_mem faces.val delta with h | h
    · rw [h]; exact faces.le_greatest
    · have := Chain.bounds_of_mem h; unfold greatest; omega

end Faces

inductive Die where
  | poly (faces : Faces)
  | percentile
  deriving DecidableEq

/-- The text that was to name a kind of die and does not. -/
structure InvalidDie where
  text : List Char
  deriving DecidableEq

def InvalidDie.message (e : InvalidDie) : String :=
  "invalid die size " ++ Text.quoted e.text ++ ": expected '%' or a number of at least 2"

namespace Die

def faces : Die → Faces
  | poly faces => faces
  | percentile => Faces.hundred

/-- A die with that many faces; players' dice have at least two. -/
def ofFaces? (n : Nat) : Option Die :=
  if n < 2 then none else (Faces.ofNat? n).map poly

/-- The die `delta` steps along the chain; the percentile die never moves. -/
def move (die : Die) (delta : Int) : Die :=
  match die with
  | poly faces => poly (faces.move delta)
  | percentile => percentile

/-- How the kind is written. -/
def text : Die → List Char
  | poly faces => Decimal.ofNat faces.val
  | percentile => ['%']

theorem ofFaces?_eq_some_iff {n : Nat} {die : Die} :
    ofFaces? n = some die ↔ ∃ faces : Faces, die = poly faces ∧ n = faces.val ∧ 2 ≤ n := by
  unfold ofFaces?
  split
  · next hn =>
    simp only [reduceCtorEq, false_iff]
    rintro ⟨faces, -, -, h⟩
    omega
  · next hn =>
    rw [Option.map_eq_some_iff]
    constructor
    · rintro ⟨faces, hf, rfl⟩
      exact ⟨faces, rfl, Faces.ofNat?_eq_some_iff.1 hf, by omega⟩
    · rintro ⟨faces, rfl, hf, -⟩
      exact ⟨faces, Faces.ofNat?_eq_some_iff.2 hf, rfl⟩

/-- Reads a kind of die that stands alone. -/
def parse (text : List Char) : Except InvalidDie Die :=
  if text = ['%'] then .ok percentile
  else
    match (Decimal.read? Faces.greatest text).bind ofFaces? with
    | some die => .ok die
    | none => .error ⟨text⟩

end Die

end Tabletop
