/-!
# Counts

How many dice a roll throws, and how many of them a selection names: whole numbers from one up
to the greatest that 64 bits hold.
-/
namespace Tabletop

/-- 2⁶⁴ - 1, beyond which no dice are counted. -/
def Count.greatest : Nat := 18446744073709551615

structure Count where
  val : Nat
  one_le : 1 ≤ val
  le_greatest : val ≤ Count.greatest
  deriving DecidableEq

namespace Count

/-- The count of that many dice, if there are any and not too many. -/
def ofNat? (n : Nat) : Option Count :=
  if h : 1 ≤ n ∧ n ≤ greatest then some ⟨n, h.1, h.2⟩ else none

/-- The count that is meant where none is written. -/
def one : Count := ⟨1, Nat.le_refl 1, by decide⟩

theorem ext_val {a b : Count} (h : a.val = b.val) : a = b := by
  cases a; cases b; cases h; rfl

theorem ofNat?_eq_some_iff {n : Nat} {count : Count} : ofNat? n = some count ↔ n = count.val := by
  unfold ofNat?
  split
  · rw [Option.some.injEq]
    exact ⟨fun h => h ▸ rfl, fun h => ext_val h⟩
  · next hn =>
    simp only [reduceCtorEq, false_iff]
    rintro rfl
    exact hn ⟨count.one_le, count.le_greatest⟩

theorem ofNat?_val (count : Count) : ofNat? count.val = some count :=
  ofNat?_eq_some_iff.2 rfl

end Count

end Tabletop
