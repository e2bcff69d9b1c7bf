import Mathlib.Data.List.Pairwise
import Mathlib.Data.List.Perm.Subperm
import Tabletop.ResultTable

/-!
# Lists of intervals

A set of totals can be written as a list of intervals in many ways. Where no interval is empty and
between any two of them a total is left out, the list is the shortest one, and no other list of its
length holds the same totals, but for the order of its intervals.
-/
namespace Tabletop

namespace Interval

/-- The total lies in the interval. -/
def Contains (interval : Interval) (total : Int) : Prop :=
  interval.first ≤ total ∧ total ≤ interval.last

instance (interval : Interval) (total : Int) : Decidable (interval.Contains total) :=
  inferInstanceAs (Decidable (_ ∧ _))

/-- What lies between two totals of an interval lies in it. -/
theorem Contains.between {interval : Interval} {a b total : Int} (ha : interval.Contains a)
    (hb : interval.Contains b) (hle : a ≤ total) (hge : total ≤ b) : interval.Contains total :=
  ⟨Int.le_trans ha.1 hle, Int.le_trans hge hb.2⟩

theorem eq_of_contains {a b : Interval} (hab : ∀ total, a.Contains total → b.Contains total)
    (hba : ∀ total, b.Contains total → a.Contains total) (hne : a.first ≤ a.last) : a = b := by
  have hfirst := hab a.first ⟨Int.le_refl _, hne⟩
  have hlast := hab a.last ⟨hne, Int.le_refl _⟩
  have hb : b.first ≤ b.last := Int.le_trans hfirst.1 hfirst.2
  have hfirst' := hba b.first ⟨Int.le_refl _, hb⟩
  have hlast' := hba b.last ⟨hb, Int.le_refl _⟩
  obtain ⟨first, last⟩ := a
  obtain ⟨first', last'⟩ := b
  obtain rfl : first = first' := Int.le_antisymm hfirst'.1 hfirst.1
  obtain rfl : last = last' := Int.le_antisymm hlast.2 hlast'.2
  rfl

/-- The intervals hold the totals with a property, and no others. -/
def Exhaust (intervals : List Interval) (p : Int → Prop) : Prop :=
  ∀ total, (∃ interval ∈ intervals, interval.Contains total) ↔ p total

/-- Intervals in increasing order, none of which is empty or could be joined with another. -/
structure NormalForm (intervals : List Interval) (p : Int → Prop) : Prop where
  exhaust : Exhaust intervals p
  nonempty : ∀ interval ∈ intervals, interval.first ≤ interval.last
  apart : intervals.Pairwise fun a b => ∃ total, a.last < total ∧ total < b.first ∧ ¬ p total

namespace NormalForm

variable {intervals others : List Interval} {p : Int → Prop}

/-- An interval of totals with the property reaches one interval of the list at most. -/
theorem eq_of_reaches (h : NormalForm intervals p) {bridge : Interval}
    (hbridge : ∀ total, bridge.Contains total → p total) {a b : Interval} (ha : a ∈ intervals)
    (hb : b ∈ intervals) {x y : Int} (hax : a.Contains x) (hby : b.Contains y)
    (hx : bridge.Contains x) (hy : bridge.Contains y) : a = b := by
  have hblocked : ∀ {a b : Interval} {x y : Int}, a.Contains x → b.Contains y →
      bridge.Contains x → bridge.Contains y →
      ¬ ∃ total, a.last < total ∧ total < b.first ∧ ¬ p total := by
    intro a b x y hax hby hx hy hgap
    obtain ⟨total, hleft, hright, hnot⟩ := hgap
    have hle : x ≤ total := by have := hax.2; omega
    have hge : total ≤ y := by have := hby.1; omega
    exact hnot (hbridge total (hx.between hy hle hge))
  by_contra hne
  have hfirst : intervals.Pairwise fun a b => a.Contains x → b.Contains y → a = b :=
    h.apart.imp fun hgap hax hby => absurd hgap (hblocked hax hby hx hy)
  have hsecond : intervals.Pairwise fun a b => b.Contains x → a.Contains y → b = a :=
    h.apart.imp fun hgap hbx hay => absurd hgap (hblocked hay hbx hy hx)
  exact hne (hfirst.forall_of_forall_of_flip (fun _ _ _ _ => rfl) hsecond ha hb hax hby)

/-- No total lies in two intervals of the list. -/
theorem eq_of_contains (h : NormalForm intervals p) {a b : Interval} (ha : a ∈ intervals)
    (hb : b ∈ intervals) {total : Int} (hat : a.Contains total) (hbt : b.Contains total) :
    a = b := by
  have hself : (Interval.mk total total).Contains total := ⟨Int.le_refl _, Int.le_refl _⟩
  have hbridge : ∀ other, (Interval.mk total total).Contains other → p other := by
    intro other hother
    obtain rfl : other = total := Int.le_antisymm hother.2 hother.1
    exact (h.exhaust other).1 ⟨a, ha, hat⟩
  exact h.eq_of_reaches hbridge ha hb hat hbt hself hself

/-- Whatever other list holds the same totals, each interval lies in front of one of the other
list, and no two in front of the same. -/
theorem exists_injection (h : NormalForm intervals p) (hothers : Exhaust others p) :
    ∃ home : Interval → Interval, (∀ a ∈ intervals, home a ∈ others ∧ (home a).Contains a.first) ∧
      (intervals.map home).Subperm others := by
  have hexists : ∀ a ∈ intervals, ∃ o, o ∈ others ∧ o.Contains a.first := by
    intro a ha
    exact (hothers a.first).2 ((h.exhaust a.first).1 ⟨a, ha, Int.le_refl _, h.nonempty a ha⟩)
  choose! home hhome using hexists
  have hnodup : (intervals.map home).Nodup := by
    refine List.pairwise_map.2 (h.apart.imp_of_mem ?_)
    intro a b ha hb hgap heq
    obtain ⟨total, hleft, hright, -⟩ := hgap
    have hbridge : ∀ total, (home a).Contains total → p total := fun total ht =>
      (hothers total).1 ⟨home a, (hhome a ha).1, ht⟩
    have hsame : a = b := h.eq_of_reaches hbridge ha hb ⟨Int.le_refl _, h.nonempty a ha⟩
      ⟨Int.le_refl _, h.nonempty b hb⟩ (hhome a ha).2 (heq ▸ (hhome b hb).2)
    have hne := h.nonempty a ha
    rw [hsame] at hleft hne
    omega
  refine ⟨home, hhome, List.subperm_of_subset hnodup ?_⟩
  intro o ho
  obtain ⟨a, ha, rfl⟩ := List.mem_map.1 ho
  exact (hhome a ha).1

/-- No list that holds the same totals is shorter. -/
theorem length_le (h : NormalForm intervals p) (hothers : Exhaust others p) :
    intervals.length ≤ others.length := by
  obtain ⟨home, -, hsub⟩ := h.exists_injection hothers
  have hle := hsub.length_le
  rwa [List.length_map] at hle

/-- A list of the same length that holds the same totals has the same intervals. -/
theorem perm_of_length_le (h : NormalForm intervals p) (hothers : Exhaust others p)
    (hlength : others.length ≤ intervals.length) : others.Perm intervals := by
  obtain ⟨home, hhome, hsub⟩ := h.exists_injection hothers
  have hperm : (intervals.map home).Perm others :=
    hsub.perm_of_length_le (by rwa [List.length_map])
  have hwithin : ∀ a ∈ intervals, ∀ total, (home a).Contains total → a.Contains total := by
    intro a ha total ht
    have hbridge : ∀ total, (home a).Contains total → p total := fun total ht =>
      (hothers total).1 ⟨home a, (hhome a ha).1, ht⟩
    obtain ⟨b, hb, hbt⟩ := (h.exhaust total).2 (hbridge total ht)
    rwa [h.eq_of_reaches hbridge ha hb ⟨Int.le_refl _, h.nonempty a ha⟩ hbt (hhome a ha).2 ht]
  have hfull : ∀ a ∈ intervals, ∀ total, a.Contains total → (home a).Contains total := by
    intro a ha total ht
    obtain ⟨o, ho, hot⟩ := (hothers total).2 ((h.exhaust total).1 ⟨a, ha, ht⟩)
    obtain ⟨b, hb, rfl⟩ := List.mem_map.1 (hperm.symm.subset ho)
    rwa [h.eq_of_contains ha hb ht (hwithin b hb total hot)]
  have hid : ∀ a ∈ intervals, home a = a := by
    intro a ha
    exact (Interval.eq_of_contains (hfull a ha) (hwithin a ha) (h.nonempty a ha)).symm
  have hmap : intervals.map home = intervals := by
    rw [List.map_congr_left hid, List.map_id']
  rw [hmap] at hperm
  exact hperm.symm

end NormalForm

end Interval

end Tabletop
