import Mathlib.Data.List.Perm.Basic

/-!
# Stable sorting

What a stable sort keeps of the order in which a list was written: that of tied elements, and
nothing else.
-/
namespace Tabletop.StableSort

variable {α : Type} {le : α → α → Bool}
  (htrans : ∀ a b c, le a b = true → le b c = true → le a c = true)
  (htotal : ∀ a b, (le a b || le b a) = true)

include htrans htotal

/-- Elements of which any two are tied stay in the order in which they were written. -/
theorem filter_mergeSort {p : α → Bool} (htied : ∀ a b, p a = true → p b = true → le a b = true)
    (l : List α) : (l.mergeSort le).filter p = l.filter p := by
  have hpairwise : (l.filter p).Pairwise fun a b => le a b = true :=
    List.pairwise_filter.2 (List.pairwise_of_forall htied)
  have hsub : (l.filter p).Sublist (l.mergeSort le) :=
    List.sublist_mergeSort htrans htotal hpairwise List.filter_sublist
  have hkept := hsub.filter p
  simp only [List.filter_filter, Bool.and_self] at hkept
  exact (hkept.eq_of_length ((List.mergeSort_perm l le).filter p).length_eq.symm).symm

/-- Where the list stood in some order, its elements are sorted, and those that are tied still
stand in that order. -/
theorem pairwise_mergeSort_and {R : α → α → Prop} {l : List α} (h : l.Pairwise R) :
    (l.mergeSort le).Pairwise fun a b => le a b = true ∧ (le b a = true → R a b) := by
  have hsorted := List.pairwise_mergeSort htrans htotal l
  rw [List.pairwise_iff_forall_sublist] at h hsorted ⊢
  intro a b hab
  refine ⟨hsorted hab, ?_⟩
  intro hba
  have hself : le a a = true := by simpa using htotal a a
  have htied : ∀ c d, (le c a && le a c) = true → (le d a && le a d) = true → le c d = true := by
    intro c d hc hd
    rw [Bool.and_eq_true] at hc hd
    exact htrans c a d hc.1 hd.2
  have hboth := hab.filter fun c => le c a && le a c
  rw [filter_mergeSort htrans htotal htied] at hboth
  have hpair : [a, b].filter (fun c => le c a && le a c) = [a, b] := by
    simp [hself, hba, hsorted hab]
  rw [hpair] at hboth
  exact h (hboth.trans List.filter_sublist)

/-- Where no two elements are tied, the order in which they were written is lost. -/
theorem mergeSort_eq_of_perm {first second : List α} (hperm : first.Perm second)
    (hantisymm : ∀ a ∈ first, ∀ b ∈ first, le a b = true → le b a = true → a = b) :
    first.mergeSort le = second.mergeSort le := by
  have hsorted : (first.mergeSort le).Perm (second.mergeSort le) :=
    (List.mergeSort_perm first le).trans (hperm.trans (List.mergeSort_perm second le).symm)
  refine hsorted.eq_of_pairwise ?_ (List.pairwise_mergeSort htrans htotal first)
    (List.pairwise_mergeSort htrans htotal second)
  intro a b ha hb
  rw [List.mem_mergeSort] at ha hb
  exact hantisymm a ha b (hperm.mem_iff.2 hb)

end Tabletop.StableSort
