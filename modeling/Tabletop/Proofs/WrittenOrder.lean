import Mathlib.Data.List.Nodup
import Tabletop.Proofs.Lookup
import Tabletop.Proofs.StableSort

/-!
# The order in which entries are written

Tables of the same entries, written in different orders, can differ in one thing only: which of the
entries with the same ends comes first. What a table does is told by the ends of its keys alone, and
their sequence is the same in whatever order the entries were written.
-/
namespace Tabletop

/-- The first total of the range and the last. -/
def TotalRange.ends (range : TotalRange) : Int × Int :=
  (range.first, range.last)

/-- The first total of the key and the last, by which tables are sorted. -/
def TableKey.ends (key : TableKey) : Int × Int :=
  key.range.ends

namespace ResultTable

variable {α : Type}

/-! ## What the ends decide -/

theorem contains_eq_of_ends {a b : TableKey} (h : a.ends = b.ends) (total : Bound) :
    a.contains total.val = b.contains total.val := by
  obtain ⟨hfirst, hlast⟩ := Prod.mk.inj h
  have ha := a.range.contains_iff total.least_le total.le_greatest
  have hb := b.range.contains_iff total.least_le total.le_greatest
  rw [Bool.eq_iff_iff]
  show a.range.contains total.val = true ↔ b.range.contains total.val = true
  rw [ha, hb, hfirst, hlast]

theorem meets_eq_of_ends {a b c d : TableKey} (hac : a.ends = c.ends) (hbd : b.ends = d.ends) :
    a.meets b = c.meets d := by
  obtain ⟨hfirst, hlast⟩ := Prod.mk.inj hac
  obtain ⟨hfirst', hlast'⟩ := Prod.mk.inj hbd
  unfold TableKey.meets TotalRange.meets
  rw [hfirst, hlast, hfirst', hlast']

theorem uncoveredFrom_eq_of_ends {ranges others : List TotalRange}
    (h : List.Forall₂ (fun a b => a.ends = b.ends) ranges others) (next stop : Int) :
    uncoveredFrom next stop ranges = uncoveredFrom next stop others := by
  induction h generalizing next with
  | nil => rfl
  | cons hends _ ih =>
    obtain ⟨hfirst, hlast⟩ := Prod.mk.inj hends
    rw [uncoveredFrom, uncoveredFrom, hfirst, hlast, ih, ih]

theorem filter_meets_ends {a b : TableKey} (hab : a.ends = b.ends) {keys others : List TableKey}
    (h : List.Forall₂ (fun a b => a.ends = b.ends) keys others) :
    (keys.filter a.meets).map TableKey.ends = (others.filter b.meets).map TableKey.ends := by
  induction h with
  | nil => rfl
  | @cons key other keys others hends _ ih =>
    rw [List.filter_cons, List.filter_cons, meets_eq_of_ends hab hends]
    cases b.meets other with
    | false => exact ih
    | true =>
      show key.ends :: _ = other.ends :: _
      rw [hends, ih]

theorem clashing_ends {keys others : List TableKey}
    (h : List.Forall₂ (fun a b => a.ends = b.ends) keys others) :
    (clashing keys).map (Prod.map TableKey.ends TableKey.ends) =
      (clashing others).map (Prod.map TableKey.ends TableKey.ends) := by
  induction h with
  | nil => rfl
  | @cons key other keys others hends hrest ih =>
    have hpairs : ∀ (key : TableKey) (keys : List TableKey),
        (keys.map (key, ·)).map (Prod.map TableKey.ends TableKey.ends) =
          (keys.map TableKey.ends).map (key.ends, ·) := by
      intro key keys
      rw [List.map_map, List.map_map]
      rfl
    rw [clashing, clashing, List.map_append, List.map_append, ih, hpairs, hpairs, hends,
      filter_meets_ends hends hrest]

theorem find?_ends {entries others : List (Entry α)}
    (h : List.Forall₂ (fun a b => a.key.ends = b.key.ends) entries others) (total : Bound) :
    (entries.find? (·.key.contains total.val)).map (·.key.ends) =
      (others.find? (·.key.contains total.val)).map (·.key.ends) := by
  induction h with
  | nil => rfl
  | @cons entry other entries others hends _ ih =>
    rw [List.find?_cons, List.find?_cons, contains_eq_of_ends hends total]
    cases other.key.contains total.val with
    | false => exact ih
    | true => exact congrArg some hends

/-! ## Tables of the same entries -/

variable {first second : List (Entry α)}

theorem ofEntries_perm (entries : List (Entry α)) : (ofEntries entries).entries.Perm entries :=
  List.mergeSort_perm _ _

theorem pairwise_ends (table : ResultTable α) : (table.keys.map TableKey.ends).Pairwise fun a b =>
    a.1 < b.1 ∨ a.1 = b.1 ∧ a.2 ≤ b.2 := by
  rw [keys, List.map_map, List.pairwise_map]
  exact table.sorted.imp fun {a b} h => (TotalRange.precedes_iff a.key.range b.key.range).1 h

theorem ends_ofEntries_eq_of_perm (h : first.Perm second) :
    (ofEntries first).keys.map TableKey.ends = (ofEntries second).keys.map TableKey.ends := by
  have hkeys : (ofEntries first).keys.Perm (ofEntries second).keys :=
    ((ofEntries_perm first).trans (h.trans (ofEntries_perm second).symm)).map Entry.key
  refine (hkeys.map TableKey.ends).eq_of_pairwise ?_ (pairwise_ends _) (pairwise_ends _)
  intro a b _ _ hab hba
  exact Prod.ext (by omega) (by omega)

theorem forall₂_ends_of_perm (h : first.Perm second) :
    List.Forall₂ (fun a b => a.key.ends = b.key.ends) (ofEntries first).entries
      (ofEntries second).entries := by
  have hends := ends_ofEntries_eq_of_perm h
  rwa [keys, keys, List.map_map, List.map_map, ← List.forall₂_eq_eq_eq, List.forall₂_map_left_iff,
    List.forall₂_map_right_iff] at hends

theorem uncovered_eq_of_perm (h : first.Perm second) (start stop : Int) :
    (ofEntries first).uncovered start stop = (ofEntries second).uncovered start stop := by
  have hranges : List.Forall₂ (fun a b => a.ends = b.ends)
      ((ofEntries first).keys.map TableKey.range) ((ofEntries second).keys.map TableKey.range) := by
    rw [keys, keys, List.map_map, List.map_map, List.forall₂_map_left_iff,
      List.forall₂_map_right_iff]
    exact forall₂_ends_of_perm h
  rw [uncovered, uncovered, uncoveredFrom_eq_of_ends hranges]

theorem clashes_ends_of_perm (h : first.Perm second) :
    (ofEntries first).clashes.map (Prod.map TableKey.ends TableKey.ends) =
      (ofEntries second).clashes.map (Prod.map TableKey.ends TableKey.ends) := by
  have hkeys : List.Forall₂ (fun a b => a.ends = b.ends) (ofEntries first).keys
      (ofEntries second).keys := by
    rw [keys, keys, List.forall₂_map_left_iff, List.forall₂_map_right_iff]
    exact forall₂_ends_of_perm h
  exact clashing_ends hkeys

theorem map_lookup {β : Type} (table : ResultTable α) (total : Int) (f : Entry α → β) :
    (table.lookup total).map f =
      match (table.entries.find? (·.key.contains total)).map f with
      | some b => .ok b
      | none => .error (.noMatch total) := by
  unfold lookup
  cases table.entries.find? (·.key.contains total) <;> rfl

theorem lookup_ends_of_perm (h : first.Perm second) (total : Bound) :
    ((ofEntries first).lookup total.val).map (·.key.ends) =
      ((ofEntries second).lookup total.val).map (·.key.ends) := by
  rw [map_lookup, map_lookup, find?_ends (forall₂_ends_of_perm h) total]

/-- Where all ends differ, the order in which the entries were written is lost. -/
theorem ofEntries_eq_of_perm (h : first.Perm second)
    (hdistinct : (first.map fun entry => entry.key.ends).Nodup) :
    ofEntries first = ofEntries second := by
  have hantisymm : ∀ a ∈ first, ∀ b ∈ first, a.precedes b = true → b.precedes a = true → a = b := by
    intro a ha b hb hab hba
    have hle := (TotalRange.precedes_iff a.key.range b.key.range).1 hab
    have hge := (TotalRange.precedes_iff b.key.range a.key.range).1 hba
    have hfirst : a.key.range.first = b.key.range.first := by omega
    have hlast : a.key.range.last = b.key.range.last := by omega
    exact List.inj_on_of_nodup_map hdistinct ha hb (Prod.ext hfirst hlast)
  have hentries := StableSort.mergeSort_eq_of_perm Entry.precedes_trans Entry.precedes_total h
    hantisymm
  simp only [ofEntries, hentries]

/-! ## Entries with the same ends -/

theorem entries_ofEntries {entries : List (Entry α)}
    (h : entries.Pairwise fun a b => a.precedes b = true) : (ofEntries entries).entries = entries :=
  List.mergeSort_of_pairwise h

/-- In the table, entries with the same ends stand as they were written. -/
theorem filter_ends_ofEntries (entries : List (Entry α)) (ends : Int × Int) :
    (ofEntries entries).entries.filter (fun entry => decide (entry.key.ends = ends)) =
      entries.filter fun entry => decide (entry.key.ends = ends) := by
  refine StableSort.filter_mergeSort Entry.precedes_trans Entry.precedes_total ?_ entries
  intro a b ha hb
  rw [decide_eq_true_iff] at ha hb
  obtain ⟨hfirst, hlast⟩ := Prod.mk.inj (ha.trans hb.symm)
  exact (TotalRange.precedes_iff a.key.range b.key.range).2 (.inr ⟨hfirst, Int.le_of_eq hlast⟩)

/-- No entry with the same ends was written before the one that answers a total. -/
theorem find?_ends_of_lookup_eq_ok {entries : List (Entry α)} {total : Bound} {entry : Entry α}
    (h : (ofEntries entries).lookup total.val = .ok entry) :
    entries.find? (fun other => decide (other.key.ends = entry.key.ends)) = some entry := by
  rw [lookup_eq_ok_iff_find?, List.find?_eq_some_iff_append] at h
  obtain ⟨hcontains, before, after, hsplit, hbefore⟩ := h
  have hfind : (ofEntries entries).entries.find?
      (fun other => decide (other.key.ends = entry.key.ends)) = some entry := by
    refine List.find?_eq_some_iff_append.2 ⟨by simp, before, after, hsplit, ?_⟩
    intro other hother
    have hnot := hbefore other hother
    rw [Bool.not_eq_true'] at hnot
    simp only [Bool.not_eq_true', decide_eq_false_iff_not]
    intro hends
    rw [contains_eq_of_ends hends total, hcontains] at hnot
    contradiction
  rwa [← List.head?_filter, filter_ends_ofEntries, List.head?_filter] at hfind

/-- In whatever order entries are written, their table has keys of the same ends in the same places,
leaves the same totals uncovered, and has clashes and answers of the same ends. Where all ends
differ it is the same table; where some do not, entries with the same ends stand as they were
written, and the first of them is the one that answers. -/
theorem written_order_decides_ties (h : first.Perm second) :
    (ofEntries first).keys.map TableKey.ends = (ofEntries second).keys.map TableKey.ends ∧
    (∀ start stop, (ofEntries first).uncovered start stop =
      (ofEntries second).uncovered start stop) ∧
    (ofEntries first).clashes.map (Prod.map TableKey.ends TableKey.ends) =
      (ofEntries second).clashes.map (Prod.map TableKey.ends TableKey.ends) ∧
    (∀ total : Bound, ((ofEntries first).lookup total.val).map (·.key.ends) =
      ((ofEntries second).lookup total.val).map (·.key.ends)) ∧
    ((first.map fun entry => entry.key.ends).Nodup → ofEntries first = ofEntries second) ∧
    (∀ ends, (ofEntries first).entries.filter (fun entry => decide (entry.key.ends = ends)) =
      first.filter fun entry => decide (entry.key.ends = ends)) ∧
    (∀ (total : Bound) (entry : Entry α), (ofEntries first).lookup total.val = .ok entry →
      first.find? (fun other => decide (other.key.ends = entry.key.ends)) = some entry) :=
  ⟨ends_ofEntries_eq_of_perm h, uncovered_eq_of_perm h, clashes_ends_of_perm h,
    lookup_ends_of_perm h, ofEntries_eq_of_perm h, filter_ends_ofEntries first,
    fun _ _ => find?_ends_of_lookup_eq_ok⟩

/-- All totals from the first up, with no upper bound and up to the last. -/
def openAndClosed (first last : Bound) : List (Entry Nat) :=
  [⟨.ofRange (.atLeast first), 1⟩, ⟨.spanning first last, 2⟩]

/-- From five up: with no upper bound, and with one that no total passes. -/
theorem written_order_decides_openAndClosed : ∃ five last : Bound,
    five.val = 5 ∧ last.val = Bound.greatest ∧
    (openAndClosed five last).Perm (openAndClosed five last).reverse ∧
    ((ofEntries (openAndClosed five last)).lookup five.val).map (·.key.ends) =
      ((ofEntries (openAndClosed five last).reverse).lookup five.val).map (·.key.ends) ∧
    (ofEntries (openAndClosed five last)).lookup five.val =
      .ok ⟨.ofRange (.atLeast five), 1⟩ ∧
    (ofEntries (openAndClosed five last).reverse).lookup five.val =
      .ok ⟨.spanning five last, 2⟩ ∧
    (openAndClosed five last).find? (fun other =>
      decide (other.key.ends = (TableKey.ofRange (.atLeast five)).ends)) =
        some ⟨.ofRange (.atLeast five), 1⟩ := by
  let five : Bound := ⟨5, by decide, by decide⟩
  let last : Bound := ⟨Bound.greatest, by decide, Int.le_refl _⟩
  have hperm : (openAndClosed five last).Perm (openAndClosed five last).reverse :=
    (List.reverse_perm _).symm
  obtain ⟨-, -, -, hlookup, -, -, hfirst⟩ := written_order_decides_ties hperm
  have hopen : (ofEntries (openAndClosed five last)).entries = openAndClosed five last :=
    entries_ofEntries (by decide)
  have hclosed : (ofEntries (openAndClosed five last).reverse).entries =
      (openAndClosed five last).reverse :=
    entries_ofEntries (by decide)
  have hfound : (ofEntries (openAndClosed five last)).lookup five.val =
      .ok ⟨.ofRange (.atLeast five), 1⟩ := by
    rw [lookup_eq_ok_iff_find?, hopen]
    rfl
  refine ⟨five, last, rfl, rfl, hperm, hlookup five, hfound, ?_, hfirst five _ hfound⟩
  rw [lookup_eq_ok_iff_find?, hclosed]
  rfl

end ResultTable

end Tabletop
