import Tabletop.Proofs.Intervals
import Tabletop.Proofs.Lookup

/-!
# What a table leaves uncovered

The sweep over the sorted keys finds every total of a range that no entry answers, and puts them
into as few intervals as there can be. It stays within 64 bits all the way, although it computes
neighbours of bounds that may stand at either end of them.
-/
namespace Tabletop

/-- The total is one of the range, an open side being as good as a bound. -/
def TotalRange.Covers (range : TotalRange) (total : Int) : Prop :=
  range.first ≤ total ∧ total ≤ range.last

/-- The interval between two bounds. -/
def Interval.ofBounds (bounds : Bound × Bound) : Interval :=
  ⟨bounds.1.val, bounds.2.val⟩

theorem Bound.ofInt?_eq_some {n : Int} (hleast : least ≤ n) (hgreatest : n ≤ greatest) :
    ofInt? n = some ⟨n, hleast, hgreatest⟩ :=
  dif_pos ⟨hleast, hgreatest⟩

namespace ResultTable

variable {α : Type}

/-! ## The sweep -/

/-- What the sweep has to find between two totals: the intervals hold what no range covers, they
lie between the two, and something covered stands between any two of them. -/
structure Sweep (next stop : Int) (ranges : List TotalRange) (found : List Interval) : Prop where
  exhaust : Interval.Exhaust found fun total =>
    next ≤ total ∧ total ≤ stop ∧ ∀ range ∈ ranges, ¬ range.Covers total
  within : ∀ interval ∈ found,
    next ≤ interval.first ∧ interval.first ≤ interval.last ∧ interval.last ≤ stop
  apart : found.Pairwise fun a b =>
    ∃ total, a.last < total ∧ total < b.first ∧ ∃ range ∈ ranges, range.Covers total

namespace Sweep

variable {next stop : Int} {range : TotalRange} {ranges : List TotalRange} {found : List Interval}

/-- Where no range reaches, all is uncovered. -/
theorem whole (hle : next ≤ stop)
    (hfree : ∀ range ∈ ranges, ∀ total, next ≤ total → total ≤ stop → ¬ range.Covers total) :
    Sweep next stop ranges [⟨next, stop⟩] where
  exhaust total := by
    simp only [List.mem_singleton, exists_eq_left]
    constructor
    · intro hin
      exact ⟨hin.1, hin.2, fun range hrange => hfree range hrange total hin.1 hin.2⟩
    · intro h
      exact ⟨h.1, h.2.1⟩
  within interval hmem := by
    obtain rfl := List.mem_singleton.1 hmem
    exact ⟨Int.le_refl _, hle, Int.le_refl _⟩
  apart := List.pairwise_singleton _ _

/-- A range that ends before the sweep begins changes nothing. -/
theorem skip (hbefore : range.last < next) (h : Sweep next stop ranges found) :
    Sweep next stop (range :: ranges) found where
  exhaust total := by
    rw [h.exhaust total]
    simp only [List.forall_mem_cons, TotalRange.Covers]
    constructor
    · intro hp
      exact ⟨hp.1, hp.2.1, by omega, hp.2.2⟩
    · intro hp
      exact ⟨hp.1, hp.2.1, hp.2.2.2⟩
  within := h.within
  apart := h.apart.imp fun hgap => by
    obtain ⟨total, hleft, hright, other, hmem, hcovers⟩ := hgap
    exact ⟨total, hleft, hright, other, List.mem_cons_of_mem _ hmem, hcovers⟩

/-- Up to the end of the first range, what lies in front of it is uncovered, if there is any. -/
theorem front (hreach : range.first ≤ stop) (hend : stop ≤ range.last)
    (hlater : ∀ other ∈ ranges, range.first ≤ other.first) :
    Sweep next stop (range :: ranges)
      (if next < range.first then [⟨next, range.first - 1⟩] else []) := by
  have hfree : ∀ total, total < range.first → ∀ other ∈ range :: ranges, ¬ other.Covers total := by
    intro total hlt other hmem hcovers
    have hfirst := hcovers.1
    obtain rfl | hmem := List.mem_cons.1 hmem
    · omega
    · have hge := hlater other hmem
      omega
  have hreached : ∀ total, total ≤ stop → (∀ other ∈ range :: ranges, ¬ other.Covers total) →
      total < range.first := by
    intro total hle hnone
    by_contra hge
    exact hnone range List.mem_cons_self ⟨by omega, by omega⟩
  by_cases hgap : next < range.first
  · rw [if_pos hgap]
    refine ⟨?_, ?_, List.pairwise_singleton _ _⟩
    · intro total
      simp only [List.mem_singleton, exists_eq_left, Interval.Contains]
      constructor
      · intro hin
        exact ⟨hin.1, by omega, hfree total (by omega)⟩
      · intro hp
        have hlt := hreached total hp.2.1 hp.2.2
        omega
    · intro interval hmem
      obtain rfl := List.mem_singleton.1 hmem
      dsimp only
      omega
  · rw [if_neg hgap]
    refine ⟨?_, by simp, List.Pairwise.nil⟩
    intro total
    simp only [List.not_mem_nil, false_and, exists_false, false_iff]
    intro hp
    have hlt := hreached total hp.2.1 hp.2.2
    omega

/-- Two sweeps with something covered between them are one. -/
theorem join {middle : Int} {before after : List Interval} (hlow : next ≤ middle)
    (hhigh : middle < stop) (hcovered : ∃ range ∈ ranges, range.Covers middle)
    (hbefore : Sweep next middle ranges before) (hafter : Sweep (middle + 1) stop ranges after) :
    Sweep next stop ranges (before ++ after) where
  exhaust total := by
    have hleft := hbefore.exhaust total
    have hright := hafter.exhaust total
    simp only [List.mem_append, or_and_right, exists_or, hleft, hright]
    by_cases hle : total ≤ middle
    · constructor
      · intro h
        rcases h with h | h
        · exact ⟨h.1, by omega, h.2.2⟩
        · omega
      · intro h
        exact .inl ⟨h.1, hle, h.2.2⟩
    · constructor
      · intro h
        rcases h with h | h
        · omega
        · exact ⟨by omega, h.2⟩
      · intro h
        exact .inr ⟨by omega, h.2⟩
  within interval hmem := by
    obtain hmem | hmem := List.mem_append.1 hmem
    · have hin := hbefore.within interval hmem
      omega
    · have hin := hafter.within interval hmem
      omega
  apart := by
    refine List.pairwise_append.2 ⟨hbefore.apart, hafter.apart, ?_⟩
    intro a ha b hb
    have hina := hbefore.within a ha
    have hinb := hafter.within b hb
    have hne : a.last ≠ middle := by
      intro heq
      obtain ⟨range, hrange, hcovers⟩ := hcovered
      have hfree := (hbefore.exhaust a.last).1 ⟨a, ha, hina.2.1, Int.le_refl _⟩
      rw [heq] at hfree
      exact hfree.2.2 range hrange hcovers
    exact ⟨middle, by omega, by omega, hcovered⟩

end Sweep

theorem sweep_uncoveredFrom {next stop : Int} {ranges : List TotalRange} (hle : next ≤ stop)
    (hsorted : ranges.Pairwise fun a b => a.first ≤ b.first) :
    Sweep next stop ranges (uncoveredFrom next stop ranges) := by
  induction ranges generalizing next with
  | nil => exact Sweep.whole hle (by simp)
  | cons range ranges ih =>
    obtain ⟨hlater, hrest⟩ := List.pairwise_cons.1 hsorted
    rw [uncoveredFrom]
    by_cases hbefore : range.last < next
    · rw [if_pos hbefore]
      exact Sweep.skip hbefore (ih hle hrest)
    · rw [if_neg hbefore]
      by_cases hbeyond : stop < range.first
      · rw [if_pos hbeyond]
        refine Sweep.whole hle ?_
        intro other hmem total _ hstop hcovers
        have hfirst := hcovers.1
        obtain rfl | hmem := List.mem_cons.1 hmem
        · omega
        · have hge := hlater other hmem
          omega
      · rw [if_neg hbeyond]
        by_cases hend : stop ≤ range.last
        · rw [if_pos hend, List.append_nil]
          exact Sweep.front (by omega) hend hlater
        · rw [if_neg hend]
          have hcovers : range.Covers range.last := ⟨range.first_le_last, Int.le_refl _⟩
          have hfront : Sweep next range.last (range :: ranges) _ :=
            Sweep.front range.first_le_last (Int.le_refl _) hlater
          have hbehind : Sweep (range.last + 1) stop (range :: ranges) _ :=
            Sweep.skip (by omega) (ih (by omega) hrest)
          exact Sweep.join (by omega) (by omega) ⟨range, List.mem_cons_self, hcovers⟩ hfront hbehind

/-! ## The sweep within 64 bits -/

/-- The sweep with every number it computes held to 64 bits, and no result where one is not. -/
def boundedFrom? (next stop : Bound) : List TotalRange → Option (List (Bound × Bound))
  | [] => some [(next, stop)]
  | range :: ranges =>
    if range.last < next.val then boundedFrom? next stop ranges
    else if stop.val < range.first then some [(next, stop)]
    else
      (if next.val < range.first then
          (Bound.ofInt? (range.first - 1)).map fun last => [(next, last)]
        else some []).bind fun front =>
      (if stop.val ≤ range.last then some []
        else (Bound.ofInt? (range.last + 1)).bind fun next => boundedFrom? next stop ranges).map
          fun behind => front ++ behind

/-- Nothing that the sweep computes leaves 64 bits. -/
theorem boundedFrom?_eq_uncoveredFrom (next stop : Bound) (ranges : List TotalRange) :
    (boundedFrom? next stop ranges).map (List.map Interval.ofBounds) =
      some (uncoveredFrom next.val stop.val ranges) := by
  induction ranges generalizing next with
  | nil => rfl
  | cons range ranges ih =>
    rw [boundedFrom?, uncoveredFrom]
    split
    · exact ih next
    · split
      · rfl
      · next hbefore hbeyond =>
        have hfirst : ∃ front, (if next.val < range.first then
              (Bound.ofInt? (range.first - 1)).map fun last => [(next, last)]
            else some []) = some front ∧ front.map Interval.ofBounds =
              if next.val < range.first then [⟨next.val, range.first - 1⟩] else [] := by
          split
          · next hgap =>
            have hleast := next.least_le
            have hgreatest := stop.le_greatest
            rw [Bound.ofInt?_eq_some (by omega) (by omega)]
            exact ⟨_, rfl, rfl⟩
          · exact ⟨[], rfl, rfl⟩
        have hlast : ∃ behind, (if stop.val ≤ range.last then some []
            else (Bound.ofInt? (range.last + 1)).bind fun next => boundedFrom? next stop ranges) =
              some behind ∧ behind.map Interval.ofBounds =
                if stop.val ≤ range.last then [] else uncoveredFrom (range.last + 1) stop.val ranges := by
          split
          · exact ⟨[], rfl, rfl⟩
          · have hleast := next.least_le
            have hgreatest := stop.le_greatest
            rw [Bound.ofInt?_eq_some (by omega) (by omega)]
            exact Option.map_eq_some_iff.1 (ih _)
        obtain ⟨front, hfront, hfrontmap⟩ := hfirst
        obtain ⟨behind, hbehind, hbehindmap⟩ := hlast
        rw [hfront, hbehind, ← hfrontmap, ← hbehindmap, ← List.map_append]
        rfl

/-- What a table leaves uncovered, found within 64 bits. -/
def boundedUncovered? (table : ResultTable α) (start stop : Bound) : Option (List (Bound × Bound)) :=
  if stop.val < start.val then some []
  else boundedFrom? start stop (table.keys.map TableKey.range)

theorem boundedUncovered?_eq_uncovered (table : ResultTable α) (start stop : Bound) :
    (table.boundedUncovered? start stop).map (List.map Interval.ofBounds) =
      some (table.uncovered start.val stop.val) := by
  unfold boundedUncovered? uncovered
  split
  · rfl
  · exact boundedFrom?_eq_uncoveredFrom start stop _

/-! ## Tables -/

theorem pairwise_first_le (table : ResultTable α) :
    (table.keys.map TableKey.range).Pairwise fun a b => a.first ≤ b.first := by
  unfold keys
  rw [List.map_map, List.pairwise_map]
  refine table.sorted.imp ?_
  intro a b hprecedes
  have h := (TotalRange.precedes_iff a.key.range b.key.range).1 hprecedes
  show a.key.range.first ≤ b.key.range.first
  omega

theorem exists_covers_iff (table : ResultTable α) {total : Int} (hleast : Bound.least ≤ total)
    (hgreatest : total ≤ Bound.greatest) :
    (∃ range ∈ table.keys.map TableKey.range, range.Covers total) ↔
      ∃ entry, table.lookup total = .ok entry := by
  have hcovers : ∀ entry : Entry α, entry.key.range.Covers total ↔ entry.key.contains total = true :=
    fun entry => (TotalRange.contains_iff entry.key.range hleast hgreatest).symm
  simp only [keys, List.map_map, List.mem_map, Function.comp_apply, exists_exists_and_eq_and, hcovers,
    lookup_eq_ok_iff_find?]
  rw [← Option.isSome_iff_exists, List.find?_isSome]

theorem lookup_eq_noMatch_iff (table : ResultTable α) (total : Int) :
    table.lookup total = .error (.noMatch total) ↔ ¬ ∃ entry, table.lookup total = .ok entry := by
  constructor
  · intro h hentry
    obtain ⟨entry, hok⟩ := hentry
    rw [h] at hok
    contradiction
  · intro h
    cases hlookup : table.lookup total with
    | ok entry => exact absurd ⟨entry, hlookup⟩ h
    | error e => rw [((lookup_eq_error_iff_find? table total e).1 hlookup).1]

/-- No entry answers the total, which is one from `start` to `stop`. -/
structure Misses (table : ResultTable α) (start stop : Bound) (total : Int) : Prop where
  start_le : start.val ≤ total
  le_stop : total ≤ stop.val
  lookup : table.lookup total = .error (.noMatch total)

theorem misses_iff (table : ResultTable α) (start stop : Bound) (total : Int) :
    table.Misses start stop total ↔ start.val ≤ total ∧ total ≤ stop.val ∧
      ∀ range ∈ table.keys.map TableKey.range, ¬ range.Covers total := by
  have hbounds := And.intro start.least_le stop.le_greatest
  constructor
  · intro h
    have hnone := (table.lookup_eq_noMatch_iff total).1 h.lookup
    have hstart := h.start_le
    have hstop := h.le_stop
    rw [← table.exists_covers_iff (by omega) (by omega)] at hnone
    exact ⟨hstart, hstop, fun range hrange hcovers => hnone ⟨range, hrange, hcovers⟩⟩
  · intro h
    obtain ⟨hstart, hstop, hnone⟩ := h
    refine ⟨hstart, hstop, (table.lookup_eq_noMatch_iff total).2 ?_⟩
    rw [← table.exists_covers_iff (by omega) (by omega)]
    intro hsome
    obtain ⟨range, hrange, hcovers⟩ := hsome
    exact hnone range hrange hcovers

theorem uncovered_of_lt (table : ResultTable α) {start stop : Int} (h : stop < start) :
    table.uncovered start stop = [] :=
  if_pos h

theorem exhaust_uncovered (table : ResultTable α) (start stop : Bound) :
    Interval.Exhaust (table.uncovered start.val stop.val) (table.Misses start stop) := by
  intro total
  rw [misses_iff]
  by_cases hempty : stop.val < start.val
  · rw [table.uncovered_of_lt hempty]
    simp only [List.not_mem_nil, false_and, exists_false, false_iff]
    omega
  · have hsweep := sweep_uncoveredFrom (by omega : start.val ≤ stop.val) table.pairwise_first_le
    rw [uncovered, if_neg hempty]
    exact hsweep.exhaust total

theorem nonempty_of_mem_uncovered (table : ResultTable α) (start stop : Int) :
    ∀ interval ∈ table.uncovered start stop, interval.first ≤ interval.last := by
  intro interval hmem
  rw [uncovered] at hmem
  split at hmem
  · simp at hmem
  · next hnonempty =>
    have hsweep := sweep_uncoveredFrom (by omega : start ≤ stop) table.pairwise_first_le
    exact (hsweep.within interval hmem).2.1

theorem apart_uncovered (table : ResultTable α) (start stop : Bound) :
    (table.uncovered start.val stop.val).Pairwise fun a b =>
      ∃ total entry, a.last < total ∧ total < b.first ∧ table.lookup total = .ok entry := by
  by_cases hempty : stop.val < start.val
  · rw [table.uncovered_of_lt hempty]
    exact List.Pairwise.nil
  · have hsweep := sweep_uncoveredFrom (by omega : start.val ≤ stop.val) table.pairwise_first_le
    rw [uncovered, if_neg hempty]
    refine hsweep.apart.imp_of_mem ?_
    intro a b ha hb hgap
    obtain ⟨total, hleft, hright, hcovered⟩ := hgap
    have hina := hsweep.within a ha
    have hinb := hsweep.within b hb
    have hleast := start.least_le
    have hgreatest := stop.le_greatest
    obtain ⟨entry, hlookup⟩ := (table.exists_covers_iff (by omega) (by omega)).1 hcovered
    exact ⟨total, entry, hleft, hright, hlookup⟩

theorem normalForm_uncovered (table : ResultTable α) (start stop : Bound) :
    Interval.NormalForm (table.uncovered start.val stop.val) (table.Misses start stop) where
  exhaust := table.exhaust_uncovered start stop
  nonempty := table.nonempty_of_mem_uncovered start.val stop.val
  apart := by
    refine (table.apart_uncovered start stop).imp ?_
    intro a b hgap
    obtain ⟨total, entry, hleft, hright, hlookup⟩ := hgap
    refine ⟨total, hleft, hright, ?_⟩
    intro hmisses
    exact (table.lookup_eq_noMatch_iff total).1 hmisses.lookup ⟨entry, hlookup⟩

theorem uncovered_eq_nil_iff (table : ResultTable α) (start stop : Bound) :
    table.uncovered start.val stop.val = [] ↔ ∀ total, ¬ table.Misses start stop total := by
  have hexhaust := table.exhaust_uncovered start stop
  constructor
  · intro hnil total hmisses
    obtain ⟨interval, hmem, -⟩ := (hexhaust total).2 hmisses
    rw [hnil] at hmem
    simp at hmem
  · intro hnone
    refine List.eq_nil_iff_forall_not_mem.2 ?_
    intro interval hmem
    have hne := table.nonempty_of_mem_uncovered start.val stop.val interval hmem
    exact hnone interval.first ((hexhaust interval.first).1 ⟨interval, hmem, Int.le_refl _, hne⟩)

/-- The uncovered intervals of a range hold the totals in it that no entry answers, in increasing
order, with an answered total between any two of them; so they are the shortest list that does, and
the only one of that length. They can be found without leaving 64 bits. -/
theorem uncovered_is_shortest (table : ResultTable α) (start stop : Bound) :
    (∀ total, (∃ interval ∈ table.uncovered start.val stop.val, interval.Contains total) ↔
      start.val ≤ total ∧ total ≤ stop.val ∧ table.lookup total = .error (.noMatch total)) ∧
    (∀ interval ∈ table.uncovered start.val stop.val, interval.first ≤ interval.last) ∧
    ((table.uncovered start.val stop.val).Pairwise fun a b =>
      ∃ total entry, a.last < total ∧ total < b.first ∧ table.lookup total = .ok entry) ∧
    (∀ others : List Interval, Interval.Exhaust others (table.Misses start stop) →
      (table.uncovered start.val stop.val).length ≤ others.length ∧
        (others.length = (table.uncovered start.val stop.val).length →
          others.Perm (table.uncovered start.val stop.val))) ∧
    (stop.val < start.val → table.uncovered start.val stop.val = []) ∧
    (table.boundedUncovered? start stop).map (List.map Interval.ofBounds) =
      some (table.uncovered start.val stop.val) := by
  have hnormal := table.normalForm_uncovered start stop
  refine ⟨?_, hnormal.nonempty, table.apart_uncovered start stop, ?_,
    table.uncovered_of_lt, table.boundedUncovered?_eq_uncovered start stop⟩
  · intro total
    rw [hnormal.exhaust total]
    exact ⟨fun h => ⟨h.start_le, h.le_stop, h.lookup⟩, fun h => ⟨h.1, h.2.1, h.2.2⟩⟩
  · intro others hothers
    exact ⟨hnormal.length_le hothers, fun h => hnormal.perm_of_length_le hothers (Nat.le_of_eq h)⟩

end ResultTable

end Tabletop
