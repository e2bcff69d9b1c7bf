import Mathlib.Data.List.FinRange
import Tabletop.ResultTable

/-!
# Keys that share a total

Two keys clash when some total belongs to both, which the table decides from their bounds alone.
The table lists its clashes by the places of the entries in the order of search, none missing and
none twice, so it is free of them exactly when every total belongs to one entry at most.
-/
namespace Tabletop

/-! ## Bounds of keys -/

namespace TotalRange

theorem first_spanning (a b : Bound) : (spanning a b).first = min a.val b.val := by
  unfold spanning
  split
  · next h => exact (Int.min_eq_left h).symm
  · next h => exact (Int.min_eq_right (Int.le_of_lt (Int.lt_of_not_ge h))).symm

theorem last_spanning (a b : Bound) : (spanning a b).last = max a.val b.val := by
  unfold spanning
  split
  · next h => exact (Int.max_eq_right h).symm
  · next h => exact (Int.max_eq_left (Int.le_of_lt (Int.lt_of_not_ge h))).symm

theorem meets_comm (a b : TotalRange) : a.meets b = b.meets a := by
  unfold meets
  rw [Int.max_comm, Int.min_comm]

theorem meets_iff (a b : TotalRange) : a.meets b = true ↔
    ∃ total : Bound, a.contains total.val = true ∧ b.contains total.val = true := by
  have ha := a.first_le_last
  have hb := b.first_le_last
  have hmeets : a.meets b = true ↔ max a.first b.first ≤ min a.last b.last := by simp [meets]
  have hcontains : ∀ (range : TotalRange) (total : Bound), range.contains total.val = true ↔
      range.first ≤ total.val ∧ total.val ≤ range.last := fun range total =>
    range.contains_iff total.least_le total.le_greatest
  simp only [hmeets, hcontains]
  constructor
  · intro h
    have hleast := a.least_le_first
    have hgreatest := a.last_le_greatest
    refine ⟨⟨max a.first b.first, by omega, by omega⟩, ?_⟩
    show (a.first ≤ max a.first b.first ∧ max a.first b.first ≤ a.last) ∧
      b.first ≤ max a.first b.first ∧ max a.first b.first ≤ b.last
    omega
  · intro h
    obtain ⟨total, hina, hinb⟩ := h
    omega

end TotalRange

namespace TableKey

/-- The keys that there are: those read from a text and those made of bounds. -/
inductive Obtained : TableKey → Prop
  | read {text : List Char} {key : TableKey} (h : parse text = .ok key) : Obtained key
  | ofBounds {lower upper : Option Bound} {key : TableKey} (h : ofBounds lower upper = .ok key) :
    Obtained key
  | single (n : Bound) : Obtained (single n)
  | spanning (a b : Bound) : Obtained (spanning a b)

/-- The key has a bound, and its bounds are in order. -/
structure Bounded (key : TableKey) : Prop where
  some_bound : key.range.lower?.isSome ∨ key.range.upper?.isSome
  ordered : ∀ low ∈ key.range.lower?, ∀ high ∈ key.range.upper?, low.val ≤ high.val

theorem ofBounds_eq_error_iff (lower upper : Option Bound) (e : TableError) :
    ofBounds lower upper = .error e ↔ lower = none ∧ upper = none ∧ e = .unbounded := by
  cases lower with
  | none =>
    cases upper with
    | none => simp [ofBounds, TotalRange.ofBounds?, eq_comm]
    | some high => simp [ofBounds, TotalRange.ofBounds?]
  | some low => cases upper <;> simp [ofBounds, TotalRange.ofBounds?]

theorem bounded (key : TableKey) : key.Bounded := by
  obtain ⟨range, label⟩ := key
  cases range with
  | between low high ordered =>
    refine ⟨.inl rfl, ?_⟩
    intro low' hlow high' hhigh
    obtain rfl := Option.some.inj hlow
    obtain rfl := Option.some.inj hhigh
    exact ordered
  | atLeast low =>
    refine ⟨.inl rfl, ?_⟩
    intro low' _ high hhigh
    contradiction
  | atMost high =>
    refine ⟨.inr rfl, ?_⟩
    intro low hlow
    contradiction

end TableKey

namespace ResultTable

variable {α : Type}

/-! ## The places of clashes -/

/-- The entries at two places, the first before the second, have a total in common. -/
structure ClashesAt (entries : List (Entry α)) (place : Fin entries.length × Fin entries.length) :
    Prop where
  before : place.1 < place.2
  shared : ∃ total : Bound, (entries.get place.1).key.contains total.val = true ∧
    (entries.get place.2).key.contains total.val = true

/-- The order of pairs of places by the first of them, then by the second. -/
def Earlier {n : Nat} (a b : Fin n × Fin n) : Prop :=
  a.1 < b.1 ∨ a.1 = b.1 ∧ a.2 < b.2

/-- The places at which the first entry clashes with a later one. -/
def headPlaces (entry : Entry α) (entries : List (Entry α)) :
    List (Fin (entries.length + 1) × Fin (entries.length + 1)) :=
  ((List.finRange entries.length).filter fun j => entry.key.meets (entries.get j).key).map
    fun j => (0, j.succ)

/-- The places at which two entries clash. -/
def clashPlaces : (entries : List (Entry α)) → List (Fin entries.length × Fin entries.length)
  | [] => []
  | entry :: entries =>
    headPlaces entry entries ++ (clashPlaces entries).map fun place => (place.1.succ, place.2.succ)

theorem map_key_finRange (entries : List (Entry α)) :
    (List.finRange entries.length).map (fun j => (entries.get j).key) = entries.map Entry.key := by
  have h := congrArg (List.map Entry.key) (List.map_get_finRange entries)
  rwa [List.map_map] at h

theorem clashing_eq_map_clashPlaces (entries : List (Entry α)) :
    clashing (entries.map Entry.key) =
      (clashPlaces entries).map fun place =>
        ((entries.get place.1).key, (entries.get place.2).key) := by
  induction entries with
  | nil => rfl
  | cons entry entries ih =>
    rw [List.map_cons, clashing, clashPlaces, List.map_append, ih]
    congr 1
    · rw [← map_key_finRange, headPlaces, List.filter_map, List.map_map, List.map_map]
      rfl
    · rw [List.map_map]
      rfl

theorem mem_headPlaces_iff (entry : Entry α) (entries : List (Entry α))
    (place : Fin (entries.length + 1) × Fin (entries.length + 1)) :
    place ∈ headPlaces entry entries ↔
      place.1 = 0 ∧ ∃ j : Fin entries.length, place.2 = j.succ ∧
        entry.key.meets (entries.get j).key = true := by
  obtain ⟨i, k⟩ := place
  simp only [headPlaces, List.mem_map, List.mem_filter, List.mem_finRange, true_and, Prod.mk.injEq]
  constructor
  · intro h
    obtain ⟨j, hmeets, rfl, rfl⟩ := h
    exact ⟨rfl, j, rfl, hmeets⟩
  · intro h
    obtain ⟨rfl, j, rfl, hmeets⟩ := h
    exact ⟨j, hmeets, rfl, rfl⟩

/-- Behind the first entry the clashes are those of the entries behind it. -/
theorem clashesAt_succ_iff (entry : Entry α) (entries : List (Entry α))
    (place : Fin entries.length × Fin entries.length) :
    ClashesAt (entry :: entries) (place.1.succ, place.2.succ) ↔ ClashesAt entries place := by
  constructor
  · intro h
    exact ⟨Fin.succ_lt_succ_iff.1 h.before, h.shared⟩
  · intro h
    exact ⟨Fin.succ_lt_succ_iff.2 h.before, h.shared⟩

theorem mem_clashPlaces_iff (entries : List (Entry α))
    (place : Fin entries.length × Fin entries.length) :
    place ∈ clashPlaces entries ↔ ClashesAt entries place := by
  induction entries with
  | nil => exact place.1.elim0
  | cons entry entries ih =>
    obtain ⟨i, k⟩ := place
    rw [clashPlaces, List.mem_append, mem_headPlaces_iff, List.mem_map]
    constructor
    · intro h
      rcases h with h | h
      · obtain ⟨hi, j, hk, hmeets⟩ := h
        obtain rfl : i = 0 := hi
        obtain rfl : k = j.succ := hk
        exact ⟨Fin.succ_pos j, (TotalRange.meets_iff _ _).1 hmeets⟩
      · obtain ⟨place, hmem, heq⟩ := h
        rw [← heq, clashesAt_succ_iff]
        exact (ih place).1 hmem
    · intro h
      obtain ⟨j, rfl⟩ := Fin.exists_succ_eq.2 (Fin.ne_zero_of_lt h.before)
      by_cases hi : i = 0
      · subst hi
        exact .inl ⟨rfl, j, rfl, (TotalRange.meets_iff _ _).2 h.shared⟩
      · obtain ⟨i, rfl⟩ := Fin.exists_succ_eq.2 hi
        exact .inr ⟨(i, j), (ih (i, j)).2 ((clashesAt_succ_iff entry entries (i, j)).1 h), rfl⟩

theorem pairwise_clashPlaces (entries : List (Entry α)) :
    (clashPlaces entries).Pairwise Earlier := by
  induction entries with
  | nil => exact List.Pairwise.nil
  | cons entry entries ih =>
    rw [clashPlaces, List.pairwise_append]
    refine ⟨?_, ?_, ?_⟩
    · rw [headPlaces, List.pairwise_map]
      refine (List.pairwise_lt_finRange entries.length).filter _ |>.imp ?_
      intro j j' hlt
      exact .inr ⟨rfl, Fin.succ_lt_succ_iff.2 hlt⟩
    · rw [List.pairwise_map]
      refine ih.imp ?_
      intro a b hearlier
      rcases hearlier with hlt | ⟨heq, hlt⟩
      · exact .inl (Fin.succ_lt_succ_iff.2 hlt)
      · exact .inr ⟨congrArg Fin.succ heq, Fin.succ_lt_succ_iff.2 hlt⟩
    · intro a ha b hb
      obtain ⟨place, -, rfl⟩ := List.mem_map.1 hb
      have hfirst := ((mem_headPlaces_iff entry entries a).1 ha).1
      exact .inl (hfirst ▸ Fin.succ_pos place.1)

theorem clashes_eq_map_clashPlaces (table : ResultTable α) :
    table.clashes = (clashPlaces table.entries).map fun place =>
      ((table.entries.get place.1).key, (table.entries.get place.2).key) :=
  clashing_eq_map_clashPlaces table.entries

/-! ## Tables without clashes -/

/-- Every total belongs to one entry at most. -/
def Disjoint (entries : List (Entry α)) : Prop :=
  ∀ total : Bound, ∀ i j : Fin entries.length, (entries.get i).key.contains total.val = true →
    (entries.get j).key.contains total.val = true → i = j

theorem disjoint_iff_not_clashesAt (entries : List (Entry α)) :
    Disjoint entries ↔ ∀ place, ¬ ClashesAt entries place := by
  constructor
  · intro h place hclash
    obtain ⟨total, hfirst, hsecond⟩ := hclash.shared
    exact absurd (h total place.1 place.2 hfirst hsecond) (Fin.ne_of_lt hclash.before)
  · intro h total i j hi hj
    rcases lt_trichotomy i j with hlt | heq | hgt
    · exact absurd ⟨hlt, total, hi, hj⟩ (h (i, j))
    · exact heq
    · exact absurd ⟨hgt, total, hj, hi⟩ (h (j, i))

/-- The places come before all others at which the entries clash. -/
structure FirstClash (entries : List (Entry α)) (place : Fin entries.length × Fin entries.length) :
    Prop where
  clashes : ClashesAt entries place
  first : ∀ other, ClashesAt entries other → other = place ∨ Earlier place other

theorem ensureDisjoint_eq_ok_iff (table : ResultTable α) :
    table.ensureDisjoint = .ok () ↔ Disjoint table.entries := by
  rw [disjoint_iff_not_clashesAt]
  simp only [← mem_clashPlaces_iff]
  rw [← List.eq_nil_iff_forall_not_mem, ensureDisjoint, clashes_eq_map_clashPlaces]
  cases clashPlaces table.entries with
  | nil => simp
  | cons place places => simp

theorem FirstClash.unique {entries : List (Entry α)}
    {a b : Fin entries.length × Fin entries.length} (ha : FirstClash entries a)
    (hb : FirstClash entries b) : a = b := by
  rcases hb.first a ha.clashes with heq | hba
  · exact heq
  · rcases ha.first b hb.clashes with heq | hab
    · exact heq.symm
    · unfold Earlier at hab hba
      omega

theorem ensureDisjoint_eq_error_iff (table : ResultTable α) (e : TableError) :
    table.ensureDisjoint = .error e ↔ ∃ place, FirstClash table.entries place ∧
      e = .overlap (table.entries.get place.1).key.label (table.entries.get place.2).key.label := by
  have hmem := mem_clashPlaces_iff table.entries
  have hpairwise := pairwise_clashPlaces table.entries
  rw [ensureDisjoint, clashes_eq_map_clashPlaces]
  cases hplaces : clashPlaces table.entries with
  | nil =>
    simp only [List.map_nil, reduceCtorEq, false_iff]
    intro h
    obtain ⟨place, hfirst, -⟩ := h
    have hin := (hmem place).2 hfirst.clashes
    rw [hplaces] at hin
    simp at hin
  | cons place places =>
    rw [hplaces] at hpairwise
    have hfirst : FirstClash table.entries place := by
      refine ⟨(hmem place).1 (by rw [hplaces]; exact List.mem_cons_self), ?_⟩
      intro other hother
      have hin := (hmem other).2 hother
      rw [hplaces] at hin
      rcases List.mem_cons.1 hin with heq | hin
      · exact .inl heq
      · exact .inr ((List.pairwise_cons.1 hpairwise).1 other hin)
    simp only [List.map_cons, Except.error.injEq]
    constructor
    · intro h
      exact ⟨place, hfirst, h.symm⟩
    · intro h
      obtain ⟨other, hother, rfl⟩ := h
      rw [hfirst.unique hother]

end ResultTable

/-- A key that can be had has a bound and its bounds are in order, whichever came first. Two keys
meet exactly when they share a total, and a table lists the meetings of its keys by their places,
each once and in order. It is found disjoint exactly when no total belongs to two entries, and
otherwise its first two that meet are named. -/
theorem ResultTable.clashes_are_the_shared_totals {α : Type} (table : ResultTable α) :
    (∀ key : TableKey, key.Obtained → key.Bounded) ∧
    (∀ lower upper e, TableKey.ofBounds lower upper = .error e ↔
      lower = none ∧ upper = none ∧ e = .unbounded) ∧
    (∀ a b : Bound, (TableKey.spanning a b).range.first = min a.val b.val ∧
      (TableKey.spanning a b).range.last = max a.val b.val) ∧
    (∀ a b : TableKey, a.meets b = b.meets a ∧ (a.meets b = true ↔
      ∃ total : Bound, a.contains total.val = true ∧ b.contains total.val = true)) ∧
    (∃ places : List (Fin table.entries.length × Fin table.entries.length),
      places.Pairwise Earlier ∧ (∀ place, place ∈ places ↔ ClashesAt table.entries place) ∧
      table.clashes = places.map fun place =>
        ((table.entries.get place.1).key, (table.entries.get place.2).key)) ∧
    (table.ensureDisjoint = .ok () ↔ Disjoint table.entries) ∧
    (∀ e, table.ensureDisjoint = .error e ↔ ∃ place, FirstClash table.entries place ∧
      e = .overlap (table.entries.get place.1).key.label (table.entries.get place.2).key.label) := by
  refine ⟨fun key _ => key.bounded, TableKey.ofBounds_eq_error_iff, ?_, ?_, ?_,
    table.ensureDisjoint_eq_ok_iff, table.ensureDisjoint_eq_error_iff⟩
  · intro a b
    exact ⟨TotalRange.first_spanning a b, TotalRange.last_spanning a b⟩
  · intro a b
    exact ⟨TotalRange.meets_comm a.range b.range, TotalRange.meets_iff a.range b.range⟩
  · exact ⟨clashPlaces table.entries, pairwise_clashPlaces table.entries,
      mem_clashPlaces_iff table.entries, table.clashes_eq_map_clashPlaces⟩

end Tabletop
