import Mathlib.Data.List.Forall2
import Mathlib.Data.List.Perm.Basic
import Tabletop.ResultTable

/-!
# Which entry answers a total

A table is searched in an order of its own. The entry that it gives is told here by the entries as
they were written, before any sorting: of those that contain the total it begins lowest, then ends
lowest, then was written first.
-/
namespace Tabletop

namespace ResultTable

variable {α : Type}

/-- The entry at place `i` comes before the one at place `j`, or is the same: it begins lower, or
begins there and ends lower, or has the same ends and was written first. -/
def NoLater (entries : List (Entry α)) (i j : Fin entries.length) : Prop :=
  entries[i].key.range.first < entries[j].key.range.first ∨
    entries[i].key.range.first = entries[j].key.range.first ∧
      (entries[i].key.range.last < entries[j].key.range.last ∨
        entries[i].key.range.last = entries[j].key.range.last ∧ i ≤ j)

/-- The entry at place `i` contains the total and comes first of all that do. -/
structure Answers (entries : List (Entry α)) (total : Int) (i : Fin entries.length) : Prop where
  contains : entries[i].key.contains total = true
  first : ∀ j : Fin entries.length, entries[j].key.contains total = true → NoLater entries i j

/-- The table gives for every total the entry that answers it, whole, and fails where there is
none. Taking the entry out of the table gives the same. -/
structure Resolves (entries : List (Entry α)) (table : ResultTable α) : Prop where
  lookup_ok : ∀ total entry, table.lookup total = .ok entry ↔
    ∃ i : Fin entries.length, Answers entries total i ∧ entries[i] = entry
  lookup_error : ∀ total e, table.lookup total = .error e ↔
    e = .noMatch total ∧ ∀ entry ∈ entries, entry.key.contains total = false
  takeOut : ∀ total, (table.takeOut total).map Prod.fst = table.lookup total

theorem NoLater.antisymm {entries : List (Entry α)} {i j : Fin entries.length}
    (hij : NoLater entries i j) (hji : NoLater entries j i) : i = j := by
  unfold NoLater at hij hji
  omega

theorem NoLater.refl {entries : List (Entry α)} (i : Fin entries.length) : NoLater entries i i :=
  .inr ⟨rfl, .inr ⟨rfl, Fin.le_refl i⟩⟩

/-- One entry at most answers a total. -/
theorem Answers.unique {entries : List (Entry α)} {total : Int} {i j : Fin entries.length}
    (hi : Answers entries total i) (hj : Answers entries total j) : i = j :=
  (hi.first j hj.contains).antisymm (hj.first i hi.contains)

/-! ## Searching what was sorted -/

theorem zipIdxLE_iff (entries : List (Entry α)) (i j : Fin entries.length) :
    List.zipIdxLE Entry.precedes (entries[i], i.val) (entries[j], j.val) = true ↔
      NoLater entries i j := by
  have hij := TotalRange.precedes_iff entries[i].key.range entries[j].key.range
  have hji := TotalRange.precedes_iff entries[j].key.range entries[i].key.range
  unfold List.zipIdxLE NoLater Entry.precedes
  by_cases h : entries[i].key.range.precedes entries[j].key.range = true
  · rw [if_pos h]
    rw [hij] at h
    by_cases h' : entries[j].key.range.precedes entries[i].key.range = true
    · rw [if_pos h', decide_eq_true_iff]
      rw [hji] at h'
      omega
    · rw [if_neg h']
      rw [hji] at h'
      simp only [true_iff]
      omega
  · rw [if_neg h]
    rw [hij] at h
    simp only [Bool.false_eq_true, false_iff]
    omega

/-- The entries with their places, in the order of search. -/
def placed (entries : List (Entry α)) : List (Entry α × Nat) :=
  entries.zipIdx.mergeSort (List.zipIdxLE Entry.precedes)

theorem map_fst_placed (entries : List (Entry α)) :
    (placed entries).map Prod.fst = (ofEntries entries).entries :=
  List.mergeSort_zipIdx

theorem mem_placed_iff {entries : List (Entry α)} {entry : Entry α} {i : Nat} :
    (entry, i) ∈ placed entries ↔ ∃ h : i < entries.length, entries[i] = entry := by
  unfold placed
  rw [List.mem_mergeSort, List.mk_mem_zipIdx_iff_getElem?, List.getElem?_eq_some_iff]

theorem pairwise_placed (entries : List (Entry α)) :
    (placed entries).Pairwise fun a b => List.zipIdxLE Entry.precedes a b = true :=
  List.pairwise_mergeSort (List.zipIdxLE_trans Entry.precedes_trans)
    (List.zipIdxLE_total Entry.precedes_total) entries.zipIdx

/-- The first entry found is the one that answers the total. -/
theorem answers_of_find?_eq_some {entries : List (Entry α)} {total : Int} {entry : Entry α}
    (h : (ofEntries entries).entries.find? (·.key.contains total) = some entry) :
    ∃ i : Fin entries.length, Answers entries total i ∧ entries[i] = entry := by
  rw [← map_fst_placed, List.find?_map, Option.map_eq_some_iff] at h
  obtain ⟨⟨found, i⟩, hfind, rfl⟩ := h
  obtain ⟨hcontains, before, after, hsplit, hbefore⟩ := List.find?_eq_some_iff_append.1 hfind
  have hmem : (found, i) ∈ placed entries := by
    rw [hsplit]
    exact List.mem_append_right _ List.mem_cons_self
  obtain ⟨hi, rfl⟩ := mem_placed_iff.1 hmem
  refine ⟨⟨i, hi⟩, ⟨hcontains, ?_⟩, rfl⟩
  intro j hj
  have hplace : (entries[j], j.val) ∈ before ++ (entries[i], i) :: after := by
    rw [← hsplit]
    exact mem_placed_iff.2 ⟨j.isLt, rfl⟩
  have hpairwise := pairwise_placed entries
  rw [hsplit] at hpairwise
  obtain hin | hin := List.mem_append.1 hplace
  · have hnot : (!entries[j].key.contains total) = true := hbefore _ hin
    rw [hj] at hnot
    contradiction
  · obtain heq | hin := List.mem_cons.1 hin
    · obtain rfl : j = ⟨i, hi⟩ := Fin.ext (congrArg Prod.snd heq)
      exact NoLater.refl _
    · rw [← zipIdxLE_iff]
      exact (List.pairwise_cons.1 (List.pairwise_append.1 hpairwise).2.1).1 _ hin

theorem lookup_eq_ok_iff_find? (table : ResultTable α) (total : Int) (entry : Entry α) :
    table.lookup total = .ok entry ↔
      table.entries.find? (·.key.contains total) = some entry := by
  unfold lookup
  cases table.entries.find? (·.key.contains total) with
  | none => simp
  | some found => simp

theorem lookup_eq_error_iff_find? (table : ResultTable α) (total : Int) (e : TableError) :
    table.lookup total = .error e ↔
      e = .noMatch total ∧ table.entries.find? (·.key.contains total) = none := by
  unfold lookup
  cases table.entries.find? (·.key.contains total) with
  | none => simp [eq_comm]
  | some found => simp

theorem mem_ofEntries_iff {entries : List (Entry α)} {entry : Entry α} :
    entry ∈ (ofEntries entries).entries ↔ entry ∈ entries :=
  List.mem_mergeSort

/-- Whatever is in the table can be found, by its place among the entries as they were written. -/
theorem find?_ofEntries_eq_some_iff {entries : List (Entry α)} {total : Int} {entry : Entry α} :
    (ofEntries entries).entries.find? (·.key.contains total) = some entry ↔
      ∃ i : Fin entries.length, Answers entries total i ∧ entries[i] = entry := by
  constructor
  · exact answers_of_find?_eq_some
  · intro h
    obtain ⟨i, hanswers, rfl⟩ := h
    cases hfind : (ofEntries entries).entries.find? (·.key.contains total) with
    | none =>
      have hnone := List.find?_eq_none.1 hfind entries[i] (mem_ofEntries_iff.2 (List.getElem_mem _))
      exact absurd hanswers.contains hnone
    | some found =>
      obtain ⟨j, hfound, rfl⟩ := answers_of_find?_eq_some hfind
      rw [hanswers.unique hfound]

/-! ## Taking an entry out -/

theorem takeOut_fst (table : ResultTable α) (total : Int) :
    (table.takeOut total).map Prod.fst = table.lookup total := by
  unfold takeOut
  split
  · next i h =>
    obtain ⟨hi, hcontains, hbefore⟩ := List.findIdx?_eq_some_iff_getElem.1 h
    have hfind : table.entries.find? (·.key.contains total) = some table.entries[i] :=
      List.find?_eq_some_iff_getElem.2 ⟨hcontains, i, hi, rfl, fun j hj => by simpa using hbefore j hj⟩
    exact ((lookup_eq_ok_iff_find? table total _).2 hfind).symm
  · next h =>
    have hfind : table.entries.find? (·.key.contains total) = none := by
      rw [List.find?_eq_none]
      intro entry hentry
      simp [List.findIdx?_eq_none_iff.1 h entry hentry]
    exact ((lookup_eq_error_iff_find? table total _).2 ⟨rfl, hfind⟩).symm

theorem resolves_ofEntries (entries : List (Entry α)) : Resolves entries (ofEntries entries) where
  lookup_ok total entry := by
    rw [lookup_eq_ok_iff_find?, find?_ofEntries_eq_some_iff]
  lookup_error total e := by
    rw [lookup_eq_error_iff_find?, List.find?_eq_none]
    simp only [mem_ofEntries_iff, Bool.not_eq_true]
  takeOut total := takeOut_fst (ofEntries entries) total

/-! ## Tables of texts -/

/-- The entry is the row, with its text read as the key. -/
structure ReadFrom (row : List Char × α) (entry : Entry α) : Prop where
  key : TableKey.parse row.1 = .ok entry.key
  label : entry.key.label = row.1
  result : entry.result = row.2

/-- The text can be read as a key. -/
def IsKey (text : List Char) : Prop := ∃ key, TableKey.parse text = .ok key

private def readRow (row : List Char × α) : Except TableError (Entry α) :=
  (TableKey.parse row.1).map fun key => Entry.mk key row.2

private theorem readFrom_of_readRow_eq_ok {row : List Char × α} {entry : Entry α}
    (h : readRow row = .ok entry) : ReadFrom row entry := by
  unfold readRow at h
  cases hkey : TableKey.parse row.1 with
  | error e =>
    rw [hkey] at h
    contradiction
  | ok key =>
    rw [hkey] at h
    obtain rfl := Except.ok.inj h
    refine ⟨hkey, ?_, rfl⟩
    unfold TableKey.parse at hkey
    split at hkey
    · contradiction
    · obtain rfl := Except.ok.inj hkey
      rfl

private theorem readRow_of_isKey {row : List Char × α} (h : IsKey row.1) :
    ∃ entry, readRow row = .ok entry := by
  obtain ⟨key, hkey⟩ := h
  refine ⟨⟨key, row.2⟩, ?_⟩
  rw [readRow, hkey]
  rfl

private theorem readRow_of_not_isKey {row : List Char × α} (h : ¬ IsKey row.1) :
    readRow row = .error (.invalidKey row.1) := by
  have herror : TableKey.parse row.1 = .error (.invalidKey row.1) := by
    cases hkey : TableKey.parse row.1 with
    | ok key => exact absurd ⟨key, hkey⟩ h
    | error e =>
      unfold TableKey.parse at hkey
      split at hkey
      · exact hkey.symm
      · contradiction
  rw [readRow, herror]
  rfl

private theorem readRows_cons (row : List Char × α) (rows : List (List Char × α)) :
    (row :: rows).mapM readRow =
      (readRow row).bind fun entry => (rows.mapM readRow).map (entry :: ·) := by
  rw [List.mapM_cons]
  cases readRow row with
  | error e => rfl
  | ok entry => cases rows.mapM readRow <;> rfl

/-- Rows that can all be read are read one by one. -/
private theorem readRows_ok {rows : List (List Char × α)} (h : ∀ row ∈ rows, IsKey row.1) :
    ∃ entries, rows.mapM readRow = .ok entries ∧ List.Forall₂ ReadFrom rows entries := by
  induction rows with
  | nil => exact ⟨[], rfl, .nil⟩
  | cons row rows ih =>
    obtain ⟨entry, hentry⟩ := readRow_of_isKey (h row List.mem_cons_self)
    obtain ⟨entries, hentries, hall⟩ := ih fun r hr => h r (List.mem_cons_of_mem _ hr)
    refine ⟨entry :: entries, ?_, .cons (readFrom_of_readRow_eq_ok hentry) hall⟩
    rw [readRows_cons, hentry, hentries]
    rfl

/-- The first row that cannot be read stops the reading. -/
private theorem readRows_error {before after : List (List Char × α)} {row : List Char × α}
    (hbefore : ∀ r ∈ before, IsKey r.1) (hrow : ¬ IsKey row.1) :
    (before ++ row :: after).mapM readRow = .error (.invalidKey row.1) := by
  induction before with
  | nil =>
    rw [List.nil_append, readRows_cons, readRow_of_not_isKey hrow]
    rfl
  | cons first before ih =>
    obtain ⟨entry, hentry⟩ := readRow_of_isKey (hbefore first List.mem_cons_self)
    rw [List.cons_append, readRows_cons, hentry,
      ih fun r hr => hbefore r (List.mem_cons_of_mem _ hr)]
    rfl

/-- The rows before the first that cannot be read, if there is one. -/
private theorem exists_first_not_isKey {rows : List (List Char × α)}
    (h : ¬ ∀ row ∈ rows, IsKey row.1) : ∃ before row after, rows = before ++ row :: after ∧
      (∀ r ∈ before, IsKey r.1) ∧ ¬ IsKey row.1 := by
  induction rows with
  | nil => exact absurd (by simp) h
  | cons row rows ih =>
    by_cases hrow : IsKey row.1
    · have hrest : ¬ ∀ r ∈ rows, IsKey r.1 := by
        intro hall
        exact h (List.forall_mem_cons.2 ⟨hrow, hall⟩)
      obtain ⟨before, bad, after, rfl, hbefore, hbad⟩ := ih hrest
      exact ⟨row :: before, bad, after, rfl, List.forall_mem_cons.2 ⟨hrow, hbefore⟩, hbad⟩
    · exact ⟨[], row, rows, rfl, by simp, hrow⟩

theorem ofTexts_of_isKey {rows : List (List Char × α)} (h : ∀ row ∈ rows, IsKey row.1) :
    ∃ entries, ofTexts rows = .ok (ofEntries entries) ∧ List.Forall₂ ReadFrom rows entries := by
  obtain ⟨entries, hentries, hall⟩ := readRows_ok h
  refine ⟨entries, ?_, hall⟩
  show (rows.mapM readRow).map ofEntries = _
  rw [hentries]
  rfl

theorem ofTexts_of_not_isKey {before after : List (List Char × α)} {row : List Char × α}
    (hbefore : ∀ r ∈ before, IsKey r.1) (hrow : ¬ IsKey row.1) :
    ofTexts (before ++ row :: after) = .error (.invalidKey row.1) := by
  show ((before ++ row :: after).mapM readRow).map ofEntries = _
  rw [readRows_error hbefore hrow]
  rfl

theorem ofTexts_eq_error_iff (rows : List (List Char × α)) (e : TableError) :
    ofTexts rows = .error e ↔ ∃ before row after, rows = before ++ row :: after ∧
      (∀ r ∈ before, IsKey r.1) ∧ ¬ IsKey row.1 ∧ e = .invalidKey row.1 := by
  constructor
  · intro h
    have hsome : ¬ ∀ row ∈ rows, IsKey row.1 := by
      intro hall
      obtain ⟨entries, hok, -⟩ := ofTexts_of_isKey hall
      rw [hok] at h
      contradiction
    obtain ⟨before, row, after, rfl, hbefore, hrow⟩ := exists_first_not_isKey hsome
    rw [ofTexts_of_not_isKey hbefore hrow] at h
    exact ⟨before, row, after, rfl, hbefore, hrow, (Except.error.inj h).symm⟩
  · intro h
    obtain ⟨before, row, after, rfl, hbefore, hrow, rfl⟩ := h
    exact ofTexts_of_not_isKey hbefore hrow

theorem exists_read_of_ofTexts_eq_ok {rows : List (List Char × α)} {table : ResultTable α}
    (h : ofTexts rows = .ok table) :
    ∃ read, List.Forall₂ ReadFrom rows read ∧ table = ofEntries read := by
  have hall : ∀ row ∈ rows, IsKey row.1 := by
    by_contra hsome
    obtain ⟨before, row, after, rfl, hbefore, hrow⟩ := exists_first_not_isKey hsome
    rw [ofTexts_of_not_isKey hbefore hrow] at h
    contradiction
  obtain ⟨read, hok, hread⟩ := ofTexts_of_isKey hall
  rw [hok] at h
  exact ⟨read, hread, (Except.ok.inj h).symm⟩

/-- A table of texts fails with the first text that is no key, and only then; every table, of
texts or of keys, answers by the entries in the order in which they were written. -/
theorem resolution_of_rows (rows : List (List Char × α)) (entries : List (Entry α)) :
    ((∃ e, ofTexts rows = .error e) ↔ ∃ row ∈ rows, ¬ IsKey row.1) ∧
    (∀ e, ofTexts rows = .error e ↔ ∃ before row after, rows = before ++ row :: after ∧
      (∀ r ∈ before, IsKey r.1) ∧ ¬ IsKey row.1 ∧ e = .invalidKey row.1) ∧
    (∀ table, ofTexts rows = .ok table →
      ∃ read, List.Forall₂ ReadFrom rows read ∧ Resolves read table) ∧
    Resolves entries (ofEntries entries) := by
  refine ⟨?_, ofTexts_eq_error_iff rows, ?_, resolves_ofEntries entries⟩
  · constructor
    · intro hfails
      obtain ⟨e, h⟩ := hfails
      obtain ⟨before, row, after, rfl, -, hrow, -⟩ := (ofTexts_eq_error_iff rows e).1 h
      exact ⟨row, List.mem_append_right _ List.mem_cons_self, hrow⟩
    · intro hbad
      obtain ⟨row, hmem, hrow⟩ := hbad
      obtain ⟨before, first, after, rfl, hbefore, hfirst⟩ :=
        exists_first_not_isKey fun hall => hrow (hall row hmem)
      exact ⟨_, ofTexts_of_not_isKey hbefore hfirst⟩
  · intro table h
    obtain ⟨read, hread, rfl⟩ := exists_read_of_ofTexts_eq_ok h
    exact ⟨read, hread, resolves_ofEntries read⟩

end ResultTable

end Tabletop
