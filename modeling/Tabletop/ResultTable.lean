import Tabletop.TableKey.Parser

/-!
# Result tables

Results under keys of totals. The entries stand in the order in which they are searched: by the
first total of the key, then by the last, then as they were written. A total is answered by the
first entry whose key contains it, so where keys share a total, the one that begins lower
wins.
-/
namespace Tabletop

structure Entry (α : Type) where
  key : TableKey
  result : α

/-- The totals from `first` to `last`, both included. -/
structure Interval where
  first : Int
  last : Int
  deriving DecidableEq

namespace Entry

variable {α : Type}

/-- The order of entries by their ranges alone. -/
def precedes (a b : Entry α) : Bool :=
  a.key.range.precedes b.key.range

theorem precedes_trans (a b c : Entry α) :
    a.precedes b = true → b.precedes c = true → a.precedes c = true :=
  TotalRange.precedes_trans a.key.range b.key.range c.key.range

theorem precedes_total (a b : Entry α) : (a.precedes b || b.precedes a) = true :=
  TotalRange.precedes_total a.key.range b.key.range

end Entry

structure ResultTable (α : Type) where
  entries : List (Entry α)
  sorted : entries.Pairwise fun a b => a.precedes b = true

namespace ResultTable

variable {α : Type}

/-- The table of these entries. -/
def ofEntries (entries : List (Entry α)) : ResultTable α where
  entries := entries.mergeSort Entry.precedes
  sorted := List.pairwise_mergeSort Entry.precedes_trans Entry.precedes_total entries

/-- The table of these entries, whose keys are yet to be read. The first text that is no key
fails the table. -/
def ofTexts (rows : List (List Char × α)) : Except TableError (ResultTable α) :=
  (rows.mapM fun row => (TableKey.parse row.1).map fun key => Entry.mk key row.2).map ofEntries

def size (table : ResultTable α) : Nat :=
  table.entries.length

def isEmpty (table : ResultTable α) : Bool :=
  table.entries.isEmpty

/-- The keys in the order in which they are searched. -/
def keys (table : ResultTable α) : List TableKey :=
  table.entries.map Entry.key

/-- The entry that answers a total. -/
def lookup (table : ResultTable α) (total : Int) : Except TableError (Entry α) :=
  match table.entries.find? (·.key.contains total) with
  | some entry => .ok entry
  | none => .error (.noMatch total)

/-- Takes the entry at a place out and puts the last entry in its place. -/
def swapRemove (entries : List (Entry α)) (i : Nat) (h : i < entries.length) :
    Entry α × List (Entry α) :=
  have hne : entries ≠ [] := List.ne_nil_of_length_pos (Nat.zero_lt_of_lt h)
  (entries[i], (entries.set i (entries.getLast hne)).dropLast)

/-- Takes the table apart: the entry that answers a total, and the others. These are no table any
more, as their order is lost. -/
def takeOut (table : ResultTable α) (total : Int) :
    Except TableError (Entry α × List (Entry α)) :=
  match h : table.entries.findIdx? (·.key.contains total) with
  | some i => .ok (swapRemove table.entries i (List.findIdx?_eq_some_iff_getElem.1 h).1)
  | none => .error (.noMatch total)

/-- The pairs of keys, one before the other, that share a total. -/
def clashing : List TableKey → List (TableKey × TableKey)
  | [] => []
  | key :: keys => (keys.filter key.meets).map (key, ·) ++ clashing keys

def clashes (table : ResultTable α) : List (TableKey × TableKey) :=
  clashing table.keys

/-- Fails with the first pair of keys that share a total. -/
def ensureDisjoint (table : ResultTable α) : Except TableError Unit :=
  match table.clashes with
  | [] => .ok ()
  | (a, b) :: _ => .error (.overlap a.label b.label)

/-- The uncovered totals from `next` to `stop`, when the ranges come in the order of search and
all before `next` is settled. -/
def uncoveredFrom (next stop : Int) : List TotalRange → List Interval
  | [] => [⟨next, stop⟩]
  | range :: ranges =>
    if range.last < next then uncoveredFrom next stop ranges
    else if stop < range.first then [⟨next, stop⟩]
    else
      (if next < range.first then [⟨next, range.first - 1⟩] else []) ++
        (if stop ≤ range.last then [] else uncoveredFrom (range.last + 1) stop ranges)

/-- The stretches of totals from `start` to `stop` that no key contains. -/
def uncovered (table : ResultTable α) (start stop : Int) : List Interval :=
  if stop < start then [] else uncoveredFrom start stop (table.keys.map TableKey.range)

end ResultTable

end Tabletop
