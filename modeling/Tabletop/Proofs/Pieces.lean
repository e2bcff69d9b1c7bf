import Tabletop.Proofs.Lines
import Tabletop.Proofs.Markup

/-!
# The pieces of a line

The maximal runs of a line are told here without cutting it: a separator is skipped, and characters
that are none make up one run as far as they go. The pieces of the line are these runs. Nothing but
separators is lost, and something is lost between any two pieces. As no expression is written with
a separator, expressions set apart by any separators are read back one by one.
-/
namespace Tabletop

namespace Line

/-- Nothing but separators. -/
def IsGap (text : List Char) : Prop := ∀ c ∈ text, isSeparator c = true

/-- Something, and no separator in it. -/
def IsPiece (text : List Char) : Prop := text ≠ [] ∧ ∀ c ∈ text, isSeparator c = false

/-- The maximal runs of characters that are no separators, in the order in which the line has them.
Behind a run the line ends, or there is a separator. -/
inductive Runs : List Char → List (List Char) → Prop
  | nil : Runs [] []
  | separator {c : Char} {line : List Char} {runs : List (List Char)}
      (separator : isSeparator c = true) (rest : Runs line runs) : Runs (c :: line) runs
  | run {run line : List Char} {runs : List (List Char)} (piece : IsPiece run)
      (ends : ∀ c ∈ line.head?, isSeparator c = true) (rest : Runs line runs) :
      Runs (run ++ line) (run :: runs)

theorem isGap_cons {c : Char} {text : List Char} :
    IsGap (c :: text) ↔ isSeparator c = true ∧ IsGap text :=
  List.forall_mem_cons

/-- A gap does not begin with what a piece begins with. -/
theorem IsPiece.not_ends {piece : List Char} (h : IsPiece piece) (line : List Char) :
    ¬ ∀ c ∈ (piece ++ line).head?, isSeparator c = true := by
  obtain ⟨hne, hinside⟩ := h
  cases piece with
  | nil => exact absurd rfl hne
  | cons c piece =>
    intro hends
    have hin := hinside c List.mem_cons_self
    rw [hends c rfl] at hin
    contradiction

theorem ends_append {gap line : List Char} (hgap : IsGap gap) (hempty : gap = [] → line = []) :
    ∀ c ∈ (gap ++ line).head?, isSeparator c = true := by
  intro c hc
  cases gap with
  | nil =>
    rw [hempty rfl] at hc
    contradiction
  | cons d gap =>
    obtain rfl : d = c := Option.some.inj hc
    exact hgap d List.mem_cons_self

namespace Runs

variable {line : List Char} {runs : List (List Char)}

theorem gap_append {gap : List Char} (hgap : IsGap gap) (h : Runs line runs) :
    Runs (gap ++ line) runs := by
  induction gap with
  | nil => exact h
  | cons c gap ih =>
    obtain ⟨hc, hrest⟩ := isGap_cons.1 hgap
    exact .separator hc (ih hrest)

theorem append_gap {gap : List Char} (h : Runs line runs) (hgap : IsGap gap) :
    Runs (line ++ gap) runs := by
  induction h with
  | nil =>
    have hall := gap_append hgap .nil
    rwa [List.append_nil] at hall
  | separator separator _ ih => exact .separator separator ih
  | @run run line runs piece ends _ ih =>
    rw [List.append_assoc]
    refine .run piece ?_ ih
    cases line with
    | nil => exact fun c hc => hgap c (List.mem_of_mem_head? hc)
    | cons d line => exact ends

/-! ## The pieces are the runs -/

theorem pieces_eq (h : Runs line runs) : pieces line = runs := by
  induction h with
  | nil => rfl
  | separator separator _ ih => rw [pieces_cons separator, ih]
  | @run run line runs piece ends _ ih =>
    have hrun : pieces run = [run] := pieces_of_no_separator piece.1 piece.2
    cases line with
    | nil => rw [List.append_nil, hrun, ← ih]; rfl
    | cons c line =>
      have hc := ends c rfl
      rw [pieces_append hc, hrun, ← pieces_cons hc, ih]
      rfl

end Runs

theorem isPiece_cons {c : Char} (hc : isSeparator c = false) {text : List Char}
    (h : ∀ d ∈ text, isSeparator d = false) : IsPiece (c :: text) :=
  ⟨List.cons_ne_nil c text, List.forall_mem_cons.2 ⟨hc, h⟩⟩

/-- A character that is no separator joins the run that it stands before, or makes up a run of its
own. -/
theorem exists_runs (line : List Char) : ∃ runs, Runs line runs := by
  induction line with
  | nil => exact ⟨[], .nil⟩
  | cons c line ih =>
    obtain ⟨runs, h⟩ := ih
    cases hc : isSeparator c with
    | true => exact ⟨runs, .separator hc h⟩
    | false =>
      have halone : IsPiece [c] := isPiece_cons hc (by simp)
      cases h with
      | nil => exact ⟨[[c]], .run halone (by simp) .nil⟩
      | @separator d line _ separator rest =>
        refine ⟨[c] :: runs, .run halone ?_ (.separator separator rest)⟩
        exact fun e he => Option.some.inj he ▸ separator
      | @run run line runs piece ends rest =>
        exact ⟨(c :: run) :: runs, .run (isPiece_cons hc piece.2) ends rest⟩

theorem pieces_eq_iff (line : List Char) (runs : List (List Char)) :
    pieces line = runs ↔ Runs line runs := by
  constructor
  · rintro rfl
    obtain ⟨runs, h⟩ := exists_runs line
    rwa [h.pieces_eq]
  · exact Runs.pieces_eq

theorem runs_pieces (line : List Char) : Runs line (pieces line) :=
  (pieces_eq_iff line _).1 rfl

/-! ## What the runs keep of the line -/

namespace Runs

variable {line : List Char} {runs : List (List Char)}

theorem isPiece (h : Runs line runs) : ∀ run ∈ runs, IsPiece run := by
  induction h with
  | nil => exact fun _ hmem => absurd hmem List.not_mem_nil
  | separator _ _ ih => exact ih
  | run piece _ _ ih => exact List.forall_mem_cons.2 ⟨piece, ih⟩

/-- Put together, the runs are the line without its separators. -/
theorem flatten_eq (h : Runs line runs) : runs.flatten = line.filter fun c => !isSeparator c := by
  induction h with
  | nil => rfl
  | separator separator _ ih => rw [ih, List.filter_cons_of_neg (by simp [separator])]
  | @run run line runs piece _ _ ih =>
    have hrun : run.filter (fun c => !isSeparator c) = run :=
      List.filter_eq_self.2 fun c hc => by simp [piece.2 c hc]
    rw [List.flatten_cons, ih, List.filter_append, hrun]

/-- Where the list of the runs is parted, the line can be. -/
theorem exists_parted {before after : List (List Char)} (h : Runs line (before ++ after)) :
    ∃ left right, line = left ++ right ∧ Runs left before ∧ Runs right after := by
  generalize hruns : before ++ after = runs at h
  induction h generalizing before with
  | nil =>
    obtain ⟨rfl, rfl⟩ := List.append_eq_nil_iff.1 hruns
    exact ⟨[], [], rfl, .nil, .nil⟩
  | @separator c line runs separator rest ih =>
    obtain ⟨left, right, rfl, hleft, hright⟩ := ih hruns
    exact ⟨c :: left, right, rfl, .separator separator hleft, hright⟩
  | @run run line runs piece ends rest ih =>
    cases before with
    | nil =>
      obtain rfl : after = run :: runs := hruns
      exact ⟨[], run ++ line, rfl, .nil, .run piece ends rest⟩
    | cons first before =>
      obtain ⟨rfl, hbefore⟩ := List.cons.inj hruns
      obtain ⟨left, right, rfl, hleft, hright⟩ := ih hbefore
      refine ⟨first ++ left, right, (List.append_assoc _ _ _).symm, .run piece ?_ hleft, hright⟩
      cases left with
      | nil => simp
      | cons c left => exact ends

/-- In front of the first run there are separators, and behind it one or the end. -/
theorem exists_first {first : List Char} (h : Runs line (first :: runs)) :
    ∃ gap right, line = gap ++ (first ++ right) ∧ IsGap gap ∧ IsPiece first ∧
      (∀ c ∈ right.head?, isSeparator c = true) ∧ Runs right runs := by
  generalize hruns : first :: runs = all at h
  induction h with
  | nil => contradiction
  | @separator c line all separator _ ih =>
    obtain ⟨gap, right, rfl, hgap, hrest⟩ := ih hruns
    exact ⟨c :: gap, right, rfl, isGap_cons.2 ⟨separator, hgap⟩, hrest⟩
  | @run run line all piece ends rest _ =>
    obtain ⟨rfl, rfl⟩ := List.cons.inj hruns
    exact ⟨[], line, rfl, by simp [IsGap], piece, ends, rest⟩

/-- Between two runs that follow each other there are separators, at least one. -/
theorem exists_gap {before after : List (List Char)} {first second : List Char}
    (h : Runs line (before ++ first :: second :: after)) :
    ∃ left gap right, line = left ++ first ++ gap ++ second ++ right ∧ gap ≠ [] ∧ IsGap gap ∧
      Runs left before ∧ Runs right after := by
  obtain ⟨left, rest, rfl, hleft, hrest⟩ := h.exists_parted
  obtain ⟨front, behind, rfl, hfront, -, hends, hbehind⟩ := hrest.exists_first
  obtain ⟨gap, right, rfl, hgap, hsecond, -, hright⟩ := hbehind.exists_first
  refine ⟨left ++ front, gap, right, by simp only [List.append_assoc], ?_, hgap,
    hleft.append_gap hfront, hright⟩
  rintro rfl
  exact hsecond.not_ends right hends

end Runs

/-! ## Expressions set apart -/

/-- Pieces with gaps behind them are the runs of what they make up together. Only the last gap may
be empty. -/
theorem runs_flatMap {parts : List (List Char × List Char)}
    (hparts : ∀ part ∈ parts, IsPiece part.1 ∧ IsGap part.2)
    (hapart : ∀ part ∈ parts.dropLast, part.2 ≠ []) :
    Runs (parts.flatMap fun part => part.1 ++ part.2) (parts.map Prod.fst) := by
  induction parts with
  | nil => exact .nil
  | cons part parts ih =>
    obtain ⟨⟨hpiece, hgap⟩, hrest⟩ := List.forall_mem_cons.1 hparts
    rw [List.flatMap_cons, List.map_cons, List.append_assoc]
    cases parts with
    | nil => exact .run hpiece (ends_append hgap fun _ => rfl) (Runs.gap_append hgap .nil)
    | cons next parts =>
      rw [List.dropLast_cons_cons] at hapart
      obtain ⟨hne, hapart⟩ := List.forall_mem_cons.1 hapart
      exact .run hpiece (ends_append hgap fun hempty => absurd hempty hne)
        (Runs.gap_append hgap (ih hrest hapart))

end Line

theorem Expression.isPiece_text (e : Expression) : Line.IsPiece e.text :=
  ⟨by simp [text_eq, front], e.meaningful_text.eq_false Line.ofChar_of_isSeparator⟩

namespace Line

/-- Whatever separators stand before, between and behind them, expressions are read back in order. -/
theorem map_parse_pieces {front : List Char} {parts : List (Expression × List Char)}
    (hfront : IsGap front) (hparts : ∀ part ∈ parts, ¬ part.1.die.IsSingle ∧ IsGap part.2)
    (hapart : ∀ part ∈ parts.dropLast, part.2 ≠ []) :
    (pieces (front ++ parts.flatMap fun part => part.1.text ++ part.2)).map Expression.parse =
      parts.map fun part => .ok part.1 := by
  let written : List (List Char × List Char) := parts.map fun part => (part.1.text, part.2)
  have hruns : Runs (written.flatMap fun part => part.1 ++ part.2) (written.map Prod.fst) := by
    apply runs_flatMap
    · intro part hpart
      obtain ⟨part, hmem, rfl⟩ := List.mem_map.1 hpart
      exact ⟨part.1.isPiece_text, (hparts part hmem).2⟩
    · intro part hpart
      rw [← List.map_dropLast] at hpart
      obtain ⟨part, hmem, rfl⟩ := List.mem_map.1 hpart
      exact hapart part hmem
  rw [List.flatMap_map, List.map_map] at hruns
  have hpieces := (Runs.gap_append hfront hruns).pieces_eq
  dsimp only at hpieces
  rw [hpieces, List.map_map]
  exact List.map_congr_left fun part hmem => Expression.parse_text (hparts part hmem).1

/-- A line is cut into its maximal runs of characters that are no separators, so nothing but
separators is lost and some are lost between any two pieces. Expressions written with separators
between them are the pieces of that line. -/
theorem pieces_are_the_runs (line : List Char) :
    (∀ runs, pieces line = runs ↔ Runs line runs) ∧
    (∀ piece ∈ pieces line, piece ≠ [] ∧ ∀ c ∈ piece, isSeparator c = false) ∧
    (pieces line).flatten = line.filter (fun c => !isSeparator c) ∧
    (∀ before first second after, pieces line = before ++ first :: second :: after →
      ∃ left gap right, line = left ++ first ++ gap ++ second ++ right ∧ gap ≠ [] ∧
        (∀ c ∈ gap, isSeparator c = true) ∧ pieces left = before ∧ pieces right = after) ∧
    ∀ (front : List Char) (parts : List (Expression × List Char)),
      (∀ c ∈ front, isSeparator c = true) →
      (∀ part ∈ parts, ¬ part.1.die.IsSingle ∧ ∀ c ∈ part.2, isSeparator c = true) →
      (∀ part ∈ parts.dropLast, part.2 ≠ []) →
      (pieces (front ++ parts.flatMap fun part => part.1.text ++ part.2)).map Expression.parse =
        parts.map fun part => .ok part.1 := by
  have hruns := runs_pieces line
  refine ⟨pieces_eq_iff line, hruns.isPiece, hruns.flatten_eq, ?_,
    fun front parts hfront hparts hapart => map_parse_pieces hfront hparts hapart⟩
  intro before first second after h
  rw [h] at hruns
  obtain ⟨left, gap, right, hline, hne, hgap, hleft, hright⟩ := hruns.exists_gap
  exact ⟨left, gap, right, hline, hne, hgap, hleft.pieces_eq, hright.pieces_eq⟩

/-- `7d%kl1`. -/
def lowestPercent : Expression :=
  { count := ⟨7, by decide, by decide⟩, die := .percentile, selection := .keepLowest Count.one }

/-- `1d16-d3+8`. -/
def sixteenDown : Expression :=
  { count := Count.one, die := .poly ⟨16, by decide, by decide⟩, step := Step.clamp (-3),
    modifier := some ⟨.plus, 8, by decide⟩ }

/-- Separators of one byte and of three, some of them at both ends. -/
theorem pieces_are_the_runs_of_mixedGaps : ∃ line : List Char,
    line = [',', '\u3000'] ++ "7d%kl1".toList ++ ['\t', ','] ++ "1d16-d3+8".toList ++ ['\u2028'] ∧
      pieces line = ["7d%kl1".toList, "1d16-d3+8".toList] ∧
      (pieces line).map Expression.parse = [.ok lowestPercent, .ok sixteenDown] ∧
      ∃ left gap right, line = left ++ "7d%kl1".toList ++ gap ++ "1d16-d3+8".toList ++ right ∧
        gap ≠ [] ∧ (∀ c ∈ gap, isSeparator c = true) ∧ pieces left = [] ∧ pieces right = [] := by
  have hpercent : ¬ lowestPercent.die.IsSingle := by
    rintro ⟨faces, hdie, -⟩
    contradiction
  have hsixteen : ¬ sixteenDown.die.IsSingle := by
    rintro ⟨faces, hdie, hone⟩
    obtain rfl := Die.poly.inj hdie
    contradiction
  have hfront : ∀ c ∈ [',', '\u3000'], isSeparator c = true := List.all_eq_true.1 (by decide)
  have hparts : ∀ part ∈ [(lowestPercent, ['\t', ',']), (sixteenDown, ['\u2028'])],
      ¬ part.1.die.IsSingle ∧ ∀ c ∈ part.2, isSeparator c = true :=
    List.forall_mem_cons.2 ⟨⟨hpercent, List.all_eq_true.1 (by decide)⟩,
      List.forall_mem_singleton.2 ⟨hsixteen, List.all_eq_true.1 (by decide)⟩⟩
  obtain ⟨-, -, -, hgaps, hreads⟩ := pieces_are_the_runs
    ([',', '\u3000'] ++ "7d%kl1".toList ++ ['\t', ','] ++ "1d16-d3+8".toList ++ ['\u2028'])
  have hpieces : pieces
      ([',', '\u3000'] ++ "7d%kl1".toList ++ ['\t', ','] ++ "1d16-d3+8".toList ++ ['\u2028']) =
        ["7d%kl1".toList, "1d16-d3+8".toList] := by
    decide
  exact ⟨_, rfl, hpieces, hreads _ _ hfront hparts (by simp), hgaps [] _ _ [] hpieces⟩

end Line

end Tabletop
