import ProseTypes.Document.Table
import ProseTypes.Proofs.Text.Cutting

/-!
# Rows and what they are written from

A cell is written into a row with a backslash before each of its bars, and a row has bars between its cells
and around them.  A backslash before anything else stands for itself, so it needs no mark of its own: the
blank behind a cell keeps a backslash at its end apart from the bar.

* `Table.rawCells_escape`: an escaped text is read as part of one cell.
* `Table.rawCells_bars`: cells between bars are read one by one.
* `Table.splitRow_writeRow`: **splitting a row gives the cells that it is written from.**
-/

namespace ProseTypes.Table

def escape (cell : List Char) : List Char :=
  cell.flatMap fun c => if c = '|' then ['\\', '|'] else [c]

def writeRow (cells : List String) : String :=
  "| " ++ Text.join " | " (cells.map fun cell => String.ofList (escape cell.toList)) ++ " |"

/-! ### One cell -/

theorem rawCells_ne_nil (cs : List Char) : rawCells cs ≠ [] := by
  unfold rawCells
  split <;> try split
  all_goals simp

theorem rawCells_cons {c : Char} {cs : List Char} (hBar : c ≠ '|')
    (hEscape : c = '\\' → cs.head? ≠ some '|') :
    rawCells (c :: cs) = (rawCells cs).modifyHead (c :: ·) := by
  obtain ⟨cell, cells, hCells⟩ := List.exists_cons_of_ne_nil (rawCells_ne_nil cs)
  rw [rawCells, hCells]
  · rfl
  · rintro rest rfl rfl
    exact hEscape rfl rfl
  · exact hBar

theorem rawCells_escaped_bar (cs : List Char) :
    rawCells ('\\' :: '|' :: cs) = (rawCells cs).modifyHead ('|' :: ·) := by
  obtain ⟨cell, cells, hCells⟩ := List.exists_cons_of_ne_nil (rawCells_ne_nil cs)
  rw [rawCells, hCells]
  rfl

/-- **An escaped text is read as part of one cell**, if what follows does not start with a bar. -/
theorem rawCells_escape (cell : List Char) {rest : List Char} (hRest : rest.head? ≠ some '|') :
    rawCells (escape cell ++ rest) = (rawCells rest).modifyHead (cell ++ ·) := by
  induction cell with
  | nil => exact (congrFun List.modifyHead_id (rawCells rest)).symm
  | cons c cell ih =>
    rw [escape, List.flatMap_cons, ← escape, List.append_assoc]
    by_cases hBar : c = '|'
    · subst hBar
      rw [if_pos rfl, List.cons_append, List.singleton_append, rawCells_escaped_bar, ih,
        List.modifyHead_modifyHead]
      rfl
    · -- What follows a backslash is the backslash of an escaped bar, or no bar at all.
      have hNext : (escape cell ++ rest).head? ≠ some '|' := by
        cases cell with
        | nil => exact hRest
        | cons d cell =>
          by_cases hd : d = '|' <;> simp [escape, hd]
      rw [if_neg hBar, List.singleton_append, rawCells_cons hBar fun _ => hNext, ih,
        List.modifyHead_modifyHead]
      rfl

/-! ### Rows -/

/-- **Cells between bars are read one by one**, each with the blanks around it. -/
theorem rawCells_bars {cells : List (List Char)} (hCells : cells ≠ []) :
    rawCells (' ' :: ([' ', '|', ' '].intercalate (cells.map escape) ++ [' '])) =
      cells.map fun cell => ' ' :: (cell ++ [' ']) := by
  induction cells with
  | nil => exact absurd rfl hCells
  | cons cell rest ih =>
    have hStart (cs : List Char) : rawCells (' ' :: (escape cell ++ ' ' :: cs)) =
        ((rawCells (' ' :: cs)).modifyHead (cell ++ ·)).modifyHead (' ' :: ·) := by
      rw [rawCells_cons (by decide) (fun h => absurd h (by decide)), rawCells_escape cell (by simp)]
    cases rest with
    | nil =>
      rw [List.map_singleton, List.intercalate_singleton, hStart]
      rfl
    | cons next rest =>
      have ih := ih (by simp)
      rw [List.map_cons] at ih
      rw [List.map_cons, List.map_cons, List.intercalate_cons_cons, List.append_assoc,
        List.append_assoc, List.cons_append, hStart, List.map_cons, ← ih]
      rfl

/-- **Splitting a row gives the cells that it is written from**, whatever blanks stand around the row. -/
theorem splitRow_writeRow {cells : List String} {before after : String} (hCells : cells ≠ [])
    (hUnpadded : ∀ cell ∈ cells, Text.Unpadded cell.toList)
    (hBefore : ∀ c ∈ before.toList, Text.isBlank c = true)
    (hAfter : ∀ c ∈ after.toList, Text.isBlank c = true) :
    splitRow (before ++ writeRow cells ++ after) = cells := by
  let inner := [' ', '|', ' '].intercalate ((cells.map String.toList).map escape)
  have hRow : (writeRow cells).toList = '|' :: ' ' :: (inner ++ [' ', '|']) := by
    simp [writeRow, Text.join, inner, Function.comp_def]
  have hTrim : Text.trim (before ++ writeRow cells ++ after).toList =
      '|' :: ' ' :: (inner ++ [' ', '|']) := by
    rw [String.toList_append, String.toList_append, hRow]
    refine Text.trim_padded hBefore ⟨by simp [Text.isBlank], fun c hc => ?_⟩ hAfter
    obtain rfl : '|' = c := by simpa [List.getLast?_cons] using hc
    rfl
  have hOuter : dropOuterBar (' ' :: (inner ++ [' ', '|'])) = ' ' :: (inner ++ [' ']) := by
    rw [dropOuterBar]
    simp
  have hCell : ∀ cell ∈ cells, Text.trim (' ' :: (cell.toList ++ [' '])) = cell.toList := by
    intro cell hCell
    have hBlank : ∀ c ∈ [' '], Text.isBlank c = true := by simp [Text.isBlank]
    exact Text.trim_padded hBlank (hUnpadded cell hCell) hBlank
  rw [splitRow, hTrim, Line.dropOpeningBar, hOuter, rawCells_bars (by simpa using hCells),
    List.map_map, List.map_map]
  refine (List.map_congr_left fun cell hMem => ?_).trans (List.map_id cells)
  simp [hCell cell hMem]

/-- An empty cell, bars and backslashes at every place of a cell, and other blanks around the row. -/
theorem splitRow_writeRow_bars :
    (∀ cell ∈ ["", "a|b", "\\|", "|", "c\\"], Text.Unpadded cell.toList) ∧
    writeRow ["", "a|b", "\\|", "|", "c\\"] = "|  | a\\|b | \\\\| | \\| | c\\ |" ∧
    splitRow ("\t" ++ writeRow ["", "a|b", "\\|", "|", "c\\"] ++ "\u2003\n") =
      ["", "a|b", "\\|", "|", "c\\"] := by
  have hUnpadded : ∀ cell ∈ ["", "a|b", "\\|", "|", "c\\"], Text.Unpadded cell.toList := by
    decide +kernel
  exact ⟨hUnpadded, by decide +kernel,
    splitRow_writeRow (by simp) hUnpadded (by simp [Text.isBlank]) (by simp [Text.isBlank])⟩

end ProseTypes.Table
