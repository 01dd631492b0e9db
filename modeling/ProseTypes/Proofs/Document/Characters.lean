import ProseTypes.Proofs.Document.Coverage
import ProseTypes.Proofs.Structure.Names

/-!
# Where the characters of blocks come from

Reading a document trims, cuts and joins its lines.  So every character of a cell is one of its lines
or of the bar that joins extra cells (`Document.mem_cell`), and every character of running text is one
of its lines or the line feed between two of them (`Document.mem_text`).  What no line contains, no
cell and no paragraph contains.
-/

namespace ProseTypes

/-! ### Tables -/

namespace Table

variable {c : Char}

theorem rawCells_subset {cs cell : List Char} (h : cell ∈ rawCells cs) : cell ⊆ cs := by
  fun_induction rawCells cs generalizing cell with
  | case1 => simp [List.mem_singleton.mp h]
  | case2 cs hNone ih => simp [List.mem_singleton.mp h]
  | case3 cs first rest hCells ih =>
    rw [hCells] at ih
    rcases List.mem_cons.mp h with rfl | hRest
    · have hFirst : '|' :: first ⊆ '|' :: cs := List.cons_subset_cons _ (ih List.mem_cons_self)
      exact List.subset_cons_of_subset _ hFirst
    · exact List.subset_cons_of_subset _
        (List.subset_cons_of_subset _ (ih (List.mem_cons_of_mem first hRest)))
  | case4 cs ih =>
    rcases List.mem_cons.mp h with rfl | hRest
    · exact List.nil_subset _
    · exact List.subset_cons_of_subset _ (ih hRest)
  | case5 d cs _ _ hNone ih => simp [List.mem_singleton.mp h]
  | case6 d cs _ _ first rest hCells ih =>
    rw [hCells] at ih
    rcases List.mem_cons.mp h with rfl | hRest
    · exact List.cons_subset_cons _ (ih List.mem_cons_self)
    · exact List.subset_cons_of_subset _ (ih (List.mem_cons_of_mem first hRest))

theorem dropOuterBar_subset (cs : List Char) : dropOuterBar cs ⊆ cs := by
  unfold dropOuterBar
  split
  · exact List.Subset.refl cs
  · rename_i before _ hReverse
    intro c hc
    have hMem : c ∈ cs.reverse := by
      rw [hReverse]
      exact List.mem_cons_of_mem _ (List.mem_reverse.mp hc)
    exact List.mem_reverse.mp hMem
  · exact List.Subset.refl cs

theorem dropOpeningBar_subset (cs : List Char) : Line.dropOpeningBar cs ⊆ cs := by
  unfold Line.dropOpeningBar
  split
  · exact List.subset_cons_self _ _
  · exact List.Subset.refl _

theorem mem_splitRow {line cell : String} (hCell : cell ∈ splitRow line) (h : c ∈ cell.toList) :
    c ∈ line.toList := by
  obtain ⟨raw, hRaw, rfl⟩ := List.mem_map.mp hCell
  rw [String.toList_ofList] at h
  have hInside := rawCells_subset hRaw (Text.trim_subset raw h)
  exact Text.trim_subset _ (dropOpeningBar_subset _ (dropOuterBar_subset _ hInside))

theorem select_subset {α : Type} (marks : List Bool) (as : List α) : select marks as ⊆ as := by
  fun_induction select marks as with
  | case1 marks a as ih => exact List.cons_subset_cons a ih
  | case2 keep marks a as hDrop ih => exact List.subset_cons_of_subset a ih
  | case3 => exact List.nil_subset _

theorem mem_extendLast {cells extra : List String} {cell : String}
    (hCell : cell ∈ extendLast cells extra) (h : c ∈ cell.toList) :
    c ∈ " | ".toList ∨ ∃ part ∈ cells ++ extra, c ∈ part.toList := by
  fun_induction extendLast cells extra with
  | case1 cells => exact Or.inr ⟨cell, by simpa using hCell, h⟩
  | case2 extra => exact Or.inr ⟨cell, by simpa using hCell, h⟩
  | case3 last extra =>
    rw [List.mem_singleton.mp hCell] at h
    exact (Text.mem_join h).imp_right fun hPart => by simpa using hPart
  | case4 first rest extra _ _ ih =>
    rcases List.mem_cons.mp hCell with rfl | hCell
    · exact Or.inr ⟨cell, List.mem_cons_self, h⟩
    · exact (ih hCell).imp_right fun ⟨part, hPart, hc⟩ => ⟨part, List.mem_cons_of_mem _ hPart, hc⟩

theorem mem_cell_ofLines? {header : String} {body : List String} {table : Table}
    (hTable : ofLines? header body = some table) {row : List String} (hRow : row ∈ table.rows)
    {cell : String} (hCell : cell ∈ row) (h : c ∈ cell.toList) :
    c ∈ " | ".toList ∨ ∃ line ∈ body, c ∈ line.toList := by
  unfold ofLines? at hTable
  dsimp only at hTable
  split at hTable
  · cases hTable
  · obtain rfl := Option.some.inj hTable
    obtain ⟨line, hLine, rfl⟩ := List.mem_map.mp hRow
    rcases mem_extendLast hCell h with hBar | ⟨part, hPart, hc⟩
    · exact Or.inl hBar
    · refine Or.inr ⟨line, hLine, mem_splitRow ?_ hc⟩
      rcases List.mem_append.mp hPart with hKept | hExtra
      · exact select_subset _ _ hKept
      · exact (List.drop_sublist _ _).subset hExtra

end Table

/-! ### Documents -/

theorem Outline.mem_of_mem_marked {inCode : Bool} {lines : List String} {line : String}
    {mark : Option Heading} (h : (line, mark) ∈ marked inCode lines) : line ∈ lines := by
  induction lines generalizing inCode with
  | nil => cases h
  | cons first rest ih =>
    rcases List.mem_cons.mp h with hFirst | h
    · rw [(Prod.mk.inj hFirst).1]
      exact List.mem_cons_self
    · exact List.mem_cons_of_mem first (ih h)

theorem Line.mem_of_mem_trimmedEnd {line : String} {c : Char} (h : c ∈ (Line.trimmedEnd line).toList) :
    c ∈ line.toList := by
  rw [Line.trimmedEnd, String.toList_ofList] at h
  exact Text.trimEnd_subset _ h

theorem Line.exists_trims_of_mem {lines kept : List String} (h : List.Forall₂ Line.Trims lines kept)
    {text : String} (hText : text ∈ kept) : ∃ line ∈ lines, Line.Trims line text := by
  induction h with
  | nil => cases hText
  | cons hHead _ ih =>
    rcases List.mem_cons.mp hText with rfl | hText
    · exact ⟨_, List.mem_cons_self, hHead⟩
    · obtain ⟨line, hLine, hTrims⟩ := ih hText
      exact ⟨line, List.mem_cons_of_mem _ hLine, hTrims⟩

theorem Covers.exists_holds {blocks : List Block} {lines : List (String × Option Heading)}
    (h : Covers blocks lines) {block : Block} (hBlock : block ∈ blocks) :
    ∃ own, block.Holds own ∧ ∀ line ∈ own, ∃ mark, (line, mark) ∈ lines := by
  induction h with
  | nil => cases hBlock
  | blank _ _ ih =>
    obtain ⟨own, hOwn, hLines⟩ := ih hBlock
    exact ⟨own, hOwn, fun line hLine => (hLines line hLine).imp fun _ => List.mem_cons_of_mem _⟩
  | heading _ ih =>
    obtain ⟨own, hOwn, hLines⟩ := ih hBlock
    exact ⟨own, hOwn, fun line hLine => (hLines line hLine).imp fun _ => List.mem_cons_of_mem _⟩
  | block _ hHolds _ ih =>
    rcases List.mem_cons.mp hBlock with rfl | hBlock
    · refine ⟨_, hHolds, fun line hLine => ⟨none, List.mem_append_left _ ?_⟩⟩
      exact List.mem_map_of_mem hLine
    · obtain ⟨own, hOwn, hLines⟩ := ih hBlock
      exact ⟨own, hOwn, fun line hLine => (hLines line hLine).imp fun _ => List.mem_append_right _⟩

namespace Document

variable {path : String} {lines : List String} {visit : Visit} {c : Char}

/-- **The blocks of a document are made of its lines.** -/
theorem exists_holds (hVisit : visit ∈ (ofLines path lines).walk) {block : Block}
    (hBlock : block ∈ visit.here.blocks) : ∃ own, block.Holds own ∧ own ⊆ lines := by
  have hMem : block ∈ (ofLines path lines).blocks := List.mem_flatMap.mpr ⟨visit, hVisit, hBlock⟩
  obtain ⟨own, hHolds, hLines⟩ := (covers_ofLines path lines).exists_holds hMem
  refine ⟨own, hHolds, fun line hLine => ?_⟩
  obtain ⟨mark, hMark⟩ := hLines line hLine
  exact Outline.mem_of_mem_marked hMark

/-- **A character of a cell is one of a line**, or one that joins cells. -/
theorem mem_cell (hVisit : visit ∈ (ofLines path lines).walk) {table : Table}
    (hTable : table ∈ visit.here.tables) {row : List String} (hRow : row ∈ table.rows)
    {cell : String} (hCell : cell ∈ row) (h : c ∈ cell.toList) :
    c ∈ " | ".toList ∨ ∃ line ∈ lines, c ∈ line.toList := by
  obtain ⟨block, hBlock, hMade⟩ := List.mem_filterMap.mp hTable
  cases block with
  | table made =>
    obtain rfl := Option.some.inj hMade
    obtain ⟨own, ⟨header, separator, body, rfl, -, hLines⟩, hOwn⟩ := exists_holds hVisit hBlock
    refine (Table.mem_cell_ofLines? hLines hRow hCell h).imp_right ?_
    rintro ⟨line, hLine, hc⟩
    exact ⟨line, hOwn (List.mem_cons_of_mem _ (List.mem_cons_of_mem _ hLine)), hc⟩
  | code language content => cases hMade
  | quote content => cases hMade
  | text content => cases hMade

/-- **A character of a paragraph is one of a line**, or a line feed. -/
theorem mem_text (hVisit : visit ∈ (ofLines path lines).walk) {content : String}
    (hContent : content ∈ visit.here.paragraphs) (h : c ∈ content.toList) :
    c ∈ "\n".toList ∨ ∃ line ∈ lines, c ∈ line.toList := by
  obtain ⟨block, hBlock, hMade⟩ := List.mem_filterMap.mp hContent
  cases block with
  | text made =>
    obtain rfl := Option.some.inj hMade
    obtain ⟨own, ⟨kept, hKept, rfl⟩, hOwn⟩ := exists_holds hVisit hBlock
    rw [← Text.join_eq_intercalate] at h
    refine (Text.mem_join h).imp_right ?_
    rintro ⟨text, hText, hc⟩
    obtain ⟨line, hLine, blanks, -, rfl, -⟩ := Line.exists_trims_of_mem hKept hText
    exact ⟨text ++ blanks, hOwn hLine, by simp [hc]⟩
  | table made => cases hMade
  | code language content => cases hMade
  | quote content => cases hMade

end Document

end ProseTypes
