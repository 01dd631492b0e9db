import ProseTypes.Document.Line
import ProseTypes.Proofs.Text.Cutting

/-!
# Classes of lines

Headings, fences, quotes and rows start with different signs, so no line is of two of these classes.

Fences, lines of quotes and separators are also told letter by letter (`Line.Fences`, `Line.Quotes`,
`Line.Separates`).  A separator consists of bars, colons and dashes (`Line.mem_of_isSeparator`), so it
is neither a heading nor a fence.
-/

namespace ProseTypes

namespace Line

/-- The first character of a line that is not blank. -/
def sign? (line : String) : Option Char :=
  (Text.trimStart line.toList).head?

theorem mem_of_sign? {line : String} {c : Char} (h : sign? line = some c) :
    c ∈ line.toList ∧ Text.isBlank c = false := by
  refine ⟨(List.dropWhile_sublist _).subset (List.mem_of_head? h), ?_⟩
  have hFirst := List.head?_dropWhile_not Text.isBlank line.toList
  rw [sign?, Text.trimStart] at h
  rw [h] at hFirst
  simpa using hFirst

theorem level_of_heading? {line : String} {heading : Heading} (h : heading? line = some heading) :
    heading.level = (line.toList.takeWhile (· == '#')).length ∧ 0 < heading.level := by
  simp only [heading?, Option.ite_none_right_eq_some, Bool.and_eq_true, decide_eq_true_eq] at h
  obtain ⟨⟨⟨⟨hPos, -⟩, -⟩, -⟩, hHeading⟩ := h
  cases hHeading
  exact ⟨rfl, hPos⟩

theorem level_le_of_heading? {line : String} {heading : Heading} (h : heading? line = some heading) :
    heading.level ≤ 6 := by
  simp only [heading?, Option.ite_none_right_eq_some, Bool.and_eq_true, decide_eq_true_eq] at h
  obtain ⟨⟨⟨⟨-, hLe⟩, -⟩, -⟩, hHeading⟩ := h
  cases hHeading
  exact hLe

theorem sign?_of_heading? {line : String} {heading : Heading} (h : heading? line = some heading) :
    sign? line = some '#' := by
  obtain ⟨hLevel, hPos⟩ := level_of_heading? h
  rw [hLevel] at hPos
  cases hLine : line.toList with
  | nil => simp [hLine] at hPos
  | cons c cs =>
    by_cases hc : c = '#'
    · rw [sign?, hLine, hc, Text.trimStart, List.dropWhile_cons, if_neg (by decide),
        List.head?_cons]
    · simp [hLine, hc] at hPos

theorem sign?_of_isFence {line : String} (h : isFence line = true) : sign? line = some '\x60' := by
  rw [isFence, fence, List.isPrefixOf_iff_prefix] at h
  obtain ⟨rest, hRest⟩ := h
  rw [sign?, ← hRest]
  rfl

theorem sign?_of_isQuote {line : String} (h : isQuote line = true) : sign? line = some '>' := by
  rw [isQuote] at h
  rw [sign?]
  split at h
  · rename_i hLine
    rw [hLine, List.head?_cons]
  · rename_i hLine
    rw [hLine, List.head?_cons]
  · cases h

theorem sign?_of_isRow {line : String} (h : isRow line = true) : sign? line = some '|' :=
  beq_iff_eq.mp h

theorem isBlankLine_of_sign? {line : String} {c : Char} (h : sign? line = some c) :
    Text.isBlankLine line = false := by
  obtain ⟨hMem, hBlank⟩ := mem_of_sign? h
  rw [Text.isBlankLine, List.all_eq_false]
  exact ⟨c, hMem, by simp [hBlank]⟩

theorem isBlankLine_of_isFence {line : String} (h : isFence line = true) :
    Text.isBlankLine line = false :=
  isBlankLine_of_sign? (sign?_of_isFence h)

theorem isFence_of_isBlankLine {line : String} (h : Text.isBlankLine line = true) :
    isFence line = false := by
  cases hFence : isFence line with
  | false => rfl
  | true =>
    rw [isBlankLine_of_isFence hFence] at h
    cases h

/-- **A line that starts with another sign is neither a heading nor a fence.** -/
theorem plain_of_sign? {line : String} {c : Char} (h : sign? line = some c) (hHash : c ≠ '#')
    (hAccent : c ≠ '\x60') : heading? line = none ∧ isFence line = false := by
  constructor
  · cases hHeading : heading? line with
    | none => rfl
    | some heading =>
      rw [sign?_of_heading? hHeading, Option.some.injEq] at h
      exact absurd h.symm hHash
  · cases hFence : isFence line with
    | false => rfl
    | true =>
      rw [sign?_of_isFence hFence, Option.some.injEq] at h
      exact absurd h.symm hAccent

theorem plain_of_isRow {line : String} (h : isRow line = true) :
    heading? line = none ∧ isFence line = false :=
  plain_of_sign? (sign?_of_isRow h) (by decide) (by decide)

theorem plain_of_isQuote {line : String} (h : isQuote line = true) :
    heading? line = none ∧ isFence line = false :=
  plain_of_sign? (sign?_of_isQuote h) (by decide) (by decide)

/-- **A heading is no fence**: it starts with a sign of its own. -/
theorem isFence_of_heading? {line : String} {heading : Heading} (h : heading? line = some heading) :
    isFence line = false := by
  cases hFence : isFence line with
  | false => rfl
  | true =>
    have hSign := sign?_of_heading? h
    rw [sign?_of_isFence hFence] at hSign
    cases hSign

theorem heading?_of_isFence {line : String} (h : isFence line = true) : heading? line = none := by
  cases hHeading : heading? line with
  | none => rfl
  | some heading =>
    rw [isFence_of_heading? hHeading] at h
    cases h

theorem countP_isFence_eq_zero {lines : List String} (h : ∀ line ∈ lines, isFence line = false) :
    lines.countP isFence = 0 := by
  rw [List.countP_eq_zero]
  intro line hLine
  rw [h line hLine]
  exact Bool.false_ne_true

/-! ### Lines letter by letter -/

/-- A line of a quote with the text behind its marker: an angle bracket behind blanks, and behind it a space with
the text, or nothing. -/
def Quotes (line text : String) : Prop :=
  ∃ blanks : String, (∀ c ∈ blanks.toList, Text.isBlank c = true) ∧
    (line = blanks ++ "> " ++ text ∨ line = blanks ++ ">" ∧ text = "")

theorem quotes_unquoted {line : String} (h : isQuote line = true) : Quotes line (unquoted line) := by
  obtain ⟨blanks, hBlanks, hLine⟩ := Text.exists_trimStart line.toList
  refine ⟨String.ofList blanks, by simpa using hBlanks, ?_⟩
  rw [isQuote] at h
  split at h
  · rename_i hStart
    right
    rw [hStart] at hLine
    refine ⟨String.toList_inj.mp (by simpa using hLine), ?_⟩
    rw [unquoted, hStart]
    rfl
  · rename_i text hStart
    left
    rw [hStart] at hLine
    rw [unquoted, hStart]
    exact String.toList_inj.mp (by simpa using hLine)
  · cases h

/-- A fence line: three grave accents behind blanks, and any text behind them. -/
def Fences (line : String) : Prop :=
  ∃ blanks text : String, (∀ c ∈ blanks.toList, Text.isBlank c = true) ∧
    line = blanks ++ "\x60\x60\x60" ++ text

theorem isFence_iff {line : String} : isFence line = true ↔ Fences line := by
  rw [isFence, List.isPrefixOf_iff_prefix]
  constructor
  · rintro ⟨text, hText⟩
    obtain ⟨blanks, hBlanks, hLine⟩ := Text.exists_trimStart line.toList
    rw [← hText] at hLine
    refine ⟨String.ofList blanks, String.ofList text, by simpa using hBlanks,
      String.toList_inj.mp ?_⟩
    simpa [fence] using hLine
  · rintro ⟨blanks, text, hBlanks, rfl⟩
    refine ⟨text.toList, ?_⟩
    rw [String.toList_append, String.toList_append, Text.trimStart, List.append_assoc,
      List.dropWhile_append_of_pos hBlanks]
    rfl

/-- A line without the blanks at its end. -/
def Trims (line kept : String) : Prop :=
  ∃ blanks : String, (∀ c ∈ blanks.toList, Text.isBlank c = true) ∧ line = kept ++ blanks ∧
    ∀ c ∈ kept.toList.getLast?, Text.isBlank c = false

/-! ### Separators -/

/-- A cell of a separator: dashes with a colon at either end, at both or at none, between spaces and tabs. -/
def Rules (cell : String) : Prop :=
  ∃ (before left right after : String) (n : Nat),
    (∀ c ∈ before.toList ++ after.toList, c = ' ' ∨ c = '\t') ∧
    (left = "" ∨ left = ":") ∧ (right = "" ∨ right = ":") ∧
    cell = before ++ left ++ String.ofList (List.replicate (n + 1) '-') ++ right ++ after

/-- A separator line: cells of dashes between bars, between blanks; the outer bars may be left out. -/
def Separates (line : String) : Prop :=
  ∃ (before left right after : String) (cells : List String),
    (∀ c ∈ before.toList ++ after.toList, Text.isBlank c = true) ∧
    (left = "" ∨ left = "|") ∧ (right = "" ∨ right = "|") ∧
    cells ≠ [] ∧ (∀ cell ∈ cells, Rules cell) ∧
    line = before ++ left ++ "|".intercalate cells ++ right ++ after

theorem isSpaceOrTab_iff {c : Char} : isSpaceOrTab c = true ↔ c = ' ' ∨ c = '\t' := by
  rw [isSpaceOrTab, Bool.or_eq_true, beq_iff_eq, beq_iff_eq]

theorem exists_tail_of_head? (sign : Char) (cs : List Char) :
    ∃ left, (left = [] ∨ left = [sign]) ∧
      cs = left ++ if cs.head? == some sign then cs.tail else cs := by
  split
  · rename_i hHead
    obtain ⟨rest, rfl⟩ := List.head?_eq_some_iff.mp (beq_iff_eq.mp hHead)
    exact ⟨_, Or.inr rfl, rfl⟩
  · exact ⟨[], Or.inl rfl, rfl⟩

theorem exists_dropLast_of_getLast? (sign : Char) (cs : List Char) :
    ∃ right, (right = [] ∨ right = [sign]) ∧
      cs = (if cs.getLast? == some sign then cs.dropLast else cs) ++ right := by
  split
  · rename_i hLast
    obtain ⟨rest, rfl⟩ := List.getLast?_eq_some_iff.mp (beq_iff_eq.mp hLast)
    exact ⟨_, Or.inr rfl, by simp⟩
  · exact ⟨[], Or.inl rfl, by simp⟩

theorem rules_of_isRule {cell : List Char} (h : isRule cell = true) : Rules (String.ofList cell) := by
  let core := Text.dropEndWhile isSpaceOrTab (cell.dropWhile isSpaceOrTab)
  let rest := if core.head? == some ':' then core.tail else core
  let dashes := if rest.getLast? == some ':' then rest.dropLast else rest
  obtain ⟨left, hLeft, hCore⟩ : ∃ left, (left = [] ∨ left = [':']) ∧ core = left ++ rest :=
    exists_tail_of_head? ':' core
  obtain ⟨right, hRight, hRest⟩ : ∃ right, (right = [] ∨ right = [':']) ∧ rest = dashes ++ right :=
    exists_dropLast_of_getLast? ':' rest
  obtain ⟨after, hAfter, hEnd⟩ : ∃ after, (∀ c ∈ after, isSpaceOrTab c = true) ∧
      cell.dropWhile isSpaceOrTab = core ++ after :=
    Text.exists_dropEndWhile isSpaceOrTab (cell.dropWhile isSpaceOrTab)
  have hRule : (!dashes.isEmpty && dashes.all (· == '-')) = true := h
  simp only [Bool.and_eq_true, Bool.not_eq_true', List.isEmpty_eq_false_iff, List.all_eq_true,
    beq_iff_eq] at hRule
  obtain ⟨hSome, hDashes⟩ := hRule
  have hAll : dashes = List.replicate (dashes.length - 1 + 1) '-' := by
    rw [Nat.sub_add_cancel (List.length_pos_iff.mpr hSome)]
    exact List.eq_replicate_of_mem hDashes
  refine ⟨String.ofList (cell.takeWhile isSpaceOrTab), String.ofList left, String.ofList right,
    String.ofList after, dashes.length - 1, fun c hc => isSpaceOrTab_iff.mp ?_, ?_, ?_, ?_⟩
  · rw [String.toList_ofList, String.toList_ofList, List.mem_append] at hc
    exact hc.elim List.mem_takeWhile_imp (hAfter c)
  · exact hLeft.imp (congrArg String.ofList) (congrArg String.ofList)
  · exact hRight.imp (congrArg String.ofList) (congrArg String.ofList)
  · rw [← hAll]
    simp only [← String.ofList_append, List.append_assoc]
    rw [← List.append_assoc dashes, ← hRest, ← List.append_assoc left, ← hCore, ← hEnd,
      List.takeWhile_append_dropWhile]

theorem exists_dropOpeningBar (cs : List Char) :
    ∃ left, (left = [] ∨ left = ['|']) ∧ cs = left ++ dropOpeningBar cs := by
  unfold dropOpeningBar
  split
  · exact ⟨_, Or.inr rfl, rfl⟩
  · exact ⟨[], Or.inl rfl, rfl⟩

theorem separates_of_isSeparator {line : String} (h : isSeparator line = true) : Separates line := by
  let core := Text.trim line.toList
  let rest := dropOpeningBar core
  let cells := Text.pieces (· == '|') (dropClosingBar rest)
  obtain ⟨before, hBefore, hLine⟩ := Text.exists_trimStart line.toList
  obtain ⟨after, hAfter, hEnd⟩ : ∃ after, (∀ c ∈ after, Text.isBlank c = true) ∧
      Text.trimStart line.toList = core ++ after :=
    Text.exists_dropEndWhile Text.isBlank (Text.trimStart line.toList)
  obtain ⟨left, hLeft, hCore⟩ : ∃ left, (left = [] ∨ left = ['|']) ∧ core = left ++ rest :=
    exists_dropOpeningBar core
  obtain ⟨right, hRight, hRest⟩ : ∃ right, (right = [] ∨ right = ['|']) ∧
      rest = dropClosingBar rest ++ right :=
    exists_dropLast_of_getLast? '|' rest
  have hCells : "|".intercalate (cells.map String.ofList) = String.ofList (dropClosingBar rest) := by
    rw [← Text.join_eq_intercalate]
    simpa using Text.join_pieces '|' (String.ofList (dropClosingBar rest))
  refine ⟨String.ofList before, String.ofList left, String.ofList right, String.ofList after,
    cells.map String.ofList, ?_, ?_, ?_, ?_, fun cell hCell => ?_, ?_⟩
  · simpa only [String.toList_ofList, List.forall_mem_append] using ⟨hBefore, hAfter⟩
  · exact hLeft.imp (congrArg String.ofList) (congrArg String.ofList)
  · exact hRight.imp (congrArg String.ofList) (congrArg String.ofList)
  · exact mt List.map_eq_nil_iff.mp (Text.pieces_ne_nil _ _)
  · obtain ⟨piece, hPiece, rfl⟩ := List.mem_map.mp hCell
    exact rules_of_isRule (List.all_eq_true.mp h piece hPiece)
  · rw [hCells]
    simp only [← String.ofList_append, List.append_assoc]
    rw [← List.append_assoc (dropClosingBar rest), ← hRest, ← List.append_assoc left, ← hCore, ← hEnd,
      ← hLine, String.ofList_toList]

theorem eq_of_mem_sign {text : String} {sign c : Char} (h : text = "" ∨ text = String.singleton sign)
    (hc : c ∈ text.toList) : c = sign := by
  rcases h with rfl | rfl
  · simp at hc
  · simpa using hc

theorem mem_of_rules {cell : String} (h : Rules cell) {c : Char} (hc : c ∈ cell.toList) :
    Text.isBlank c = true ∨ c = ':' ∨ c = '-' := by
  obtain ⟨before, left, right, after, n, hSpaces, hLeft, hRight, rfl⟩ := h
  have hBlank (hMem : c ∈ before.toList ++ after.toList) : Text.isBlank c = true := by
    rcases hSpaces c hMem with rfl | rfl <;> decide
  simp only [String.toList_append, String.toList_ofList, List.mem_append] at hc hBlank
  rcases hc with (((hc | hc) | hc) | hc) | hc
  · exact Or.inl (hBlank (Or.inl hc))
  · exact Or.inr (Or.inl (eq_of_mem_sign hLeft hc))
  · exact Or.inr (Or.inr (List.eq_of_mem_replicate hc))
  · exact Or.inr (Or.inl (eq_of_mem_sign hRight hc))
  · exact Or.inl (hBlank (Or.inr hc))

/-- **A separator consists of bars, colons and dashes**, and blanks. -/
theorem mem_of_isSeparator {line : String} (h : isSeparator line = true) {c : Char}
    (hc : c ∈ line.toList) : Text.isBlank c ∨ c = '|' ∨ c = ':' ∨ c = '-' := by
  obtain ⟨before, left, right, after, cells, hBlank, hLeft, hRight, -, hCells, rfl⟩ :=
    separates_of_isSeparator h
  simp only [List.mem_append] at hBlank
  simp only [String.toList_append, List.mem_append] at hc
  rcases hc with (((hc | hc) | hc) | hc) | hc
  · exact Or.inl (hBlank c (Or.inl hc))
  · exact Or.inr (Or.inl (eq_of_mem_sign hLeft hc))
  · rw [← Text.join_eq_intercalate] at hc
    rcases Text.mem_join hc with hc | ⟨cell, hCell, hc⟩
    · exact Or.inr (Or.inl (by simpa using hc))
    · exact (mem_of_rules (hCells cell hCell) hc).imp_right Or.inr
  · exact Or.inr (Or.inl (eq_of_mem_sign hRight hc))
  · exact Or.inl (hBlank c (Or.inr hc))

theorem isBlankLine_of_isSeparator {line : String} (h : isSeparator line = true) :
    Text.isBlankLine line = false := by
  rw [Bool.eq_false_iff]
  intro hBlank
  have hTrim : Text.trim line.toList = [] := by
    rw [Text.trim, Text.trimStart, List.dropWhile_eq_nil_iff.mpr (List.all_eq_true.mp hBlank)]
    rfl
  rw [isSeparator, hTrim] at h
  revert h
  decide

theorem plain_of_isSeparator {line : String} (h : isSeparator line = true) :
    heading? line = none ∧ isFence line = false := by
  cases hSign : sign? line with
  | none =>
    constructor
    · cases hHeading : heading? line with
      | none => rfl
      | some heading => rw [sign?_of_heading? hHeading] at hSign; cases hSign
    · cases hFence : isFence line with
      | false => rfl
      | true => rw [sign?_of_isFence hFence] at hSign; cases hSign
  | some c =>
    obtain ⟨hMem, hBlank⟩ := mem_of_sign? hSign
    rcases mem_of_isSeparator h hMem with hc | rfl | rfl | rfl
    · rw [hc] at hBlank
      cases hBlank
    · exact plain_of_sign? hSign (by decide) (by decide)
    · exact plain_of_sign? hSign (by decide) (by decide)
    · exact plain_of_sign? hSign (by decide) (by decide)

end Line

end ProseTypes
