import ProseTypes.Proofs.Document.TextBlocks

/-!
# Texts in normal form

In the tree of a document no text comes right after another one, and every text starts with a line that is not
blank.  It also ends with one, with one exception: code that is opened and has nothing but blank lines in it
up to the end of the document goes to the text before it line by line, blank lines included
(`Document.texts_normal`).

* `Outline.even_of_mem_ownLines`: if the fences of all lines are even in number, so are those of each section.
* `Outline.ownLines_append`: lines after lines with closed code go to the last of their sections.
-/

namespace ProseTypes

namespace Outline

/-! ### Lines of sections -/

theorem ownLines_heading {line : String} {heading : Heading} (h : Line.heading? line = some heading)
    (rest : List String) : (read false (line :: rest)).ownLines = [] :: (read false rest).ownLines := by
  rw [read_heading h]
  rfl

theorem ownLines_line {inCode : Bool} {line : String} (h : inCode = true ∨ Line.heading? line = none)
    (rest : List String) : (read inCode (line :: rest)).ownLines =
      (line :: (read (inCode != Line.isFence line) rest).preamble) ::
        (read (inCode != Line.isFence line) rest).parts.map Part.lines := by
  rw [read_line h]
  rfl

theorem subset_of_mem_ownLines {inCode : Bool} {lines own : List String}
    (h : own ∈ (read inCode lines).ownLines) : own ⊆ lines := by
  induction lines generalizing inCode own with
  | nil => simpa [ownLines, read] using h
  | cons line rest ih =>
    rcases plain_or_heading inCode line with hOpen | ⟨rfl, heading, hHeading⟩
    · rw [ownLines_line hOpen, List.mem_cons] at h
      rcases h with rfl | h
      · exact List.cons_subset_cons line (ih List.mem_cons_self)
      · exact List.subset_cons_of_subset line (ih (List.mem_cons_of_mem _ h))
    · rw [ownLines_heading hHeading, List.mem_cons] at h
      rcases h with rfl | h
      · exact List.nil_subset _
      · exact List.subset_cons_of_subset line (ih h)

theorem even_of_leavesClosed {inCode : Bool} {lines : List String} (h : LeavesClosed inCode lines) :
    Even ((read inCode lines).preamble.countP Line.isFence + inCode.toNat) ∧
      ∀ part ∈ (read inCode lines).parts, Even (part.lines.countP Line.isFence) := by
  induction h with
  | nil => exact ⟨by decide, by simp [read]⟩
  | line hOpen _ ih =>
    rw [read_line hOpen]
    exact ⟨(even_countP_cons _ _ _).mpr ih.1, ih.2⟩
  | heading hHeading _ ih =>
    rw [read_heading hHeading]
    refine ⟨by simp, fun part hPart => ?_⟩
    rcases List.mem_cons.mp hPart with rfl | hPart
    · exact ih.1
    · exact ih.2 part hPart

/-- **The code of every section is closed if all code is.** -/
theorem even_of_mem_ownLines {lines own : List String} (hFences : Even (lines.countP Line.isFence))
    (h : own ∈ (read false lines).ownLines) : Even (own.countP Line.isFence) := by
  have hClosed : LeavesClosed false lines := leavesClosed_of_even (by simpa using hFences)
  obtain ⟨hPreamble, hParts⟩ := even_of_leavesClosed hClosed
  rcases List.mem_cons.mp h with rfl | h
  · exact hPreamble
  · obtain ⟨part, hPart, rfl⟩ := List.mem_map.mp h
    exact hParts part hPart

/-- **Lines after closed code go to the last section before them**, up to the next heading. -/
theorem ownLines_append {inCode : Bool} {first : List String} (h : LeavesClosed inCode first)
    (rest : List String) : ∃ init last, (read inCode first).ownLines = init ++ [last] ∧
      (read inCode (first ++ rest)).ownLines =
        init ++ (last ++ (read false rest).preamble) :: (read false rest).parts.map Part.lines := by
  induction h with
  | nil => exact ⟨[], [], rfl, rfl⟩
  | @line inCode line first hOpen _ ih =>
    obtain ⟨init, last, hFirst, hAll⟩ := ih
    rw [List.cons_append, ownLines_line hOpen, ownLines_line hOpen]
    -- The line goes to the first of the sections, which may be the last one too.
    cases init with
    | nil =>
      obtain ⟨hLast, hNone⟩ := List.cons.inj hFirst
      obtain ⟨hOwn, hParts⟩ := List.cons.inj hAll
      exact ⟨[], line :: last, by rw [hLast, hNone]; rfl, by rw [hOwn, hParts]; rfl⟩
    | cons own init =>
      obtain ⟨hOwn, hInit⟩ := List.cons.inj hFirst
      obtain ⟨hSame, hParts⟩ := List.cons.inj hAll
      exact ⟨(line :: own) :: init, last, by rw [hOwn, hInit]; rfl, by rw [hSame, hParts]; rfl⟩
  | heading hHeading _ ih =>
    obtain ⟨init, last, hFirst, hAll⟩ := ih
    refine ⟨[] :: init, last, ?_, ?_⟩
    · rw [ownLines_heading hHeading, hFirst, List.cons_append]
    · rw [List.cons_append, ownLines_heading hHeading, hAll, List.cons_append]

theorem read_open {opening : String} {body : List String} (hOpening : Line.isFence opening = true)
    (hBody : ∀ line ∈ body, Line.isFence line = false) :
    read false (opening :: body) = ⟨opening :: body, []⟩ := by
  have hInside : read true body = ⟨body, []⟩ := by
    induction body with
    | nil => rfl
    | cons line body ih =>
      rw [read_line (Or.inl rfl), hBody line List.mem_cons_self, Bool.bne_false,
        ih fun l hl => hBody l (List.mem_cons_of_mem line hl)]
  rw [read_line (Or.inr (Line.heading?_of_isFence hOpening)), hOpening, Bool.false_bne, hInside]

/-- **Open code lies in the last section**, after lines with closed code. -/
theorem exists_ownLines_open {before body : List String} {opening : String}
    (hFences : Even (before.countP Line.isFence)) (hOpening : Line.isFence opening = true)
    (hBody : ∀ line ∈ body, Line.isFence line = false) :
    ∃ init last, (read false (before ++ opening :: body)).ownLines = init ++ [last ++ opening :: body] ∧
      (∀ own ∈ init, Even (own.countP Line.isFence)) ∧ Even (last.countP Line.isFence) := by
  have hClosed : LeavesClosed false before := leavesClosed_of_even (by simpa using hFences)
  obtain ⟨init, last, hBefore, hAll⟩ := ownLines_append hClosed (opening :: body)
  have hEven : ∀ own ∈ init ++ [last], Even (own.countP Line.isFence) := by
    intro own hOwn
    exact even_of_mem_ownLines hFences (by rw [hBefore]; exact hOwn)
  rw [read_open hOpening hBody, List.map_nil] at hAll
  exact ⟨init, last, hAll, fun own hOwn => hEven own (List.mem_append_left _ hOwn),
    hEven last (List.mem_append_right _ (List.mem_singleton_self last))⟩

end Outline

/-! ### Nodes -/

namespace Node

mutual

theorem within_of_mem_walkBelow (outer : List Section) :
    ∀ s, ∀ v ∈ Section.walkBelow outer s, Within (ofSection v.here) (ofSection s)
  | ⟨level, title, blocks, sections⟩ => by
    intro v hv
    rw [Section.walkBelow, List.mem_cons] at hv
    rcases hv with rfl | hv
    · exact .here
    · obtain ⟨s, hs, hWithin⟩ := within_of_mem_walkAllBelow _ sections v hv
      refine .inside ?_ hWithin
      rw [children_ofSection]
      exact List.mem_append_right _ (List.mem_map_of_mem hs)

theorem within_of_mem_walkAllBelow (outer : List Section) :
    ∀ ss, ∀ v ∈ Section.walkAllBelow outer ss, ∃ s ∈ ss, Within (ofSection v.here) (ofSection s)
  | [] => by simp [Section.walkAllBelow]
  | s :: ss => by
    intro v hv
    rw [Section.walkAllBelow, List.mem_append] at hv
    rcases hv with hv | hv
    · exact ⟨s, List.mem_cons_self, within_of_mem_walkBelow outer s v hv⟩
    · obtain ⟨t, ht, hWithin⟩ := within_of_mem_walkAllBelow outer ss v hv
      exact ⟨t, List.mem_cons_of_mem s ht, hWithin⟩

end

theorem Within.trans {node middle top : Node} (h : Within node middle) (hTop : Within middle top) :
    Within node top := by
  induction hTop with
  | here => exact h
  | inside hChild _ ih => exact .inside hChild ih

end Node

namespace Document

/-- **A block of the tree is made of lines of one section.** -/
theorem within_block_iff {lines : List String} {block : Block} :
    Node.Within (.block block) (Descent.root lines) ↔
      ∃ own ∈ (Outline.read false lines).ownLines, block ∈ Block.ofLines own := by
  have hWalk := map_blocks_walk "" lines
  rw [Descent.root_eq]
  constructor
  · intro h
    obtain ⟨v, hv, hNode | ⟨made, hMade, hNode⟩⟩ := Node.within_ofSection h
    · rw [Node.ofSection_eq] at hNode
      cases hNode
    · obtain rfl := Node.block.inj hNode
      have hBlocks : v.here.blocks ∈ (Outline.read false lines).ownLines.map Block.ofLines := by
        rw [← hWalk]
        exact List.mem_map_of_mem hv
      obtain ⟨own, hOwn, hSame⟩ := List.mem_map.mp hBlocks
      exact ⟨own, hOwn, by rw [hSame]; exact hMade⟩
  · rintro ⟨own, hOwn, hBlock⟩
    have hBlocks : Block.ofLines own ∈ (ofLines "" lines).walk.map fun v => v.here.blocks := by
      rw [hWalk]
      exact List.mem_map_of_mem hOwn
    obtain ⟨v, hv, hSame⟩ := List.mem_map.mp hBlocks
    refine Node.Within.trans (.inside ?_ .here) (Node.within_of_mem_walkBelow [] _ v hv)
    rw [Node.children_ofSection, hSame]
    exact List.mem_append_left _ (List.mem_map_of_mem hBlock)

/-- **No text comes right after another one**, in any section. -/
theorem isChain_children {lines : List String} {level : Nat} {title : String} {children : List Node}
    (h : Node.Within (.part level title children) (Descent.root lines)) :
    children.IsChain fun a b => ¬(a.isText ∧ b.isText) := by
  rw [Descent.root_eq] at h
  obtain ⟨v, hv, -, -, rfl⟩ := Node.exists_visit_of_within h
  have hBlocks : v.here.blocks ∈ (Outline.read false lines).ownLines.map Block.ofLines := by
    rw [← map_blocks_walk ""]
    exact List.mem_map_of_mem hv
  obtain ⟨own, -, hOwn⟩ := List.mem_map.mp hBlocks
  have hItems : ∀ item ∈ (Chunk.ofLines own).flatMap Item.ofChunk, ∀ content,
      item ≠ .block (.text content) := by
    intro item hItem content
    obtain ⟨chunk, -, hChunk⟩ := List.mem_flatMap.mp hItem
    exact Item.ne_text_of_mem_ofChunk hChunk content
  have hChain := Item.isChain_assemble [] hItems
  have hParts : ∀ s, (Node.ofSection s).isText = false := by
    intro s
    rw [Node.ofSection_eq]
    rfl
  rw [Node.children_ofSection, ← hOwn, Block.ofLines, List.isChain_append, List.isChain_map, List.isChain_map]
  refine ⟨hChain, (List.pairwise_of_forall fun a b => ?_).isChain, fun a _ b hb => ?_⟩
  · simp [hParts]
  · obtain ⟨s, -, rfl⟩ := List.mem_map.mp (List.mem_of_mem_head? hb)
    simp [hParts]

end Document

structure Outline.BlankCode (before : List String) (opening : String) (blanks : List String) : Prop where
  fences : Even (before.countP Line.isFence)
  opening : Line.isFence opening = true
  some : blanks ≠ []
  blank : ∀ line ∈ blanks, Text.isBlankLine line = true

theorem Outline.BlankCode.isFence {before blanks : List String} {opening : String}
    (h : BlankCode before opening blanks) : ∀ line ∈ blanks, Line.isFence line = false :=
  fun line hLine => Line.isFence_of_isBlankLine (h.blank line hLine)

namespace Document

section

variable {lines : List String} (hLines : ∀ line ∈ lines, '\n' ∉ line.toList)

include hLines

/-- **Every text starts with a line that is not blank**, and ends with one unless it ends in open code. -/
theorem solid_or_blankCode {content : String}
    (h : Node.Within (.block (.text content)) (Descent.root lines)) :
    Text.startsSolid content ∧ (Text.endsSolid content ∨ ∃ before opening blanks,
      lines = before ++ opening :: blanks ∧ Outline.BlankCode before opening blanks ∧
        Text.EndsInCode opening blanks content) := by
  obtain ⟨own, hOwn, hText⟩ := within_block_iff.mp h
  have hPlain : ∀ line ∈ own, '\n' ∉ line.toList :=
    fun line hLine => hLines line (Outline.subset_of_mem_ownLines hOwn hLine)
  by_cases hFences : Even (lines.countP Line.isFence)
  · have hOwnFences := Outline.even_of_mem_ownLines hFences hOwn
    exact And.imp_right Or.inl (Block.solid_of_mem_ofLines hPlain hOwnFences hText)
  · -- Only the last section has open code.
    obtain ⟨before, opening, body, rfl, hBefore, hOpening, hBody⟩ := Line.exists_open hFences
    obtain ⟨init, last, hAll, hInit, hLast⟩ := Outline.exists_ownLines_open hBefore hOpening hBody
    rw [hAll, List.mem_append, List.mem_singleton] at hOwn
    rcases hOwn with hOwn | rfl
    · exact And.imp_right Or.inl (Block.solid_of_mem_ofLines hPlain (hInit own hOwn) hText)
    · refine (Block.solid_or_endsInCode hPlain hLast hOpening hBody hText).imp_right ?_
      refine Or.imp_right ?_
      rintro ⟨hSome, hBlank, hCode⟩
      exact ⟨before, opening, body, rfl, ⟨hBefore, hOpening, hSome, hBlank⟩, hCode⟩

/-- **Open code with only blank lines in it makes a text that ends with them.** -/
theorem exists_endsInCode {before blanks : List String} {opening : String}
    (hSplit : lines = before ++ opening :: blanks) (hCode : Outline.BlankCode before opening blanks) :
    ∃ content, Node.Within (.block (.text content)) (Descent.root lines) ∧
      Text.EndsInCode opening blanks content := by
  obtain ⟨init, last, hAll, -, hLast⟩ :=
    Outline.exists_ownLines_open hCode.fences hCode.opening hCode.isFence
  rw [← hSplit] at hAll
  have hOwn : last ++ opening :: blanks ∈ (Outline.read false lines).ownLines := by
    rw [hAll]
    exact List.mem_append_right _ (List.mem_singleton_self _)
  have hPlain : ∀ line ∈ last ++ opening :: blanks, '\n' ∉ line.toList :=
    fun line hLine => hLines line (Outline.subset_of_mem_ownLines hOwn hLine)
  obtain ⟨done, run, -, hRun, hBlocks⟩ :=
    Block.exists_open (fun line hLine => hPlain line (List.mem_append_left _ hLine)) hLast
      hCode.opening hCode.isFence
  have hFeed := hPlain opening (List.mem_append_right _ List.mem_cons_self)
  obtain ⟨content, hContent, -, hEnds, -⟩ :=
    Item.exists_endsInCode hRun hCode.opening hFeed hCode.blank
  refine ⟨content, within_block_iff.mpr ⟨_, hOwn, ?_⟩, hEnds⟩
  rw [hBlocks, hContent]
  exact List.mem_append_right _ (List.mem_singleton_self _)

end

/-- **Texts are in normal form**: no two of them are neighbours in a section, and each starts and ends with a
line that is not blank.  Only code that is opened and has nothing but blank lines in it up to the end makes a
text that ends with blank lines, and it always does. -/
theorem texts_normal {lines : List String} (hLines : ∀ line ∈ lines, '\n' ∉ line.toList) :
    (∀ level title children, Node.Within (.part level title children) (Descent.root lines) →
      children.IsChain fun a b => ¬(a.isText ∧ b.isText)) ∧
    (∀ content, Node.Within (.block (.text content)) (Descent.root lines) →
      Text.startsSolid content ∧ (Text.endsSolid content ∨ ∃ before opening blanks,
        lines = before ++ opening :: blanks ∧ Outline.BlankCode before opening blanks ∧
          Text.EndsInCode opening blanks content)) ∧
    ∀ before opening blanks, lines = before ++ opening :: blanks →
      Outline.BlankCode before opening blanks →
      ∃ content, Node.Within (.block (.text content)) (Descent.root lines) ∧
        Text.EndsInCode opening blanks content ∧ Text.endsSolid content = false := by
  refine ⟨fun level title children h => isChain_children h,
    fun content h => solid_or_blankCode hLines h, fun before opening blanks hSplit hCode => ?_⟩
  obtain ⟨content, hWithin, hEnds⟩ := exists_endsInCode hLines hSplit hCode
  exact ⟨content, hWithin, hEnds, Text.endsSolid_of_endsInCode hEnds hCode.some⟩

/-- A text, a quote with nothing in it, and open code with a blank line in it. -/
def unfinished : List String :=
  ["one", "", "# Title", "two", ">", "", "```", " "]

theorem texts_normal_unfinished : (∀ line ∈ unfinished, '\n' ∉ line.toList) ∧
    Outline.BlankCode ["one", "", "# Title", "two", ">", ""] "```" [" "] ∧
    (∀ content, Node.Within (.block (.text content)) (Descent.root unfinished) →
      Text.startsSolid content) ∧
    ∃ content, Node.Within (.block (.text content)) (Descent.root unfinished) ∧
      Text.EndsInCode "```" [" "] content ∧ Text.endsSolid content = false := by
  have hLines : ∀ line ∈ unfinished, '\n' ∉ line.toList := by
    decide +kernel
  have hCode : Outline.BlankCode ["one", "", "# Title", "two", ">", ""] "```" [" "] :=
    ⟨by decide +kernel, by decide +kernel, by decide, by decide +kernel⟩
  obtain ⟨-, hTexts, hEnds⟩ := texts_normal hLines
  exact ⟨hLines, hCode, fun content h => (hTexts content h).1, hEnds _ _ _ rfl hCode⟩

theorem not_endsSolid_open : (∀ line ∈ ["```", ""], '\n' ∉ line.toList) ∧
    Node.Within (.block (.text "```\n")) (Descent.root ["```", ""]) ∧
    Text.endsSolid "```\n" = false := by
  refine ⟨by decide +kernel, within_block_iff.mpr ⟨["```", ""], ?_, ?_⟩, by decide +kernel⟩
  · decide +kernel
  · decide +kernel

end Document

end ProseTypes
