import Mathlib.Data.List.Forall2
import ProseTypes.Proofs.Document.Outline

/-!
# No line is lost

The lines of a document are headings outside code, blank lines, and the lines that blocks are made
of.  `Block.Holds` says of each kind of block how its content comes from its lines, and
`Covers blocks lines` that lines can be cut from the first to the last into the lines of these
blocks, in their order, with nothing but blank lines and headings between them.

* `Chunk.flatMap_lines_ofLines`: chunks hold every line once and in order.
* `covers_assemble`: what becomes running text when a block fails, and the blank lines in it, are
  lines of one text block.
* `Document.covers_ofLines`: the blocks of a document cover its lines.

A cover is a list of spans of line numbers, none of which overlap (`Covers.exists_spansAll`), so every
line that is neither blank nor a heading outside code lies in the span of exactly one block
(`Document.exists_spans`).
-/

namespace ProseTypes

/-! ### Blocks and their lines -/

def Line.trimmedEnd (line : String) : String :=
  String.ofList (Text.trimEnd line.toList)

theorem Line.trims_trimmedEnd (line : String) : Line.Trims line (Line.trimmedEnd line) := by
  obtain ⟨blanks, hBlanks, hLine⟩ := Text.exists_dropEndWhile Text.isBlank line.toList
  refine ⟨String.ofList blanks, by simpa using hBlanks, ?_, fun c hc => ?_⟩
  · rw [Line.trimmedEnd, ← String.ofList_append, Text.trimEnd, ← hLine, String.ofList_toList]
  · rw [Line.trimmedEnd, String.toList_ofList] at hc
    exact Text.not_of_getLast?_dropEndWhile hc

/-- How the content of a block comes from the lines that it is made of, letter by letter.  Text keeps each line but
for the blanks at its end, and a quote what stands behind its markers; code is what stands behind its first line
and in front of the next fence, or up to its end if no other fence is there. -/
def Block.Holds (lines : List String) : Block → Prop
  | .text content => ∃ kept, List.Forall₂ Line.Trims lines kept ∧ content = "\n".intercalate kept
  | .quote content => ∃ texts, List.Forall₂ Line.Quotes lines texts ∧
      content = "\n".intercalate texts
  | .code _ content => ∃ (opening : String) (body : List String) (closing : Option String),
      lines = opening :: body ++ closing.toList ∧ Line.Fences opening ∧
      (∀ line ∈ body, ¬Line.Fences line) ∧ (∀ line ∈ closing, Line.Fences line) ∧
      content = "\n".intercalate body
  | .table made => ∃ (header separator : String) (body : List String),
      lines = header :: separator :: body ∧ Line.Separates separator ∧
      Table.ofLines? header body = some made

theorem Block.holds_text (lines : List String) :
    (Block.text (Text.join "\n" (lines.map Line.trimmedEnd))).Holds lines := by
  refine ⟨lines.map Line.trimmedEnd, ?_, Text.join_eq_intercalate _ _⟩
  rw [List.forall₂_map_right_iff, List.forall₂_same]
  exact fun line _ => Line.trims_trimmedEnd line

/-- Lines, with the headings that they open, are the lines of blocks in their order, and between
these blank lines and headings. -/
inductive Covers : List Block → List (String × Option Heading) → Prop where
  | nil : Covers [] []
  | blank {blocks rest line} : Text.isBlankLine line → Covers blocks rest →
      Covers blocks ((line, none) :: rest)
  | heading {blocks rest line heading} : Covers blocks rest →
      Covers blocks ((line, some heading) :: rest)
  | block {blocks rest block lines} : lines ≠ [] → block.Holds lines → Covers blocks rest →
      Covers (block :: blocks) (Outline.unmarked lines ++ rest)

theorem Covers.append {a b : List Block} {first second : List (String × Option Heading)}
    (hFirst : Covers a first) (hSecond : Covers b second) : Covers (a ++ b) (first ++ second) := by
  induction hFirst with
  | nil => exact hSecond
  | blank hBlank _ ih => exact .blank hBlank ih
  | heading _ ih => exact .heading ih
  | block hLines hHolds _ ih =>
    rw [List.append_assoc]
    exact .block hLines hHolds ih

theorem Covers.of_block {block : Block} {lines : List String} (hLines : lines ≠ [])
    (hHolds : block.Holds lines) : Covers [block] (Outline.unmarked lines) := by
  have h := Covers.block hLines hHolds .nil
  rwa [List.append_nil] at h

/-! ### Chunks -/

namespace Chunk

def WellFormed : Chunk → Prop
  | blank line => Text.isBlankLine line
  | plain _ => True
  | fenced opening body closing => Line.isFence opening ∧
      (∀ line ∈ body, Line.isFence line = false) ∧ ∀ line ∈ closing, Line.isFence line
  | grid _ separator _ => Line.isSeparator separator
  | quoted first rest => Line.isQuote first ∧ ∀ line ∈ rest, Line.isQuote line

theorem wellFormed_next (line : String) (rest : List String) : (next line rest).1.WellFormed := by
  unfold next
  split
  · assumption
  split
  · refine ⟨by assumption, fun l hl => ?_, fun l hl => ?_⟩
    · simpa using List.mem_takeWhile_imp hl
    · have h := List.head?_dropWhile_not (fun l => !Line.isFence l) rest
      rw [Option.mem_def.mp hl] at h
      simpa using h
  split
  · rename_i hGrid
    cases rest with
    | nil => simp at hGrid
    | cons separator rest =>
      simp only [List.head?_cons, Option.any_some, Bool.and_eq_true] at hGrid
      exact hGrid.2
  split
  · exact ⟨by assumption, fun l hl => List.mem_takeWhile_imp hl⟩
  · trivial

/-- **A chunk and the lines after it are the lines that were there.** -/
theorem lines_next (line : String) (rest : List String) :
    (next line rest).1.lines ++ (next line rest).2 = line :: rest := by
  unfold next
  split
  · rfl
  split
  · have hClosing (ls : List String) : ls.head?.toList ++ ls.tail = ls := by cases ls <;> rfl
    simp only [lines, List.cons_append, List.append_assoc, hClosing, List.takeWhile_append_dropWhile]
  split
  · rename_i hGrid
    cases rest with
    | nil => simp at hGrid
    | cons separator rest =>
      simp [lines, List.takeWhile_append_dropWhile]
  split
  · simp [lines, List.takeWhile_append_dropWhile]
  · rfl

theorem wellFormed_of_mem_ofLines {chunk : Chunk} {lines : List String}
    (h : chunk ∈ ofLines lines) : chunk.WellFormed := by
  fun_induction ofLines lines with
  | case1 => cases h
  | case2 line rest ih =>
    rcases List.mem_cons.mp h with rfl | h
    · exact wellFormed_next line rest
    · exact ih h

/-- **Chunks hold every line once and in order.** -/
theorem flatMap_lines_ofLines (lines : List String) : (ofLines lines).flatMap Chunk.lines = lines := by
  fun_induction ofLines lines with
  | case1 => rfl
  | case2 line rest ih => rw [List.flatMap_cons, ih, lines_next]

/-- **The block of a chunk holds the lines of the chunk.** -/
theorem holds_of_block? {chunk : Chunk} (h : chunk.WellFormed) {block : Block}
    (hBlock : chunk.block? = some block) : block.Holds chunk.lines := by
  cases chunk with
  | blank line => cases hBlock
  | plain line => cases hBlock
  | fenced opening body closing =>
    simp only [block?, Option.ite_none_left_eq_some, Option.some.injEq] at hBlock
    obtain ⟨-, rfl⟩ := hBlock
    obtain ⟨hOpening, hBody, hClosing⟩ := h
    refine ⟨opening, body, closing, rfl, Line.isFence_iff.mp hOpening, fun line hLine hFence => ?_,
      fun line hLine => Line.isFence_iff.mp (hClosing line hLine), Text.join_eq_intercalate _ _⟩
    have hNone := hBody line hLine
    rw [Line.isFence_iff.mpr hFence] at hNone
    cases hNone
  | grid header separator body =>
    obtain ⟨table, hTable, rfl⟩ := Option.map_eq_some_iff.mp hBlock
    exact ⟨header, separator, body, rfl, Line.separates_of_isSeparator h, hTable⟩
  | quoted first rest =>
    simp only [block?, Option.ite_none_left_eq_some, Option.some.injEq] at hBlock
    obtain ⟨-, rfl⟩ := hBlock
    refine ⟨(first :: rest).map Line.unquoted, ?_, Text.join_eq_intercalate _ _⟩
    rw [lines, List.forall₂_map_right_iff, List.forall₂_same]
    exact fun line hLine => Line.quotes_unquoted
      ((List.mem_cons.mp hLine).elim (fun hFirst => hFirst ▸ h.1) (h.2 line))

theorem lines_ne_nil (chunk : Chunk) : chunk.lines ≠ [] := by
  cases chunk <;> simp [lines]

end Chunk

/-! ### Items -/

namespace Item

/-- The lines that an item comes from. -/
def From (lines : List String) : Item → Prop
  | block made => lines ≠ [] ∧ made.Holds lines
  | text content => ∃ line, lines = [line] ∧ content = Line.trimmedEnd line
  | gap => ∃ line, lines = [line] ∧ Text.isBlankLine line

/-- Items with the lines that they come from. -/
structure Traced where
  item : Item
  lines : List String
  sound : item.From lines

def linesOf (items : List Traced) : List String :=
  items.flatMap Traced.lines

theorem ofChunk_cases (chunk : Chunk) :
    (∃ made, chunk.block? = some made ∧ ofChunk chunk = [.block made]) ∨
    (∃ line, chunk = .blank line ∧ ofChunk chunk = [.gap]) ∨
    chunk.block? = none ∧ (∀ line, chunk ≠ .blank line) ∧
      ofChunk chunk = (chunk.lines.map Line.trimmedEnd).map text := by
  unfold ofChunk
  split
  · rename_i made hMade
    exact Or.inl ⟨made, hMade, rfl⟩
  · exact Or.inr (Or.inl ⟨_, rfl, rfl⟩)
  · rename_i hNot hNone
    refine Or.inr (Or.inr ⟨hNone, fun line hBlank => hNot line hBlank, ?_⟩)
    rw [List.map_map]
    rfl

theorem exists_traced_ofChunk {chunk : Chunk} (h : chunk.WellFormed) :
    ∃ items : List Traced, items.map Traced.item = ofChunk chunk ∧ linesOf items = chunk.lines := by
  have hText (ls : List String) : ∃ items : List Traced,
      items.map Traced.item = ls.map (fun line => .text (Line.trimmedEnd line)) ∧
      linesOf items = ls := by
    induction ls with
    | nil => exact ⟨[], rfl, rfl⟩
    | cons line ls ih =>
      obtain ⟨items, hItems, hLines⟩ := ih
      refine ⟨⟨.text (Line.trimmedEnd line), [line], line, rfl, rfl⟩ :: items, ?_, ?_⟩
      · simp [hItems]
      · simpa [linesOf] using hLines
  rcases ofChunk_cases chunk with ⟨made, hMade, hItems⟩ | ⟨line, rfl, hItems⟩ | ⟨-, -, hItems⟩
  · refine ⟨[⟨.block made, chunk.lines, chunk.lines_ne_nil, Chunk.holds_of_block? h hMade⟩], ?_, ?_⟩
    · rw [hItems, List.map_singleton]
    · simp [linesOf]
  · exact ⟨[⟨.gap, [line], line, rfl, h⟩], rfl, rfl⟩
  · rw [hItems, List.map_map]
    exact hText chunk.lines

/-! ### Running text -/

theorem covers_of_gaps {gaps : List Traced} (h : ∀ g ∈ gaps, g.item.isGap) :
    Covers [] (Outline.unmarked (linesOf gaps)) := by
  induction gaps with
  | nil => exact .nil
  | cons g gaps ih =>
    obtain ⟨item, lines, hFrom⟩ := g
    have hGap : item.isGap := h _ List.mem_cons_self
    cases item with
    | block made => cases hGap
    | text content => cases hGap
    | gap =>
      obtain ⟨line, rfl, hBlank⟩ := hFrom
      exact .blank hBlank (ih fun g hg => h g (List.mem_cons_of_mem _ hg))

theorem trimmedEnd_of_isBlankLine {line : String} (h : Text.isBlankLine line) :
    Line.trimmedEnd line = "" := by
  have hEnd : Text.trimEnd line.toList = [] := by
    rw [Text.trimEnd, Text.dropEndWhile, List.dropWhile_eq_nil_iff.mpr]
    · rfl
    · intro c hc
      exact List.all_eq_true.mp h c (List.mem_reverse.mp hc)
  rw [Line.trimmedEnd, hEnd]

/-- **The lines of running text are the trimmed lines that it comes from**, gaps included. -/
theorem map_line_eq {items : List Traced} (h : ∀ t ∈ items, ∀ made, t.item ≠ .block made) :
    (items.map Traced.item).map line = (linesOf items).map Line.trimmedEnd := by
  induction items with
  | nil => rfl
  | cons t items ih =>
    obtain ⟨item, lines, hFrom⟩ := t
    have ih := ih fun t ht => h t (List.mem_cons_of_mem _ ht)
    cases item with
    | block made => exact absurd rfl (h _ List.mem_cons_self made)
    | text content =>
      obtain ⟨source, rfl, rfl⟩ := hFrom
      simp [linesOf, line] at ih ⊢
      exact ih
    | gap =>
      obtain ⟨source, rfl, hBlank⟩ := hFrom
      simp [linesOf, line, trimmedEnd_of_isBlankLine hBlank] at ih ⊢
      exact ih

theorem linesOf_append (first second : List Traced) :
    linesOf (first ++ second) = linesOf first ++ linesOf second :=
  List.flatMap_append

theorem unmarked_append (first second : List String) :
    Outline.unmarked (first ++ second) = Outline.unmarked first ++ Outline.unmarked second :=
  List.map_append

theorem linesOf_ne_nil {items : List Traced} (h : items ≠ []) : linesOf items ≠ [] := by
  cases items with
  | nil => exact absurd rfl h
  | cons t items =>
    obtain ⟨item, lines, hFrom⟩ := t
    have hLines : lines ≠ [] := by
      cases item with
      | block made => exact hFrom.1
      | text content => obtain ⟨line, rfl, -⟩ := hFrom; simp
      | gap => obtain ⟨line, rfl, -⟩ := hFrom; simp
    simp [linesOf, hLines]

/-- **A paragraph covers the lines of a run of text**: the gaps at its ends stay outside. -/
theorem covers_paragraph {run : List Traced} (h : ∀ t ∈ run, ∀ made, t.item ≠ .block made) :
    Covers (paragraph? (run.map Traced.item)).toList (Outline.unmarked (linesOf run)) := by
  let isGap (t : Traced) : Bool := t.item.isGap
  let before := run.takeWhile isGap
  let core := ((run.dropWhile isGap).reverse.dropWhile isGap).reverse
  let after := ((run.dropWhile isGap).reverse.takeWhile isGap).reverse
  have hRun : run = before ++ (core ++ after) := by
    rw [← List.reverse_append, List.takeWhile_append_dropWhile, List.reverse_reverse,
      List.takeWhile_append_dropWhile]
  have hBefore : Covers [] (Outline.unmarked (linesOf before)) :=
    covers_of_gaps fun g hg => List.mem_takeWhile_imp (p := isGap) hg
  have hAfter : Covers [] (Outline.unmarked (linesOf after)) :=
    covers_of_gaps fun g hg => List.mem_takeWhile_imp (p := isGap) (List.mem_reverse.mp hg)
  have hCore : Covers (paragraph? (run.map Traced.item)).toList
      (Outline.unmarked (linesOf core)) := by
    have hItems : (((run.map Traced.item).dropWhile Item.isGap).reverse.dropWhile
        Item.isGap).reverse = core.map Traced.item := by
      simp only [List.dropWhile_map, ← List.map_reverse]
      rfl
    rw [paragraph?, hItems]
    cases hEmpty : core with
    | nil => exact .nil
    | cons t ts =>
      rw [← hEmpty]
      have hText : ∀ t ∈ core, ∀ made, t.item ≠ .block made := by
        intro t ht
        exact h t (hRun ▸ List.mem_append_right _ (List.mem_append_left _ ht))
      have hLines : linesOf core ≠ [] := linesOf_ne_nil (by simp [hEmpty])
      have hBlock : Covers [.text (Text.join "\n" ((core.map Traced.item).map line))]
          (Outline.unmarked (linesOf core)) := by
        refine .of_block hLines ?_
        rw [map_line_eq hText]
        exact Block.holds_text (linesOf core)
      simpa [hEmpty] using hBlock
  have hAll := (hBefore.append hCore).append hAfter
  rw [hRun, linesOf_append, linesOf_append, unmarked_append, unmarked_append, ← List.append_assoc]
  simpa [← hRun] using hAll

/-- **The blocks of items cover the lines that the items come from.**  The run holds what has been
read of the running text that is still open. -/
theorem covers_assemble {run rest : List Traced} (h : ∀ t ∈ run, ∀ made, t.item ≠ .block made) :
    Covers (assemble (run.map Traced.item) (rest.map Traced.item))
      (Outline.unmarked (linesOf (run ++ rest))) := by
  induction rest generalizing run with
  | nil => simpa [assemble] using covers_paragraph h
  | cons t rest ih =>
    obtain ⟨item, lines, hFrom⟩ := t
    have hOpen (hItem : ∀ made, item ≠ .block made) :
        Covers (assemble (run.map Traced.item ++ [item]) (rest.map Traced.item))
          (Outline.unmarked (linesOf (run ++ ⟨item, lines, hFrom⟩ :: rest))) := by
      have hRun : ∀ t ∈ run ++ [⟨item, lines, hFrom⟩], ∀ made, t.item ≠ .block made := by
        intro t ht
        rcases List.mem_append.mp ht with ht | ht
        · exact h t ht
        · rw [List.mem_singleton.mp ht]
          exact hItem
      have hRest := ih hRun
      rwa [List.map_append, List.append_assoc] at hRest
    cases item with
    | block made =>
      have hRest := @ih [] (by simp)
      have hMade := Covers.block hFrom.1 hFrom.2 hRest
      have hAll := (covers_paragraph h).append hMade
      simpa [assemble, linesOf, unmarked_append] using hAll
    | text content => exact hOpen (by simp)
    | gap => exact hOpen (by simp)

end Item

/-- **The blocks of lines cover the lines.** -/
theorem Block.covers_ofLines (lines : List String) :
    Covers (Block.ofLines lines) (Outline.unmarked lines) := by
  have hTraced (chunks : List Chunk) (h : ∀ chunk ∈ chunks, chunk.WellFormed) :
      ∃ items : List Item.Traced, items.map Item.Traced.item = chunks.flatMap Item.ofChunk ∧
        Item.linesOf items = chunks.flatMap Chunk.lines := by
    induction chunks with
    | nil => exact ⟨[], rfl, rfl⟩
    | cons chunk chunks ih =>
      obtain ⟨first, hFirst, hFirstLines⟩ := Item.exists_traced_ofChunk (h chunk List.mem_cons_self)
      obtain ⟨rest, hRest, hRestLines⟩ := ih fun c hc => h c (List.mem_cons_of_mem _ hc)
      refine ⟨first ++ rest, ?_, ?_⟩
      · rw [List.map_append, hFirst, hRest, List.flatMap_cons]
      · rw [Item.linesOf_append, hFirstLines, hRestLines, List.flatMap_cons]
  obtain ⟨items, hItems, hLines⟩ := hTraced (Chunk.ofLines lines)
    fun chunk hChunk => Chunk.wellFormed_of_mem_ofLines hChunk
  have h := @Item.covers_assemble [] items (by simp)
  rw [List.map_nil, List.nil_append, hItems, hLines, Chunk.flatMap_lines_ofLines] at h
  exact h

/-! ### Documents -/

namespace Document

def blocks (document : Document) : List Block :=
  document.walk.flatMap fun visit => visit.here.blocks

theorem blocks_ofLines (path : String) (lines : List String) :
    (ofLines path lines).blocks = Block.ofLines (Outline.read false lines).preamble ++
      (Outline.read false lines).parts.flatMap fun part => Block.ofLines part.lines := by
  rw [blocks, List.flatMap_def, map_blocks_walk, Outline.ownLines, List.map_cons, List.flatten_cons,
    List.map_map, List.flatMap_def]
  rfl

/-- **The blocks of a document cover its lines.** -/
theorem covers_ofLines (path : String) (lines : List String) :
    Covers (ofLines path lines).blocks (Outline.marked false lines) := by
  obtain ⟨cuts, hParts, hMarked⟩ := Outline.exists_marked_eq false lines
  rw [blocks_ofLines, hMarked, ← hParts]
  refine (Block.covers_ofLines _).append ?_
  clear hParts hMarked
  induction cuts with
  | nil => exact .nil
  | cons cut cuts ih =>
    simp only [List.map_cons, List.flatMap_cons, List.cons_append]
    exact .heading ((Block.covers_ofLines cut.2.lines).append ih)

end Document

/-! ### Spans -/

/-- Line numbers from `start` on and before `stop`. -/
structure Span where
  start : Nat
  stop : Nat
deriving DecidableEq, Repr

namespace Span

def of (lines : List String) (span : Span) : List String :=
  (lines.take span.stop).drop span.start

/-- A line number lies in a span. -/
def Has (span : Span) (i : Nat) : Prop :=
  span.start ≤ i ∧ i < span.stop

def down (n : Nat) (span : Span) : Span :=
  ⟨span.start + n, span.stop + n⟩

theorem of_down (first lines : List String) (span : Span) :
    (span.down first.length).of (first ++ lines) = span.of lines := by
  rw [of, of, down, Nat.add_comm span.stop, List.take_length_add_append, Nat.add_comm span.start,
    List.drop_length_add_append]

end Span

/-- A span of lines is what a block is made of, and no line of it opens anything. -/
structure Block.Spans (lines : List (String × Option Heading)) (span : Span) (block : Block) :
    Prop where
  nonempty : span.start < span.stop
  inside : span.stop ≤ lines.length
  holds : block.Holds (span.of (lines.map Prod.fst))
  plain : ∀ i line mark, span.Has i → lines[i]? = some (line, mark) → mark = none

theorem Block.Spans.down {lines : List (String × Option Heading)} {span : Span} {block : Block}
    (h : block.Spans lines span) (first : List (String × Option Heading)) :
    block.Spans (first ++ lines) (span.down first.length) where
  nonempty := Nat.add_lt_add_right h.nonempty _
  inside := by
    have := h.inside
    simp only [Span.down, List.length_append]
    omega
  holds := by
    have hOf := Span.of_down (first.map Prod.fst) (lines.map Prod.fst) span
    rw [List.length_map] at hOf
    rw [List.map_append, hOf]
    exact h.holds
  plain i line mark hi hLine := by
    obtain ⟨hStart, hStop⟩ := hi
    simp only [Span.down] at hStart hStop
    rw [List.getElem?_append_right (by omega)] at hLine
    exact h.plain _ line mark ⟨by omega, by omega⟩ hLine

/-- Spans of lines for blocks, which do not overlap and leave out only blank lines and headings. -/
structure Block.SpansAll (lines : List (String × Option Heading)) (blocks : List Block)
    (spans : List Span) : Prop where
  each : List.Forall₂ (Block.Spans lines) spans blocks
  ordered : spans.Pairwise fun a b => a.stop ≤ b.start
  all : ∀ i line, lines[i]? = some (line, none) → ¬Text.isBlankLine line →
    ∃ span ∈ spans, span.Has i

namespace Block.SpansAll

variable {lines : List (String × Option Heading)} {blocks : List Block} {spans : List Span}

theorem forall₂_down (h : List.Forall₂ (Block.Spans lines) spans blocks)
    (first : List (String × Option Heading)) :
    List.Forall₂ (Block.Spans (first ++ lines)) (spans.map (Span.down first.length)) blocks := by
  induction h with
  | nil => exact .nil
  | cons hHead _ ih => exact .cons (hHead.down first) ih

theorem ordered_down (h : spans.Pairwise fun a b => a.stop ≤ b.start) (n : Nat) :
    (spans.map (Span.down n)).Pairwise fun a b => a.stop ≤ b.start := by
  rw [List.pairwise_map]
  exact h.imp fun hab => Nat.add_le_add_right hab n

theorem exists_of_mem (h : List.Forall₂ (Block.Spans lines) spans blocks) {span : Span}
    (hMem : span ∈ spans) : ∃ block : Block, block.Spans lines span := by
  induction h with
  | nil => cases hMem
  | cons hHead _ ih =>
    rcases List.mem_cons.mp hMem with rfl | hMem
    · exact ⟨_, hHead⟩
    · exact ih hMem

theorem exists_down (h : SpansAll lines blocks spans) (first : List (String × Option Heading))
    {i : Nat} {line : String} (hi : first.length ≤ i)
    (hLine : (first ++ lines)[i]? = some (line, none)) (hBlank : ¬Text.isBlankLine line) :
    ∃ span ∈ spans.map (Span.down first.length), span.Has i := by
  rw [List.getElem?_append_right hi] at hLine
  obtain ⟨span, hMem, hStart, hStop⟩ := h.all _ line hLine hBlank
  refine ⟨span.down first.length, List.mem_map_of_mem hMem, ?_, ?_⟩
  · simp only [Span.down]
    omega
  · simp only [Span.down]
    omega

theorem cons_line (h : SpansAll lines blocks spans) {line : String} {mark : Option Heading}
    (hLine : mark = none → Text.isBlankLine line) :
    SpansAll ((line, mark) :: lines) blocks (spans.map (Span.down 1)) where
  each := forall₂_down h.each [(line, mark)]
  ordered := ordered_down h.ordered 1
  all i other hOther hBlank := by
    cases i with
    | zero =>
      obtain ⟨rfl, rfl⟩ : line = other ∧ mark = none := by simpa using hOther
      exact absurd (hLine rfl) hBlank
    | succ i => exact h.exists_down [(line, mark)] (by simp) hOther hBlank

theorem cons_block (h : SpansAll lines blocks spans) {block : Block} {own : List String}
    (hOwn : own ≠ []) (hHolds : block.Holds own) :
    SpansAll (Outline.unmarked own ++ lines) (block :: blocks)
      (⟨0, own.length⟩ :: spans.map (Span.down own.length)) := by
  have hLength : (Outline.unmarked own).length = own.length := List.length_map _
  refine ⟨.cons ⟨?_, ?_, ?_, ?_⟩ ?_, ?_, fun i line hLine hBlank => ?_⟩
  · exact List.length_pos_iff.mpr hOwn
  · simp [hLength]
  · have hFst : (Outline.unmarked own).map Prod.fst = own := by
      simp [Outline.unmarked, Function.comp_def]
    rw [List.map_append, hFst, Span.of, List.take_left, List.drop_zero]
    exact hHolds
  · intro i line mark hi hLine
    rw [List.getElem?_append_left (by rw [hLength]; exact hi.2)] at hLine
    obtain ⟨source, -, hSource⟩ := List.mem_map.mp (List.mem_of_getElem? hLine)
    exact (congrArg Prod.snd hSource).symm
  · rw [← hLength]
    exact forall₂_down h.each _
  · rw [List.pairwise_cons]
    refine ⟨fun span hSpan => ?_, ordered_down h.ordered _⟩
    obtain ⟨other, -, rfl⟩ := List.mem_map.mp hSpan
    exact Nat.le_add_left _ _
  · rcases Nat.lt_or_ge i own.length with hi | hi
    · exact ⟨_, List.mem_cons_self, Nat.zero_le i, hi⟩
    · rw [← hLength] at hi ⊢
      obtain ⟨span, hSpan, hHas⟩ := h.exists_down _ hi hLine hBlank
      exact ⟨span, List.mem_cons_of_mem _ hSpan, hHas⟩

end Block.SpansAll

/-- **A cover is a list of spans**, one for each block. -/
theorem Covers.exists_spansAll {blocks : List Block} {lines : List (String × Option Heading)}
    (h : Covers blocks lines) : ∃ spans, Block.SpansAll lines blocks spans := by
  induction h with
  | nil => exact ⟨[], .nil, .nil, by simp⟩
  | blank hBlank _ ih =>
    obtain ⟨spans, hSpans⟩ := ih
    exact ⟨_, hSpans.cons_line fun _ => hBlank⟩
  | heading _ ih =>
    obtain ⟨spans, hSpans⟩ := ih
    exact ⟨_, hSpans.cons_line fun hNone => by cases hNone⟩
  | block hLines hHolds _ ih =>
    obtain ⟨spans, hSpans⟩ := ih
    exact ⟨_, hSpans.cons_block hLines hHolds⟩

theorem Span.eq_of_has {spans : List Span} (h : spans.Pairwise fun a b => a.stop ≤ b.start)
    {a b : Span} (ha : a ∈ spans) (hb : b ∈ spans) {i : Nat} (hai : a.Has i) (hbi : b.Has i) :
    a = b := by
  induction h with
  | nil => cases ha
  | @cons first rest hFirst hRest ih =>
    obtain ⟨ha1, ha2⟩ := hai
    obtain ⟨hb1, hb2⟩ := hbi
    rcases List.mem_cons.mp ha with hEqA | hTailA
    · rcases List.mem_cons.mp hb with hEqB | hTailB
      · rw [hEqA, hEqB]
      · have hle := hFirst b hTailB
        rw [← hEqA] at hle
        omega
    · rcases List.mem_cons.mp hb with hEqB | hTailB
      · have hle := hFirst a hTailA
        rw [← hEqB] at hle
        omega
      · exact ih hTailA hTailB

/-- **No line is lost, repeated or moved.**  Every block of a document has a span of lines that it
is made of, in document order and without overlap.  No heading outside code lies in a span, and
every other line that is not blank lies in exactly one. -/
theorem Document.exists_spans (path : String) (lines : List String) :
    ∃ spans : List Span,
      List.Forall₂ (fun span block => span.start < span.stop ∧ span.stop ≤ lines.length ∧
        block.Holds (span.of lines)) spans (ofLines path lines).blocks ∧
      spans.Pairwise (fun a b => a.stop ≤ b.start) ∧
      ∀ i line, lines[i]? = some line →
        ((∃ span ∈ spans, span.Has i) → Outline.headingAt? lines i = none) ∧
        ((∃ c ∈ line.toList, Text.isBlank c = false) → Outline.headingAt? lines i = none →
          ∃! span, span ∈ spans ∧ span.Has i) := by
  obtain ⟨spans, hSpans⟩ := (covers_ofLines path lines).exists_spansAll
  have hLength := Outline.length_marked false lines
  have hFst : (Outline.marked false lines).map Prod.fst = lines := by
    refine List.ext_getElem? fun i => ?_
    rw [List.getElem?_map, Outline.getElem?_marked_false, Option.map_map]
    exact Option.map_id'
  refine ⟨spans, hSpans.each.imp fun span block h => ?_, hSpans.ordered, fun i line hLine => ?_⟩
  · exact ⟨h.nonempty, hLength ▸ h.inside, hFst ▸ h.holds⟩
  · have hMarked : (Outline.marked false lines)[i]? =
        some (line, Outline.headingAt? lines i) := by
      rw [Outline.getElem?_marked_false, hLine, Option.map_some]
    constructor
    · rintro ⟨span, hMem, hHas⟩
      obtain ⟨block, hBlock⟩ := Block.SpansAll.exists_of_mem hSpans.each hMem
      exact hBlock.plain i line _ hHas hMarked
    · rintro ⟨c, hc, hNot⟩ hNone
      have hBlank : ¬Text.isBlankLine line = true := by
        intro hAll
        rw [List.all_eq_true.mp hAll c hc] at hNot
        cases hNot
      rw [hNone] at hMarked
      obtain ⟨span, hMem, hHas⟩ := hSpans.all i line hMarked hBlank
      refine ⟨span, ⟨hMem, hHas⟩, fun other hOther => ?_⟩
      exact Span.eq_of_has hSpans.ordered hOther.1 hMem hOther.2 hHas

end ProseTypes
