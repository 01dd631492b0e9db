import ProseTypes.Proofs.Document.Characters
import ProseTypes.Proofs.Document.Chunks

/-!
# Runs of text

A run of text is made of items between two blocks.  Closed chunks keep a run neat: its first and last lines of
text are not blank (`Item.Neat`), so the text that it makes starts and ends with such a line.  Code that is
still open comes last, and if it has nothing in it, then its lines go to the run, blank ones too.

* `Item.Neat.chunk`: the lines of a closed chunk keep a run neat.
* `Item.isChain_assemble`: no text comes right after another one.
* `Block.solid_of_mem_ofLines`: **with closed code every text starts and ends with a line that is not blank**.
* `Block.solid_or_endsInCode`: with open code the last text may end with the blank lines in it.
-/

namespace ProseTypes

namespace Text

def joinedLines (content : String) : List String :=
  (pieces (· == '\n') content.toList).map String.ofList

/-- The first line of a text is not blank. -/
def startsSolid (content : String) : Bool :=
  (joinedLines content).head?.any fun line => !isBlankLine line

/-- The last line of a text is not blank. -/
def endsSolid (content : String) : Bool :=
  (joinedLines content).getLast?.any fun line => !isBlankLine line

theorem joinedLines_join {texts : List String} (hTexts : texts ≠ [])
    (hPlain : ∀ text ∈ texts, '\n' ∉ text.toList) : joinedLines (join "\n" texts) = texts :=
  pieces_join hTexts hPlain

end Text

/-- A block is solid unless it is a text whose first or last line is blank. -/
def Block.Solid : Block → Prop
  | .text content => Text.startsSolid content ∧ Text.endsSolid content
  | _ => True

theorem Chunk.solid_of_block? {chunk : Chunk} {made : Block} (h : chunk.block? = some made) :
    made.Solid := by
  cases made with
  | text content => cases chunk <;> simp [block?] at h
  | table table => trivial
  | code language content => trivial
  | quote content => trivial

theorem Line.isBlankLine_trimmedEnd (line : String) :
    Text.isBlankLine (Line.trimmedEnd line) = Text.isBlankLine line := by
  rw [Bool.eq_iff_iff, Text.isBlankLine, Text.isBlankLine, List.all_eq_true, List.all_eq_true,
    Line.trimmedEnd, String.toList_ofList]
  constructor
  · intro h c hc
    rcases Text.mem_dropEndWhile hc with hBlank | hc
    · exact hBlank
    · exact h c hc
  · intro h c hc
    exact h c (Text.trimEnd_subset _ hc)

namespace Item

/-! ### Runs of text -/

theorem exists_core_append (run : List Item) : ∃ gaps, core run ++ gaps = run.dropWhile isGap := by
  refine ⟨((run.dropWhile isGap).reverse.takeWhile isGap).reverse, ?_⟩
  rw [core, ← List.reverse_append, List.takeWhile_append_dropWhile, List.reverse_reverse]

theorem dropWhile_append_texts (run : List Item) (texts : List String) :
    (run ++ texts.map text).dropWhile isGap = run.dropWhile isGap ++ texts.map text := by
  refine Outline.dropWhile_append_of_head? fun item hItem => ?_
  obtain ⟨content, -, rfl⟩ := List.mem_map.mp (List.mem_of_mem_head? hItem)
  rfl

theorem core_append_texts (run : List Item) {texts : List String} (h : texts ≠ []) :
    core (run ++ texts.map text) = run.dropWhile isGap ++ texts.map text := by
  obtain ⟨init, last, rfl⟩ := (List.eq_nil_or_concat' texts).resolve_left h
  rw [List.map_append, List.map_singleton, ← List.append_assoc, core_append_text,
    dropWhile_append_texts, List.append_assoc]

/-- A run of lines without line feeds whose first line of text is not blank. -/
structure Starts (run : List Item) : Prop where
  plain : ∀ item ∈ run, '\n' ∉ item.line.toList
  first : ∀ item ∈ (run.dropWhile isGap).head?, Text.isBlankLine item.line = false

/-- A run whose first and last lines of text are not blank. -/
structure Neat (run : List Item) : Prop extends Starts run where
  last : ∀ item ∈ (core run).getLast?, Text.isBlankLine item.line = false

theorem neat_nil : Neat [] where
  plain := by simp
  first := by simp
  last := by simp [core]

section

variable {run : List Item}

theorem Neat.gap (h : Neat run) : Neat (run ++ [.gap]) where
  plain item hItem := by
    rcases List.mem_append.mp hItem with hItem | hItem
    · exact h.plain item hItem
    · rw [List.mem_singleton.mp hItem]
      decide
  first item hItem := by
    rw [List.dropWhile_append] at hItem
    split at hItem
    · cases hItem
    · rename_i hSome
      rw [List.head?_append_of_ne_nil _ (by simpa using hSome)] at hItem
      exact h.first item hItem
  last := by
    rw [core_append_gap]
    exact h.last

variable {contents : List String} (hPlain : ∀ text ∈ contents, '\n' ∉ text.toList)
  (hFirst : ∀ text ∈ contents.head?, Text.isBlankLine text = false)

include hPlain hFirst

theorem Starts.texts (h : Starts run) : Starts (run ++ contents.map text) where
  plain item hItem := by
    rcases List.mem_append.mp hItem with hItem | hItem
    · exact h.plain item hItem
    · obtain ⟨content, hContent, rfl⟩ := List.mem_map.mp hItem
      exact hPlain content hContent
  first item hItem := by
    rw [dropWhile_append_texts] at hItem
    cases hRun : run.dropWhile isGap with
    | nil =>
      rw [hRun, List.nil_append, List.head?_map] at hItem
      obtain ⟨content, hContent, rfl⟩ := Option.map_eq_some_iff.mp hItem
      exact hFirst content hContent
    | cons other rest =>
      rw [hRun] at hItem
      exact h.first item (by rw [hRun]; exact hItem)

theorem Neat.texts (h : Neat run) (hSome : contents ≠ [])
    (hLast : ∀ text ∈ contents.getLast?, Text.isBlankLine text = false) :
    Neat (run ++ contents.map text) where
  toStarts := h.toStarts.texts hPlain hFirst
  last item hItem := by
    rw [core_append_texts run hSome, List.getLast?_append_of_ne_nil _ (by simpa using hSome),
      List.getLast?_map] at hItem
    obtain ⟨content, hContent, rfl⟩ := Option.map_eq_some_iff.mp hItem
    exact hLast content hContent

end

/-! ### Paragraphs -/

section

variable {run : List Item} {content : String} (hText : paragraph? run = some (.text content))

include hText

theorem core_of_paragraph? : core run ≠ [] ∧ content = Text.join "\n" ((core run).map line) := by
  by_cases hCore : core run = []
  · rw [paragraph?_of_core_nil hCore] at hText
    cases hText
  · rw [paragraph?_of_core hCore, Option.some.injEq, Block.text.injEq] at hText
    exact ⟨hCore, hText.symm⟩

theorem Starts.joinedLines_eq (h : Starts run) : Text.joinedLines content = (core run).map line := by
  obtain ⟨hCore, rfl⟩ := core_of_paragraph? hText
  refine Text.joinedLines_join (by simpa using hCore) fun text hMem => ?_
  obtain ⟨item, hItem, rfl⟩ := List.mem_map.mp hMem
  obtain ⟨gaps, hGaps⟩ := exists_core_append run
  refine h.plain item ((List.dropWhile_sublist isGap).subset ?_)
  rw [← hGaps]
  exact List.mem_append_left gaps hItem

theorem Starts.startsSolid (h : Starts run) : Text.startsSolid content = true := by
  obtain ⟨hCore, -⟩ := core_of_paragraph? hText
  obtain ⟨item, items, hItems⟩ := List.exists_cons_of_ne_nil hCore
  obtain ⟨gaps, hGaps⟩ := exists_core_append run
  have hSolid := h.first item (by rw [← hGaps, hItems]; rfl)
  rw [Text.startsSolid, h.joinedLines_eq hText, hItems, List.map_cons, List.head?_cons,
    Option.any_some, hSolid, Bool.not_false]

theorem Neat.endsSolid (h : Neat run) : Text.endsSolid content = true := by
  obtain ⟨hCore, -⟩ := core_of_paragraph? hText
  obtain ⟨items, item, hItems⟩ := (List.eq_nil_or_concat' (core run)).resolve_left hCore
  have hSolid := h.last item (by rw [hItems, List.getLast?_concat]; rfl)
  rw [Text.endsSolid, h.joinedLines_eq hText, hItems, List.map_append, List.map_singleton,
    List.getLast?_concat, Option.any_some, hSolid, Bool.not_false]

end

theorem Neat.solid {run : List Item} (h : Neat run) {block : Block} (hBlock : paragraph? run = some block) :
    block.Solid := by
  cases block with
  | text content => exact ⟨h.startsSolid hBlock, h.endsSolid hBlock⟩
  | table table => trivial
  | code language content => trivial
  | quote content => trivial

/-! ### Blocks -/

theorem assemble_texts (run : List Item) (texts : List String) (rest : List Item) :
    assemble run (texts.map text ++ rest) = assemble (run ++ texts.map text) rest := by
  induction texts generalizing run with
  | nil => rw [List.map_nil, List.nil_append, List.append_nil]
  | cons content texts ih =>
    rw [List.map_cons, List.cons_append, assemble, ih, List.append_assoc, List.singleton_append]
    simp

/-- **No text block comes right after another one.** -/
theorem isChain_assemble {items : List Item} (run : List Item)
    (h : ∀ item ∈ items, ∀ content, item ≠ .block (.text content)) :
    (assemble run items).IsChain fun a b => ¬((Node.block a).isText ∧ (Node.block b).isText) := by
  induction items generalizing run with
  | nil =>
    rw [assemble]
    cases paragraph? run with
    | none => exact .nil
    | some block => exact .singleton block
  | cons item items ih =>
    have hRest := fun i hi => h i (List.mem_cons_of_mem item hi)
    cases item with
    | gap => exact ih _ hRest
    | text content => exact ih _ hRest
    | block made =>
      have hMade := Node.isText_block fun content hText =>
        h _ List.mem_cons_self content (congrArg Item.block hText)
      have hAfter : (made :: assemble [] items).IsChain
          fun a b => ¬((Node.block a).isText ∧ (Node.block b).isText) := by
        rw [List.isChain_cons]
        exact ⟨fun other _ hBoth => by simp [hMade] at hBoth, ih [] hRest⟩
      rw [assemble]
      cases paragraph? run with
      | none => exact hAfter
      | some block =>
        rw [Option.toList_some, List.singleton_append, List.isChain_cons_cons]
        exact ⟨fun hBoth => by simp [hMade] at hBoth, hAfter⟩

theorem Neat.chunk {run : List Item} (h : Neat run) {chunk : Chunk} (hClosed : chunk.Closed)
    (hText : ∀ line, chunk ≠ .blank line) (hPlain : ∀ line ∈ chunk.lines, '\n' ∉ line.toList) :
    Neat (run ++ (chunk.lines.map Line.trimmedEnd).map text) := by
  refine h.texts (fun content hContent => ?_) (fun content hContent => ?_)
    (by simpa using chunk.lines_ne_nil) (fun content hContent => ?_)
  · obtain ⟨line, hLine, rfl⟩ := List.mem_map.mp hContent
    exact fun hMem => hPlain line hLine (Line.mem_of_mem_trimmedEnd hMem)
  · rw [List.head?_map] at hContent
    obtain ⟨line, hLine, rfl⟩ := Option.map_eq_some_iff.mp hContent
    rw [Line.isBlankLine_trimmedEnd]
    exact eq_false_of_ne_true fun hBlank => hText line (hClosed.first line hLine hBlank)
  · rw [List.getLast?_map] at hContent
    obtain ⟨line, hLine, rfl⟩ := Option.map_eq_some_iff.mp hContent
    rw [Line.isBlankLine_trimmedEnd]
    exact eq_false_of_ne_true fun hBlank => hText line (hClosed.last line hLine hBlank)

/-- **Closed chunks make solid blocks and leave a neat run open.** -/
theorem exists_assemble {chunks : List Chunk} (hClosed : ∀ chunk ∈ chunks, chunk.Closed)
    (hPlain : ∀ chunk ∈ chunks, ∀ line ∈ chunk.lines, '\n' ∉ line.toList) {run : List Item}
    (hRun : Neat run) :
    ∃ done run', (∀ block ∈ done, block.Solid) ∧ Neat run' ∧
      ∀ rest, assemble run (chunks.flatMap ofChunk ++ rest) = done ++ assemble run' rest := by
  induction chunks generalizing run with
  | nil => exact ⟨[], run, by simp, hRun, fun rest => rfl⟩
  | cons chunk chunks ih =>
    have ih {run : List Item} (hRun : Neat run) :=
      ih (fun c hc => hClosed c (List.mem_cons_of_mem chunk hc))
        (fun c hc => hPlain c (List.mem_cons_of_mem chunk hc)) hRun
    rcases ofChunk_cases chunk with ⟨made, hMade, hItems⟩ | ⟨line, -, hItems⟩ | ⟨-, hText, hItems⟩
    · -- The block closes the run, and an empty run is open after it.
      obtain ⟨done, run', hDone, hRun', hAll⟩ := ih neat_nil
      refine ⟨(paragraph? run).toList ++ made :: done, run', fun block hBlock => ?_, hRun', ?_⟩
      · rcases List.mem_append.mp hBlock with hBlock | hBlock
        · exact hRun.solid (Option.mem_toList.mp hBlock)
        · rcases List.mem_cons.mp hBlock with rfl | hBlock
          · exact Chunk.solid_of_block? hMade
          · exact hDone block hBlock
      · intro rest
        rw [List.flatMap_cons, hItems, List.append_assoc, List.singleton_append, assemble, hAll]
        simp
    · obtain ⟨done, run', hDone, hRun', hAll⟩ := ih hRun.gap
      refine ⟨done, run', hDone, hRun', fun rest => ?_⟩
      rw [List.flatMap_cons, hItems, List.append_assoc, ← hAll]
      rfl
    · have hNext := hRun.chunk (hClosed chunk List.mem_cons_self) hText (hPlain chunk List.mem_cons_self)
      obtain ⟨done, run', hDone, hRun', hAll⟩ := ih hNext
      refine ⟨done, run', hDone, hRun', fun rest => ?_⟩
      rw [List.flatMap_cons, hItems, List.append_assoc, assemble_texts, hAll]

end Item

/-! ### Lines with closed and with open code -/

namespace Block

variable {lines : List String} (hPlain : ∀ line ∈ lines, '\n' ∉ line.toList)

include hPlain

theorem exists_assemble (hFences : Even (lines.countP Line.isFence)) :
    ∃ done run, (∀ block ∈ done, block.Solid) ∧ Item.Neat run ∧
      ∀ rest, Item.assemble [] ((Chunk.ofLines lines).flatMap Item.ofChunk ++ rest) =
        done ++ Item.assemble run rest := by
  refine Item.exists_assemble (fun chunk hChunk => Chunk.closed_of_mem_ofLines hFences hChunk)
    (fun chunk hChunk line hLine => hPlain line ?_) Item.neat_nil
  rw [← Chunk.flatMap_lines_ofLines lines]
  exact List.mem_flatMap.mpr ⟨chunk, hChunk, hLine⟩

/-- **With closed code, every text starts and ends with a line that is not blank.** -/
theorem solid_of_mem_ofLines (hFences : Even (lines.countP Line.isFence)) {block : Block}
    (h : block ∈ Block.ofLines lines) : block.Solid := by
  obtain ⟨done, run, hDone, hRun, hAll⟩ := exists_assemble hPlain hFences
  have hBlocks := hAll []
  rw [List.append_nil, Item.assemble] at hBlocks
  rw [Block.ofLines, hBlocks, List.mem_append, Option.mem_toList] at h
  rcases h with h | h
  · exact hDone block h
  · exact hRun.solid h

end Block

def Text.EndsInCode (opening : String) (blanks : List String) (content : String) : Prop :=
  ∃ above, joinedLines content = above ++ Line.trimmedEnd opening :: List.replicate blanks.length ""

theorem Text.endsSolid_of_endsInCode {opening content : String} {blanks : List String}
    (h : EndsInCode opening blanks content) (hSome : blanks ≠ []) : endsSolid content = false := by
  obtain ⟨above, hLines⟩ := h
  obtain ⟨blank, blanks, rfl⟩ := List.exists_cons_of_ne_nil hSome
  rw [endsSolid, hLines, List.length_cons, List.replicate_succ', ← List.cons_append, ← List.append_assoc,
    List.getLast?_concat]
  rfl

/-- **Open code comes last**, after solid blocks and a neat run. -/
theorem Block.exists_open {before body : List String} {opening : String}
    (hPlain : ∀ line ∈ before, '\n' ∉ line.toList) (hFences : Even (before.countP Line.isFence))
    (hOpening : Line.isFence opening = true) (hBody : ∀ line ∈ body, Line.isFence line = false) :
    ∃ done run, (∀ block ∈ done, block.Solid) ∧ Item.Neat run ∧
      Block.ofLines (before ++ opening :: body) =
        done ++ Item.assemble run (Item.ofChunk (.fenced opening body none)) := by
  obtain ⟨done, run, hDone, hRun, hAll⟩ := exists_assemble hPlain hFences
  refine ⟨done, run, hDone, hRun, ?_⟩
  rw [Block.ofLines, Chunk.ofLines_append hFences hOpening, Chunk.ofLines_open hOpening hBody,
    List.flatMap_append, hAll, List.flatMap_singleton]

namespace Item

theorem exists_text_of_texts {run : List Item} {texts : List String}
    (h : Starts (run ++ texts.map text)) (hSome : texts ≠ []) :
    ∃ content, paragraph? (run ++ texts.map text) = some (.text content) ∧
      assemble run (texts.map text) = [.text content] ∧
      Text.joinedLines content = (run.dropWhile isGap).map line ++ texts := by
  have hCore := core_append_texts run hSome
  have hText : paragraph? (run ++ texts.map text) =
      some (.text (Text.join "\n" ((core (run ++ texts.map text)).map line))) := by
    refine paragraph?_of_core ?_
    rw [hCore]
    exact List.append_ne_nil_of_right_ne_nil _ (by simpa using hSome)
  refine ⟨_, hText, ?_, ?_⟩
  · rw [← List.append_nil (texts.map text), assemble_texts, assemble, List.append_nil, hText,
      Option.toList_some]
  · rw [h.joinedLines_eq hText, hCore, List.map_append, List.map_map]
    exact congrArg (_ ++ ·) (List.map_id texts)

/-- Open code with only blank lines in it is not code: its lines are text. -/
theorem ofChunk_of_blank (opening : String) {blanks : List String}
    (hBlank : ∀ line ∈ blanks, Text.isBlankLine line = true) :
    ofChunk (.fenced opening blanks none) =
      (Line.trimmedEnd opening :: List.replicate blanks.length "").map text := by
  have hNone : (Chunk.fenced opening blanks none).block? = none := by
    rw [Chunk.block?, if_pos (List.all_eq_true.mpr hBlank)]
  have hEmpty : blanks.map Line.trimmedEnd = List.replicate blanks.length "" := by
    refine List.eq_replicate_iff.mpr ⟨List.length_map _, fun text hText => ?_⟩
    obtain ⟨line, hLine, rfl⟩ := List.mem_map.mp hText
    exact trimmedEnd_of_isBlankLine (hBlank line hLine)
  rcases ofChunk_cases (.fenced opening blanks none) with
    ⟨made, hMade, -⟩ | ⟨line, hLine, -⟩ | ⟨-, -, hItems⟩
  · rw [hNone] at hMade
    cases hMade
  · cases hLine
  · rw [hItems, Chunk.lines, Option.toList_none, List.append_nil, List.map_cons, hEmpty]

/-- **Open code with nothing in it goes to the text before it**, with its blank lines. -/
theorem exists_endsInCode {run : List Item} (hRun : Neat run) {opening : String}
    (hOpening : Line.isFence opening = true) (hPlain : '\n' ∉ opening.toList) {blanks : List String}
    (hBlank : ∀ line ∈ blanks, Text.isBlankLine line = true) :
    ∃ content, assemble run (ofChunk (.fenced opening blanks none)) = [.text content] ∧
      Text.startsSolid content ∧ Text.EndsInCode opening blanks content ∧
      (blanks = [] → Text.endsSolid content) := by
  let texts := Line.trimmedEnd opening :: List.replicate blanks.length ""
  have hOpen : Text.isBlankLine (Line.trimmedEnd opening) = false := by
    rw [Line.isBlankLine_trimmedEnd, Line.isBlankLine_of_isFence hOpening]
  have hFirst : ∀ text ∈ texts.head?, Text.isBlankLine text = false := by
    simpa [texts] using hOpen
  have hFeeds : ∀ text ∈ texts, '\n' ∉ text.toList := by
    intro text hText
    rcases List.mem_cons.mp hText with rfl | hText
    · exact fun hMem => hPlain (Line.mem_of_mem_trimmedEnd hMem)
    · rw [(List.mem_replicate.mp hText).2]
      decide
  have hStarts : Starts (run ++ texts.map text) := hRun.toStarts.texts hFeeds hFirst
  obtain ⟨content, hText, hAll, hLines⟩ := exists_text_of_texts hStarts (List.cons_ne_nil _ _)
  refine ⟨content, ?_, hStarts.startsSolid hText, ⟨_, hLines⟩, fun hNil => ?_⟩
  · rw [ofChunk_of_blank opening hBlank, hAll]
  · have hLast : ∀ text ∈ texts.getLast?, Text.isBlankLine text = false := by
      simpa [texts, hNil] using hOpen
    exact (hRun.texts hFeeds hFirst (List.cons_ne_nil _ _) hLast).endsSolid hText

end Item

/-- **Every text of lines with open code starts with a line that is not blank**, and ends with one unless
nothing but blank lines comes after the fence that opens the code. -/
theorem Block.solid_or_endsInCode {before body : List String} {opening : String}
    (hPlain : ∀ line ∈ before ++ opening :: body, '\n' ∉ line.toList)
    (hFences : Even (before.countP Line.isFence)) (hOpening : Line.isFence opening = true)
    (hBody : ∀ line ∈ body, Line.isFence line = false) {content : String}
    (h : .text content ∈ Block.ofLines (before ++ opening :: body)) :
    Text.startsSolid content ∧ (Text.endsSolid content ∨ body ≠ [] ∧
      (∀ line ∈ body, Text.isBlankLine line = true) ∧ Text.EndsInCode opening body content) := by
  have hSolid (hBlock : Block.Solid (.text content)) : Text.startsSolid content ∧
      (Text.endsSolid content ∨ body ≠ [] ∧ (∀ line ∈ body, Text.isBlankLine line = true) ∧
        Text.EndsInCode opening body content) :=
    And.imp_right Or.inl hBlock
  obtain ⟨done, run, hDone, hRun, hBlocks⟩ :=
    exists_open (fun line hLine => hPlain line (List.mem_append_left _ hLine)) hFences hOpening hBody
  rw [hBlocks, List.mem_append] at h
  rcases h with h | h
  · exact hSolid (hDone _ h)
  by_cases hBlank : ∀ line ∈ body, Text.isBlankLine line = true
  · have hFeed := hPlain opening (List.mem_append_right _ List.mem_cons_self)
    obtain ⟨last, hLast, hStarts, hCode, hEnds⟩ := Item.exists_endsInCode hRun hOpening hFeed hBlank
    rw [hLast, List.mem_singleton, Block.text.injEq] at h
    rw [h]
    by_cases hNil : body = []
    · exact ⟨hStarts, Or.inl (hEnds hNil)⟩
    · exact ⟨hStarts, Or.inr ⟨hNil, hBlank, hCode⟩⟩
  · -- Code that holds something makes a block of its own, so the text before it ends there.
    have hNot : ¬body.all Text.isBlankLine = true := fun hAll => hBlank (List.all_eq_true.mp hAll)
    rcases Item.ofChunk_cases (.fenced opening body none) with
      ⟨made, hMade, hItems⟩ | ⟨line, hLine, -⟩ | ⟨hNone, -, -⟩
    · rw [hItems, Item.assemble, List.mem_append, List.mem_cons, Option.mem_toList] at h
      rcases h with h | h | h
      · exact hSolid (hRun.solid h)
      · rw [← h] at hMade
        exact hSolid (Chunk.solid_of_block? hMade)
      · cases h
    · cases hLine
    · rw [Chunk.block?, if_neg hNot] at hNone
      cases hNone

end ProseTypes
