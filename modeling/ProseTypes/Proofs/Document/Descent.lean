import ProseTypes.Document.Descent
import ProseTypes.Proofs.Document.Outline
import ProseTypes.Proofs.Document.RunningText

/-!
# Reading by descent gives the outline

Descent decides about nesting twice.  A section is cut off at the next heading outside code that lies
no deeper, and its lines are then cut into chunks, among them code, that know nothing of the headings
further down.

* `Descent.read_cut`: cutting off the lines of a section cuts their outline at the same place.
* `Descent.next_read`: a chunk is taken from the lines before the next heading outside code, and
  never reaches further.
* `Children.Open.add`: adding an item to the children so far makes the blocks that a run of items
  makes at once.

So both ways lead to the same tree (`Descent.root_eq`), in which the blocks of a section come before
the sections in it.
-/

namespace ProseTypes

/-! ### Cutting off a section -/

namespace Outline

theorem plain_or_heading (inCode : Bool) (line : String) :
    (inCode = true ∨ Line.heading? line = none) ∨
      inCode = false ∧ ∃ heading, Line.heading? line = some heading := by
  cases inCode with
  | true => exact Or.inl (Or.inl rfl)
  | false =>
    cases hHeading : Line.heading? line with
    | none => exact Or.inl (Or.inr rfl)
    | some heading => exact Or.inr ⟨rfl, heading, rfl⟩

theorem read_heading {line : String} {heading : Heading} (h : Line.heading? line = some heading)
    (rest : List String) : read false (line :: rest) =
      ⟨[], ⟨heading, (read false rest).preamble⟩ :: (read false rest).parts⟩ := by
  rw [read, if_neg Bool.false_ne_true, h]

theorem read_line {inCode : Bool} {line : String}
    (h : inCode = true ∨ Line.heading? line = none) (rest : List String) :
    read inCode (line :: rest) =
      ⟨line :: (read (inCode != Line.isFence line) rest).preamble,
        (read (inCode != Line.isFence line) rest).parts⟩ := by
  have hNone : (if inCode = true then none else Line.heading? line) = none := by
    rcases h with h | h
    · rw [if_pos h]
    · rw [h, ite_self]
  rw [read, hNone]

end Outline

namespace Descent

/-- **Cutting off the lines of a section cuts their outline**: the lines that are cut off have the
parts that lie deeper, and the lines after them, if any, start with the next part. -/
theorem read_cut (level : Nat) (inCode : Bool) (lines : List String) :
    Outline.read inCode (cut level inCode lines).1 =
      ⟨(Outline.read inCode lines).preamble,
        (Outline.read inCode lines).parts.takeWhile fun part => level < part.heading.level⟩ ∧
    Outline.read false (cut level inCode lines).2 =
      ⟨[], (Outline.read inCode lines).parts.dropWhile fun part => level < part.heading.level⟩ := by
  induction lines generalizing inCode with
  | nil => exact ⟨rfl, rfl⟩
  | cons line rest ih =>
    rcases Outline.plain_or_heading inCode line with hOpen | ⟨rfl, heading, hHeading⟩
    · -- The line opens nothing, so it is cut off with the lines after it.
      have hCut : cut level inCode (line :: rest) =
          (line :: (cut level (inCode != Line.isFence line) rest).1,
            (cut level (inCode != Line.isFence line) rest).2) := by
        rw [cut]
        by_cases hFence : Line.isFence line = true
        · rw [if_pos hFence, hFence, Bool.bne_true]
        · rw [if_neg hFence, if_neg, eq_false_of_ne_true hFence, Bool.bne_false]
          rcases hOpen with h | h <;> simp [h]
      obtain ⟨hBody, hAfter⟩ := ih (inCode != Line.isFence line)
      rw [hCut, Outline.read_line hOpen, Outline.read_line hOpen, hBody]
      exact ⟨rfl, hAfter⟩
    · have hFence : ¬Line.isFence line = true := by
        rw [Line.isFence_of_heading? hHeading]
        exact Bool.false_ne_true
      rw [cut, if_neg hFence, hHeading, Outline.read_heading hHeading]
      by_cases hDeep : level < heading.level
      · obtain ⟨hBody, hAfter⟩ := ih false
        rw [if_neg (by simpa using hDeep), List.takeWhile_cons_of_pos (by simpa using hDeep),
          List.dropWhile_cons_of_pos (by simpa using hDeep), Outline.read_heading hHeading, hBody]
        exact ⟨rfl, hAfter⟩
      · rw [if_pos (by simpa using hDeep), List.takeWhile_cons_of_neg (by simpa using hDeep),
          List.dropWhile_cons_of_neg (by simpa using hDeep), Outline.read_heading hHeading]
        exact ⟨rfl, rfl⟩

end Descent

namespace Outline

/-! ### Nesting what is cut off -/

section

variable {α : Type} {p q : α → Bool} (h : ∀ a, p a → q a)

include h

theorem takeWhile_of_imp (l : List α) : (l.takeWhile q).takeWhile p = l.takeWhile p := by
  induction l with
  | nil => rfl
  | cons a l ih =>
    by_cases hp : p a
    · simp [hp, h a hp, ih]
    · by_cases hq : q a <;> simp [hp, hq]

theorem dropWhile_takeWhile_of_imp (l : List α) :
    (l.takeWhile q).dropWhile p = (l.dropWhile p).takeWhile q := by
  induction l with
  | nil => rfl
  | cons a l ih =>
    by_cases hp : p a
    · simp [hp, h a hp, ih]
    · by_cases hq : q a <;> simp [hp, hq]

theorem dropWhile_of_imp (l : List α) : (l.dropWhile p).dropWhile q = l.dropWhile q := by
  induction l with
  | nil => rfl
  | cons a l ih =>
    by_cases hp : p a
    · simp [hp, h a hp, ih]
    · simp [hp]

end

theorem nest_takeWhile (level : Nat) (parts : List Part) :
    nest (parts.takeWhile fun part => level < part.heading.level) =
      (nest parts).takeWhile fun s => level < s.level := by
  induction parts with
  | nil => rfl
  | cons part rest ih =>
    by_cases hDeep : level < part.heading.level
    · have hImp (s : Section) (hs : decide (part.heading.level < s.level) = true) :
          decide (level < s.level) = true := by
        simp only [decide_eq_true_eq] at hs ⊢
        omega
      rw [List.takeWhile_cons_of_pos (by simpa using hDeep), nest, nest,
        List.takeWhile_cons_of_pos (by simpa using hDeep), ih]
      rw [takeWhile_of_imp hImp, dropWhile_takeWhile_of_imp hImp]
    · rw [List.takeWhile_cons_of_neg (by simpa using hDeep), nest, nest,
        List.takeWhile_cons_of_neg (by simpa using hDeep)]

theorem nest_dropWhile (level : Nat) (parts : List Part) :
    nest (parts.dropWhile fun part => level < part.heading.level) =
      (nest parts).dropWhile fun s => level < s.level := by
  induction parts with
  | nil => rfl
  | cons part rest ih =>
    by_cases hDeep : level < part.heading.level
    · have hImp (s : Section) (hs : decide (part.heading.level < s.level) = true) :
          decide (level < s.level) = true := by
        simp only [decide_eq_true_eq] at hs ⊢
        omega
      rw [List.dropWhile_cons_of_pos (by simpa using hDeep), ih, nest,
        List.dropWhile_cons_of_pos (by simpa using hDeep), dropWhile_of_imp hImp]
    · rw [List.dropWhile_cons_of_neg (by simpa using hDeep), nest,
        List.dropWhile_cons_of_neg (by simpa using hDeep)]

end Outline

/-! ### Chunks of the lines before a heading -/

namespace Outline

/-- The lines of one class at the start, if the class has neither headings nor fences in it, are
before everything else, and nothing after them before the next heading is of that class. -/
theorem read_takeWhile {p : String → Bool}
    (hPlain : ∀ line, p line = true → Line.heading? line = none ∧ Line.isFence line = false)
    (lines : List String) :
    (read false lines).preamble.takeWhile p = lines.takeWhile p ∧
    (read false lines).preamble.dropWhile p = (read false (lines.dropWhile p)).preamble ∧
    (read false lines).parts = (read false (lines.dropWhile p)).parts := by
  induction lines with
  | nil => exact ⟨rfl, rfl, rfl⟩
  | cons line rest ih =>
    by_cases hLine : p line = true
    · obtain ⟨hHeading, hFence⟩ := hPlain line hLine
      rw [read_line (Or.inr hHeading), hFence, Bool.bne_false]
      simpa [hLine] using ih
    · rw [List.takeWhile_cons_of_neg hLine, List.dropWhile_cons_of_neg hLine]
      cases hHeading : Line.heading? line with
      | some heading =>
        rw [read_heading hHeading]
        exact ⟨rfl, rfl, rfl⟩
      | none =>
        rw [read_line (Or.inr hHeading), List.takeWhile_cons_of_neg hLine,
          List.dropWhile_cons_of_neg hLine]
        exact ⟨rfl, rfl, rfl⟩

theorem read_code (lines : List String) :
    let isBody (line : String) : Bool := !Line.isFence line
    let after := lines.dropWhile isBody
    (read true lines).preamble.takeWhile isBody = lines.takeWhile isBody ∧
    ((read true lines).preamble.dropWhile isBody).head? = after.head? ∧
    ((read true lines).preamble.dropWhile isBody).tail = (read false after.tail).preamble ∧
    (read true lines).parts = (read false after.tail).parts := by
  induction lines with
  | nil => exact ⟨rfl, rfl, rfl, rfl⟩
  | cons line rest ih =>
    rw [read_line (Or.inl rfl)]
    cases hFence : Line.isFence line with
    | true => simp [hFence]
    | false => simpa [hFence] using ih

theorem any_head?_preamble {p : String → Bool}
    (hPlain : ∀ line, p line = true → Line.heading? line = none) (lines : List String) :
    (read false lines).preamble.head?.any p = lines.head?.any p := by
  cases lines with
  | nil => rfl
  | cons line rest =>
    cases hHeading : Line.heading? line with
    | none =>
      rw [read_line (Or.inr hHeading)]
      rfl
    | some heading =>
      have hNot : ¬p line = true := by
        intro hp
        rw [hPlain line hp] at hHeading
        cases hHeading
      rw [read_heading hHeading]
      simp [hNot]

end Outline

namespace Descent

/-- **A chunk is taken from the lines before the next heading outside code.**  The lines after it
have the rest of these lines before their next heading, and the same parts. -/
theorem next_read (line : String) (rest : List String) :
    Chunk.next line (Outline.read (Line.isFence line) rest).preamble =
      ((Chunk.next line rest).1, (Outline.read false (Chunk.next line rest).2).preamble) ∧
    (Outline.read (Line.isFence line) rest).parts =
      (Outline.read false (Chunk.next line rest).2).parts := by
  by_cases hBlank : Text.isBlankLine line = true
  · simp [Chunk.next, hBlank, Line.isFence_of_isBlankLine hBlank]
  by_cases hFence : Line.isFence line = true
  · obtain ⟨hBody, hClosing, hAfter, hParts⟩ := Outline.read_code rest
    simp only [Chunk.next, if_neg hBlank, hFence, if_true]
    exact ⟨by rw [hBody, hClosing, hAfter], hParts⟩
  obtain hOut : Line.isFence line = false := eq_false_of_ne_true hFence
  have hAny := Outline.any_head?_preamble (fun l hl => (Line.plain_of_isSeparator hl).1) rest
  rw [hOut]
  by_cases hGrid : (Line.isRow line && rest.head?.any Line.isSeparator) = true
  · cases rest with
    | nil => simp at hGrid
    | cons separator rest =>
      have hSeparator : Line.isSeparator separator = true := by
        simpa using (Bool.and_eq_true_iff.mp hGrid).2
      obtain ⟨hHeading, hPlain⟩ := Line.plain_of_isSeparator hSeparator
      obtain ⟨hBody, hAfter, hParts⟩ :=
        Outline.read_takeWhile (fun l hl => Line.plain_of_isRow hl) rest
      rw [Outline.read_line (Or.inr hHeading), hPlain, Bool.bne_false] at hAny ⊢
      simp only [Chunk.next, if_neg hBlank, if_neg hFence, hAny, if_pos hGrid, List.headD_cons,
        List.tail_cons]
      exact ⟨by rw [hBody, hAfter], hParts⟩
  by_cases hQuote : Line.isQuote line = true
  · obtain ⟨hBody, hAfter, hParts⟩ :=
      Outline.read_takeWhile (fun l hl => Line.plain_of_isQuote hl) rest
    simp only [Chunk.next, if_neg hBlank, if_neg hFence, hAny, if_neg hGrid, if_pos hQuote]
    exact ⟨by rw [hBody, hAfter], hParts⟩
  · simp only [Chunk.next, if_neg hBlank, if_neg hFence, hAny, if_neg hGrid, if_neg hQuote]
    exact ⟨trivial, trivial⟩

end Descent

/-! ### Open children -/

theorem Node.isText_block {made : Block} (h : ∀ content, made ≠ .text content) :
    (Node.block made).isText = false := by
  cases made with
  | text content => exact absurd rfl (h content)
  | table table => rfl
  | code language content => rfl
  | quote content => rfl

namespace Children

/-- What children stand for while a run of text is open: finished nodes, none of them text at the
end, then the paragraph of the run.  Blank lines are counted from the last text on. -/
structure Open (children : Children) (done : List Node) (run : List Item) : Prop where
  nodes : children.nodes = done ++ (Item.paragraph? run).toList.map .block
  blanks : Item.core run ≠ [] → children.blanks = Item.gapsAfter run
  closed : ∀ node ∈ done.getLast?, node.isText = false

theorem open_empty : empty.Open [] [] where
  nodes := rfl
  blanks h := absurd rfl h
  closed node h := by cases h

theorem open_push (children : Children) {node : Node} (hNode : node.isText = false) :
    (children.push node).Open (children.nodes ++ [node]) [] where
  nodes := (List.append_nil _).symm
  blanks h := absurd rfl h
  closed last hLast := by
    rw [List.getLast?_concat, Option.mem_some_iff] at hLast
    rw [← hLast, hNode]

namespace Open

variable {children : Children} {done : List Node} {run : List Item} (h : children.Open done run)

include h

theorem gap : (children.add .gap).Open done (run ++ [.gap]) where
  nodes := by rw [Item.paragraph?_append_gap]; exact h.nodes
  blanks hText := by
    rw [Item.core_append_gap] at hText
    rw [Item.gapsAfter_append_gap hText, ← h.blanks hText]
    rfl
  closed := h.closed

theorem text (content : String) :
    (children.add (.text content)).Open done (run ++ [.text content]) where
  nodes := by
    by_cases hCore : Item.core run = []
    · have hNodes : children.nodes = done := by
        rw [h.nodes, Item.paragraph?_of_core_nil hCore, Option.toList_none, List.map_nil,
          List.append_nil]
      rw [Item.paragraph?_append_text_of_nil hCore, Children.add, Children.text, hNodes]
      split
      · rename_i hLast
        exact absurd (h.closed _ hLast) (by simp [Node.isText])
      · rfl
    · have hNodes := h.nodes
      rw [Item.paragraph?_of_core hCore, Option.toList_some, List.map_singleton] at hNodes
      rw [Item.paragraph?_append_text hCore, Children.add, Children.text, hNodes,
        List.getLast?_concat, List.dropLast_concat, h.blanks hCore]
      rfl
  blanks _ := by
    rw [Item.gapsAfter_append_text, Children.add, Children.text]
    split <;> rfl
  closed := h.closed

/-- **An item is added to what is open**, which holds as much as before. -/
theorem add {item : Item} (hItem : ∀ content, item ≠ .block (.text content)) :
    ∃ done' run', (children.add item).Open done' run' ∧ ∀ rest,
      done' ++ (Item.assemble run' rest).map .block =
        done ++ (Item.assemble run (item :: rest)).map .block := by
  cases item with
  | gap => exact ⟨done, _, h.gap, fun rest => rfl⟩
  | text content => exact ⟨done, _, h.text content, fun rest => rfl⟩
  | block made =>
    have hMade := Node.isText_block fun content hText => hItem content (congrArg Item.block hText)
    refine ⟨_, _, children.open_push hMade, fun rest => ?_⟩
    rw [h.nodes, Item.assemble]
    simp

theorem foldl_add {items : List Item} (hItems : ∀ item ∈ items, ∀ content,
    item ≠ .block (.text content)) :
    ∃ done' run', (items.foldl Children.add children).Open done' run' ∧ ∀ rest,
      done' ++ (Item.assemble run' rest).map .block =
        done ++ (Item.assemble run (items ++ rest)).map .block := by
  induction items generalizing children done run with
  | nil => exact ⟨done, run, h, fun rest => rfl⟩
  | cons item items ih =>
    obtain ⟨done₁, run₁, hOpen, hAdd⟩ := h.add (hItems item List.mem_cons_self)
    obtain ⟨done₂, run₂, hAll, hRest⟩ := ih hOpen fun i hi => hItems i (List.mem_cons_of_mem _ hi)
    exact ⟨done₂, run₂, hAll, fun rest => by rw [hRest, hAdd, List.cons_append]⟩

end Open

end Children

theorem Item.ne_text_of_mem_ofChunk {chunk : Chunk} {item : Item} (h : item ∈ ofChunk chunk)
    (content : String) : item ≠ .block (.text content) := by
  have hBlock : chunk.block? ≠ some (.text content) := by
    cases chunk <;> simp [Chunk.block?]
  rintro rfl
  unfold ofChunk at h
  split at h
  · rename_i made hMade
    have hSame : made = .text content := by simpa using (List.mem_singleton.mp h).symm
    exact hBlock (hSame ▸ hMade)
  · simp at h
  · simp at h

/-! ### Both ways -/

namespace Descent

/-- **What is read below open children**: the blocks of the lines before the next heading, then the
sections. -/
theorem nodes_read {children : Children} {done : List Node} {run : List Item}
    (h : children.Open done run) (lines : List String) :
    (read children lines).nodes = done ++
      (Item.assemble run ((Chunk.ofLines (Outline.read false lines).preamble).flatMap
        Item.ofChunk)).map .block ++
      Node.ofSections (Outline.nest (Outline.read false lines).parts) := by
  fun_induction read children lines generalizing done run with
  | case1 children =>
    rw [h.nodes]
    simp [Outline.read, Chunk.ofLines, Outline.nest, Node.ofSections, Item.assemble]
  | case2 children line rest heading hHeading ihInside ihAfter =>
    obtain ⟨hInside, hAfter⟩ := read_cut heading.level false rest
    have hBody := ihInside Children.open_empty
    have hRest := ihAfter (Children.open_push _ rfl)
    rw [hInside, Outline.nest_takeWhile] at hBody
    rw [hAfter, Outline.nest_dropWhile] at hRest
    have hNest : Node.ofSections (Outline.nest
        (⟨heading, (Outline.read false rest).preamble⟩ :: (Outline.read false rest).parts)) =
        .part heading.level heading.title (read .empty (cut heading.level false rest).1).nodes ::
          Node.ofSections ((Outline.nest (Outline.read false rest).parts).dropWhile
            fun s => heading.level < s.level) := by
      rw [Outline.nest, Node.ofSections, Node.ofSection, hBody]
      rfl
    rw [hRest, Outline.read_heading hHeading, hNest, h.nodes]
    simp [Chunk.ofLines, Item.assemble, Item.paragraph?]
  | case3 children line rest hHeading ih =>
    obtain ⟨hNext, hParts⟩ := next_read line rest
    obtain ⟨done', run', hOpen, hRest⟩ :=
      h.foldl_add fun item hItem content => Item.ne_text_of_mem_ofChunk hItem content
    rw [Outline.read_line (Or.inr hHeading), Bool.false_bne, Chunk.ofLines, hNext, hParts,
      List.flatMap_cons, ← hRest]
    exact ih hOpen

/-- **Reading by descent gives the tree of the outline.** -/
theorem root_eq (lines : List String) :
    root lines = Node.ofSection (Outline.read false lines).root := by
  have h := nodes_read Children.open_empty lines
  rw [root, h]
  rfl

end Descent

/-- **The sections of a document are its outline.**  Reading the lines by descent gives the tree of
the document.  Its walk visits the root and then the headings outside code in line order, each with
its level and title.  The root has no ancestors, and those of every other visit are the ancestors of
its parent and the parent itself, which is the nearest earlier visit of smaller level. -/
theorem Document.outline_ofLines (path : String) (lines : List String) :
    Descent.root lines = Node.ofSection (ofLines path lines).root ∧
    (ofLines path lines).walk.map Visit.heading = ⟨0, ""⟩ :: Outline.headings lines ∧
    ∀ i v, (ofLines path lines).walk[i]? = some v →
      (i = 0 ∧ v.ancestors = []) ∨
      ∃ p u, Outline.IsParent (⟨0, ""⟩ :: Outline.headings lines) p i ∧
        (ofLines path lines).walk[p]? = some u ∧ v.ancestors = u.ancestors ++ [u.here] := by
  obtain ⟨hHeadings, hAncestors⟩ := walk_ofLines path lines
  exact ⟨Descent.root_eq lines, hHeadings, hAncestors⟩

end ProseTypes
