import ProseTypes.Document.Basic

/-!
# Reading by descent

Sections can also be read without an outline.  Lines are taken from the first to the last: a heading
cuts off the lines of its section, which are read in the same way on their own, and what stands
between headings is taken in chunks.  A line of text goes to the text before it.  Fences are looked
at twice, once when the lines of a section are cut off and once when chunks are taken from them.
-/

namespace ProseTypes

/-- A child of a section: a block, or a section with its own children. -/
inductive Node where
  | block (block : Block)
  | part (level : Nat) (title : String) (children : List Node)

namespace Node

mutual

def ofSection : Section → Node
  | ⟨level, title, blocks, sections⟩ =>
    .part level title (blocks.map .block ++ ofSections sections)

def ofSections : List Section → List Node
  | [] => []
  | s :: rest => ofSection s :: ofSections rest

end

def isText : Node → Bool
  | block (.text _) => true
  | _ => false

end Node

/-! ### Children as they are read -/

/-- The children of a section so far, and the number of blank lines after the last of them. -/
structure Children where
  nodes : List Node
  blanks : Nat

namespace Children

def empty : Children := ⟨[], 0⟩

def push (children : Children) (node : Node) : Children :=
  ⟨children.nodes ++ [node], 0⟩

/-- Adds a line of text: to the text before it, with the blank lines between, or as new text. -/
def text (children : Children) (line : String) : Children :=
  match children.nodes.getLast? with
  | some (.block (.text content)) =>
    let gap := String.ofList (List.replicate (children.blanks + 1) '\n')
    ⟨children.nodes.dropLast ++ [.block (.text (content ++ gap ++ line))], 0⟩
  | _ => ⟨children.nodes ++ [.block (.text line)], 0⟩

def add (children : Children) : Item → Children
  | .block made => children.push (.block made)
  | .text line => children.text line
  | .gap => ⟨children.nodes, children.blanks + 1⟩

end Children

namespace Descent

/-- Cuts lines before the first heading outside code that lies no deeper than a level. -/
def cut (level : Nat) (inCode : Bool) : List String → List String × List String
  | [] => ([], [])
  | line :: rest =>
    if Line.isFence line then
      (line :: (cut level (!inCode) rest).1, (cut level (!inCode) rest).2)
    else if !inCode && (Line.heading? line).any (fun heading => heading.level ≤ level) then
      ([], line :: rest)
    else (line :: (cut level inCode rest).1, (cut level inCode rest).2)

theorem cut_append (level : Nat) (inCode : Bool) (lines : List String) :
    (cut level inCode lines).1 ++ (cut level inCode lines).2 = lines := by
  induction lines generalizing inCode with
  | nil => rfl
  | cons line rest ih =>
    rw [cut]
    split
    · rw [List.cons_append, ih]
    split
    · rfl
    · rw [List.cons_append, ih]

theorem length_cut (level : Nat) (inCode : Bool) (lines : List String) :
    (cut level inCode lines).1.length + (cut level inCode lines).2.length = lines.length := by
  rw [← List.length_append, cut_append]

def read (children : Children) : List String → Children
  | [] => children
  | line :: rest =>
    match Line.heading? line with
    | some heading =>
      read (children.push (.part heading.level heading.title
        (read .empty (cut heading.level false rest).1).nodes)) (cut heading.level false rest).2
    | none =>
      read ((Item.ofChunk (Chunk.next line rest).1).foldl Children.add children)
        (Chunk.next line rest).2
termination_by lines => lines.length
decreasing_by
  · have := length_cut heading.level false rest
    simp only [List.length_cons]
    omega
  · have := length_cut heading.level false rest
    simp only [List.length_cons]
    omega
  · exact Nat.lt_succ_of_le (Chunk.length_next_le line rest)

/-- Reads the section that holds everything in the lines. -/
def root (lines : List String) : Node :=
  .part 0 "" (read .empty lines).nodes

end Descent

end ProseTypes
