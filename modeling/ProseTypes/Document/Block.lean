import ProseTypes.Document.Table

/-!
# Blocks

The lines that a section has of its own are cut into chunks, which together hold every line once
and in order. A chunk either makes a block of its own (code, a table, a quote) or is a piece of
running text; the pieces of text between two other blocks make one text block, with the blank
lines inside it kept.
-/

namespace ProseTypes

/-- A part of a section that is not a section itself. -/
inductive Block where
  | table (table : Table)
  | code (language : Option String) (content : String)
  | quote (content : String)
  | text (content : String)
deriving DecidableEq, Repr

inductive Chunk where
  | blank (line : String)
  | plain (line : String)
  | fenced (opening : String) (body : List String) (closing : Option String)
  | grid (header separator : String) (body : List String)
  | quoted (first : String) (rest : List String)
deriving DecidableEq, Repr

namespace Chunk

def lines : Chunk → List String
  | blank line | plain line => [line]
  | fenced opening body closing => opening :: body ++ closing.toList
  | grid header separator body => header :: separator :: body
  | quoted first rest => first :: rest

/-- The chunk at the start of some lines, and the lines after it. Code runs to the next fence or
to the end; a table needs a separator under its first row. -/
def next (line : String) (rest : List String) : Chunk × List String :=
  if Text.isBlankLine line then (.blank line, rest)
  else if Line.isFence line then
    let after := rest.dropWhile fun l => !Line.isFence l
    (.fenced line (rest.takeWhile fun l => !Line.isFence l) after.head?, after.tail)
  else if Line.isRow line && rest.head?.any Line.isSeparator then
    (.grid line (rest.headD "") (rest.tail.takeWhile Line.isRow), rest.tail.dropWhile Line.isRow)
  else if Line.isQuote line then
    (.quoted line (rest.takeWhile Line.isQuote), rest.dropWhile Line.isQuote)
  else (.plain line, rest)

theorem length_next_le (line : String) (rest : List String) :
    (next line rest).2.length ≤ rest.length := by
  have hDrop (p : String → Bool) (ls : List String) : (ls.dropWhile p).length ≤ ls.length :=
    (List.dropWhile_sublist p).length_le
  unfold next
  split
  · exact Nat.le_refl _
  split
  · have := hDrop (fun l => !Line.isFence l) rest
    simp only [List.length_tail]
    omega
  split
  · have := hDrop Line.isRow rest.tail
    simp only [List.length_tail] at this
    exact Nat.le_trans this (Nat.sub_le _ _)
  split
  · exact hDrop Line.isQuote rest
  · exact Nat.le_refl _

def ofLines : List String → List Chunk
  | [] => []
  | line :: rest => (next line rest).1 :: ofLines (next line rest).2
termination_by lines => lines.length
decreasing_by exact Nat.lt_succ_of_le (length_next_le line rest)

/-- The block that a chunk makes by itself. Code or a quote that is blank, and a table whose
headers are all empty, make none. -/
def block? : Chunk → Option Block
  | blank _ | plain _ => none
  | fenced opening body _ =>
    let info := Text.trim ((Text.trim opening.toList).dropWhile (· == '\x60'))
    if body.all Text.isBlankLine then none
    else some (.code (if info.isEmpty then none else some (String.ofList info))
      (Text.join "\n" body))
  | grid header _ body => (Table.ofLines? header body).map .table
  | quoted first rest =>
    let content := (first :: rest).map Line.unquoted
    if content.all Text.isBlankLine then none else some (.quote (Text.join "\n" content))

end Chunk

/-- What a chunk adds to a section: a block of its own, lines of running text, or a gap in it. -/
inductive Item where
  | block (block : Block)
  | text (line : String)
  | gap
deriving DecidableEq, Repr

namespace Item

/-- The items of a chunk. A line of text loses the blanks at its end. -/
def ofChunk (chunk : Chunk) : List Item :=
  match chunk.block?, chunk with
  | some made, _ => [.block made]
  | none, .blank _ => [.gap]
  | none, _ => chunk.lines.map fun line => .text (String.ofList (Text.trimEnd line.toList))

def isGap : Item → Bool
  | gap => true
  | _ => false

def line : Item → String
  | text line => line
  | _ => ""

/-- The text block of a run of text lines and gaps; gaps at its ends are dropped. -/
def paragraph? (run : List Item) : Option Block :=
  match ((run.dropWhile isGap).reverse.dropWhile isGap).reverse with
  | [] => none
  | items => some (.text (Text.join "\n" (items.map line)))

def assemble (run : List Item) : List Item → List Block
  | [] => (paragraph? run).toList
  | .block made :: rest => (paragraph? run).toList ++ made :: assemble [] rest
  | item :: rest => assemble (run ++ [item]) rest

end Item

def Block.ofLines (lines : List String) : List Block :=
  Item.assemble [] ((Chunk.ofLines lines).flatMap Item.ofChunk)

end ProseTypes
