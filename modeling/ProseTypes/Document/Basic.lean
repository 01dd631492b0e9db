import ProseTypes.Document.Section
import ProseTypes.Text.Lines

/-!
# Documents

A file is first read as a flat outline: the lines before the first heading, and then one part for
each heading, with the lines up to the next heading. A heading inside a code block opens nothing.
Nesting the parts by level gives the tree of sections.
-/

namespace ProseTypes

/-- A heading and the lines below it up to the next heading. -/
structure Part where
  heading : Heading
  lines : List String
deriving DecidableEq, Repr

/-- A file as lines before the first heading and parts. -/
structure Outline where
  preamble : List String
  parts : List Part
deriving DecidableEq, Repr

namespace Outline

/-- Reads lines, given whether they start inside a code block. -/
def read (inCode : Bool) : List String → Outline
  | [] => ⟨[], []⟩
  | line :: rest =>
    match if inCode then none else Line.heading? line with
    | some heading =>
      let below := read false rest
      ⟨[], ⟨heading, below.preamble⟩ :: below.parts⟩
    | none =>
      let below := read (inCode != Line.isFence line) rest
      ⟨line :: below.preamble, below.parts⟩

/-- Nests parts: the sections after a part that lie deeper, up to the first that does not, belong
to it. -/
def nest : List Part → List Section
  | [] => []
  | part :: rest =>
    let below := nest rest
    let deeper (s : Section) : Bool := part.heading.level < s.level
    ⟨part.heading.level, part.heading.title, Block.ofLines part.lines, below.takeWhile deeper⟩ ::
      below.dropWhile deeper

def root (outline : Outline) : Section :=
  ⟨0, "", Block.ofLines outline.preamble, nest outline.parts⟩

end Outline

/-- A file that has been read: where it lies and what it holds. -/
structure Document where
  path : String
  root : Section
deriving Repr

namespace Document

def ofLines (path : String) (lines : List String) : Document :=
  ⟨path, (Outline.read false lines).root⟩

def ofText (path text : String) : Document :=
  ofLines path (Text.lines text)

/-- The sections of a document, the root first, with the sections that enclose them. -/
def walk (document : Document) : List Visit :=
  document.root.walk

end Document

end ProseTypes
