import ProseTypes.Document.Block

/-!
# Sections

A section has a heading, blocks of its own and the sections nested in it. Walking a section
visits it and everything nested in it, each with the sections that enclose it, the outermost
first.
-/

namespace ProseTypes

/-- A part of a document under one heading; the whole document has level 0 and no title. -/
structure Section where
  level : Nat
  title : String
  blocks : List Block
  sections : List Section
deriving Repr

/-- A section together with the sections that enclose it, the outermost first. -/
structure Visit where
  ancestors : List Section
  here : Section
deriving Repr

namespace Section

mutual

/-- Visits a section below `ancestors` and all that is nested in it, in document order. -/
def walkBelow (ancestors : List Section) : Section → List Visit
  | ⟨level, title, blocks, sections⟩ =>
    ⟨ancestors, ⟨level, title, blocks, sections⟩⟩ ::
      walkAllBelow (ancestors ++ [⟨level, title, blocks, sections⟩]) sections

def walkAllBelow (ancestors : List Section) : List Section → List Visit
  | [] => []
  | child :: rest => walkBelow ancestors child ++ walkAllBelow ancestors rest

end

def walk (top : Section) : List Visit :=
  walkBelow [] top

def tables (part : Section) : List Table :=
  part.blocks.filterMap fun
    | .table table => some table
    | _ => none

/-- The contents of the text blocks among a section's own blocks. -/
def paragraphs (part : Section) : List String :=
  part.blocks.filterMap fun
    | .text content => some content
    | _ => none

end Section

end ProseTypes
