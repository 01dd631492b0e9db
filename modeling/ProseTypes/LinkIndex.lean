import ProseTypes.Anchor
import ProseTypes.Document.Basic
import ProseTypes.Note

/-!
# The link index

All sections of a corpus, found by anchor. Where several sections have the same anchor, the first
one in the order of the documents and of the walk through each is the one that links lead to.
-/

namespace ProseTypes

/-- The documents that are read together, and the heading level above which a section's slug
goes into the anchors deep below it. -/
structure Corpus where
  documents : List Document
  nesting : Nat

/-- A section that links can lead to: where it lies and under which normalized anchor. -/
structure Target where
  path : String
  visit : Visit
  anchor : String

namespace Target

def here (target : Target) : Section :=
  target.visit.here

/-- The target for a section of the document at `path`. -/
def ofVisit (nesting : Nat) (path : String) (visit : Visit) : Target :=
  ⟨path, visit, Anchor.normalize (Anchor.ofVisit nesting path visit)⟩

end Target

def Corpus.targets (corpus : Corpus) : List Target :=
  corpus.documents.flatMap fun document =>
    document.walk.map (Target.ofVisit corpus.nesting document.path)

/-- Targets with different anchors, in the order in which they were found. -/
structure LinkIndex where
  entries : List Target

namespace LinkIndex

/-- The targets whose anchor is none of `seen` and does not occur before them, and the others. -/
def sift (seen : List String) : List Target → List Target × List Target
  | [] => ([], [])
  | target :: rest =>
    if seen.contains target.anchor then
      let (first, repeated) := sift seen rest
      (first, target :: repeated)
    else
      let (first, repeated) := sift (target.anchor :: seen) rest
      (target :: first, repeated)

def ofCorpus (corpus : Corpus) : LinkIndex :=
  ⟨(sift [] corpus.targets).1⟩

/-- The sections whose anchor belongs to an earlier one. -/
def duplicates (corpus : Corpus) : List Note :=
  (sift [] corpus.targets).2.map fun target => .duplicateAnchor target.anchor target.path

def size (index : LinkIndex) : Nat :=
  index.entries.length

def notes (corpus : Corpus) : List Note :=
  duplicates corpus ++ [.indexed (ofCorpus corpus).size corpus.documents.length]

def find? (index : LinkIndex) (target : String) : Option Target :=
  let anchor := Anchor.normalize target
  index.entries.find? fun entry => entry.anchor == anchor

def anchors (index : LinkIndex) : List String :=
  (index.entries.map Target.anchor).mergeSort fun a b => decide (a ≤ b)

end LinkIndex

end ProseTypes
