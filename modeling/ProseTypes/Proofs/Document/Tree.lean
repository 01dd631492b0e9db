import ProseTypes.Proofs.Document.Descent

/-!
# Nodes of a document

What is read from lines is one tree of nodes.  A node lies in another one if it is reached by going from
a node to a child of it any number of times (`Node.Within`).  The nodes in the tree of a document are
the sections that its walk visits and the blocks of these (`Node.within_ofSection`), so what is said of
visits can be said of nodes, whose children stand in the order in which they were read.
-/

namespace ProseTypes

namespace Node

def children : Node → List Node
  | block _ => []
  | part _ _ children => children

def level? : Node → Option Nat
  | block _ => none
  | part level _ _ => some level

inductive Within (node : Node) : Node → Prop where
  | here : Within node node
  | inside {top child : Node} : child ∈ top.children → Within node child → Within node top

theorem ofSections_eq_map (sections : List Section) : ofSections sections = sections.map ofSection := by
  induction sections with
  | nil => rfl
  | cons s rest ih => rw [ofSections, ih, List.map_cons]

theorem ofSection_eq (s : Section) :
    ofSection s = .part s.level s.title (s.blocks.map .block ++ s.sections.map ofSection) := by
  obtain ⟨level, title, blocks, sections⟩ := s
  rw [ofSection, ofSections_eq_map]

/-- **The blocks of a section come before the sections in it.** -/
theorem children_ofSection (s : Section) :
    (ofSection s).children = s.blocks.map .block ++ s.sections.map ofSection := by
  rw [ofSection_eq, children]

theorem eq_of_within_block {node : Node} {block : Block} (h : Within node (.block block)) :
    node = .block block := by
  cases h with
  | here => rfl
  | inside hChild _ => cases hChild

/-- **What lies in a section is a section that the walk through it visits, or a block of one.** -/
theorem within_ofSection {node : Node} {s : Section} (h : Within node (ofSection s)) :
    ∃ v ∈ s.walk, node = ofSection v.here ∨ ∃ block ∈ v.here.blocks, node = .block block := by
  generalize hTop : ofSection s = top at h
  induction h generalizing s with
  | here => exact ⟨⟨[], s⟩, by simp [Section.walk_eq], Or.inl hTop.symm⟩
  | @inside top child hChild hWithin ih =>
    rw [← hTop, children_ofSection, List.mem_append, List.mem_map, List.mem_map] at hChild
    rcases hChild with ⟨block, hBlock, rfl⟩ | ⟨inner, hInner, rfl⟩
    · exact ⟨⟨[], s⟩, by simp [Section.walk_eq], Or.inr ⟨block, hBlock, eq_of_within_block hWithin⟩⟩
    · obtain ⟨v, hv, hNode⟩ := ih rfl
      refine ⟨v.below [s], ?_, hNode⟩
      rw [Section.walk_eq]
      exact List.mem_cons_of_mem _ (List.mem_map_of_mem (Section.mem_walkAllBelow hInner hv))

theorem exists_visit_of_within {level : Nat} {title : String} {children : List Node} {s : Section}
    (h : Within (.part level title children) (ofSection s)) :
    ∃ v ∈ s.walk, v.here.level = level ∧ v.here.title = title ∧
      children = (ofSection v.here).children := by
  obtain ⟨v, hv, hNode | ⟨block, -, hNode⟩⟩ := within_ofSection h
  · rw [ofSection_eq, part.injEq] at hNode
    obtain ⟨hLevel, hTitle, hChildren⟩ := hNode
    exact ⟨v, hv, hLevel.symm, hTitle.symm, by rw [hChildren, children_ofSection]⟩
  · cases hNode

end Node

/-- What a file holds: blocks and sections, in order. -/
def Document.children (document : Document) : List Node :=
  (Node.ofSection document.root).children

/-- **What is read by descent are the children of the document.** -/
theorem Document.descent_eq (path : String) (lines : List String) :
    Descent.root lines = .part 0 "" (ofLines path lines).children := by
  rw [Descent.root_eq, Node.ofSection_eq, children, Node.children_ofSection]
  rfl

end ProseTypes
