import Mathlib.Data.Nat.PSub
import ProseTypes.Proofs.Compilation.Requests
import ProseTypes.Proofs.Document.Tree

/-!
# Levels of nested sections

A section takes the sections after it that lie deeper.  So the sections in it lie deeper than it does, and
no one of them deeper than the one before, which would else have taken it.

* `Outline.falling_nest`: the levels of nested parts never increase.
* `Document.descends`: this holds of the sections in every section of a document (`Section.Descends`).
* `Document.level_lt_of_mem_ancestors`: the sections around a section have smaller levels.

The anchor of a section depends on how much deeper it lies than one of the sections around it.  For what
was read from lines, this difference is never zero and never negative (`Corpus.levels_ofSources`).
-/

namespace ProseTypes

/-! ### Levels in a tree -/

/-- The sections in a section lie deeper than it, and their levels never increase. -/
structure Section.Descends (s : Section) : Prop where
  deeper : ∀ child ∈ s.sections, s.level < child.level
  falling : s.sections.Pairwise fun a b => b.level ≤ a.level

namespace Outline

/-- **The levels of nested parts never increase**: what lies deeper than the section before it is in it. -/
theorem falling_nest (parts : List Part) :
    (nest parts).Pairwise fun a b => b.level ≤ a.level := by
  induction parts with
  | nil => exact List.Pairwise.nil
  | cons part rest ih =>
    let isDeep (s : Section) : Bool := part.heading.level < s.level
    have hAfter : ((nest rest).dropWhile isDeep).Pairwise fun a b => b.level ≤ a.level :=
      ih.sublist (List.dropWhile_sublist isDeep)
    rw [nest, List.pairwise_cons]
    refine ⟨?_, hAfter⟩
    show ∀ s ∈ (nest rest).dropWhile isDeep, s.level ≤ part.heading.level
    have hFirst := List.head?_dropWhile_not isDeep (nest rest)
    cases hRest : (nest rest).dropWhile isDeep with
    | nil => simp
    | cons first others =>
      rw [hRest] at hAfter hFirst
      have hShallow : first.level ≤ part.heading.level := by
        simpa [isDeep] using hFirst
      intro s hs
      rcases List.mem_cons.mp hs with rfl | hs
      · exact hShallow
      · have := List.rel_of_pairwise_cons hAfter hs
        omega

/-- **Levels descend in nested parts**, at any depth. -/
theorem descends_of_mem_walk {parts : List Part} :
    ∀ s ∈ nest parts, ∀ v ∈ s.walk, v.here.Descends := by
  induction parts with
  | nil =>
    intro s hs
    simp [nest] at hs
  | cons part rest ih =>
    intro s hs v hv
    rw [nest, List.mem_cons] at hs
    rcases hs with rfl | hs
    · rw [Section.walk_eq, List.mem_cons, List.mem_map] at hv
      rcases hv with rfl | ⟨u, hu, rfl⟩
      · constructor
        · intro child hChild
          simpa using List.mem_takeWhile_imp hChild
        · exact (falling_nest rest).sublist (List.takeWhile_sublist _)
      · obtain ⟨t, ht, hut⟩ := Section.exists_of_mem_walkAllBelow hu
        exact ih t ((List.takeWhile_sublist _).subset ht) u hut
    · exact ih s ((List.dropWhile_sublist _).subset hs) v hv

end Outline

namespace Document

variable {path : String} {lines : List String} {v : Visit}

theorem level_of_ancestors_ne_nil (hv : v ∈ (ofLines path lines).walk) (h : v.ancestors ≠ []) :
    1 ≤ v.here.level ∧ v.here.level ≤ 6 := by
  have hHeading : v.heading ∈ (ofLines path lines).walk.map Visit.heading := List.mem_map_of_mem hv
  rw [(walk_ofLines path lines).1, List.mem_cons] at hHeading
  rcases hHeading with hRoot | hHeading
  · rcases root_or_deeper hv with ⟨-, -, hTop⟩ | ⟨hLevel, -⟩
    · exact absurd hTop h
    · exact absurd (congrArg Heading.level hRoot) hLevel
  · exact Outline.level_of_mem_headings hHeading

theorem level_of_mem_sections (hv : v ∈ (ofLines path lines).walk) {child : Section}
    (hChild : child ∈ v.here.sections) : 1 ≤ child.level ∧ child.level ≤ 6 :=
  level_of_ancestors_ne_nil (Section.mem_walk_of_mem_sections hv hChild) (by simp)

/-- **Levels descend in every section of a document.** -/
theorem descends (hv : v ∈ (ofLines path lines).walk) : v.here.Descends := by
  have hRoot := hv
  rw [walk, Section.walk_eq, List.mem_cons, List.mem_map] at hRoot
  rcases hRoot with rfl | ⟨u, hu, rfl⟩
  · constructor
    · intro child hChild
      have hLevel := level_of_mem_sections hv hChild
      show 0 < child.level
      omega
    · exact Outline.falling_nest _
  · obtain ⟨t, ht, hut⟩ := Section.exists_of_mem_walkAllBelow hu
    exact Outline.descends_of_mem_walk t ht u hut

/-- **The sections around a section have smaller levels.**  The parent has one, and those around the parent
have smaller ones still. -/
theorem level_lt_of_mem_ancestors (hv : v ∈ (ofLines path lines).walk) {a : Section}
    (ha : a ∈ v.ancestors) : a.level < v.here.level := by
  obtain ⟨hHeadings, hParents⟩ := walk_ofLines path lines
  obtain ⟨i, hi⟩ := List.mem_iff_getElem?.mp hv
  induction i using Nat.strongRecOn generalizing v with
  | ind i ih =>
    rcases hParents i v hi with ⟨-, hTop⟩ | ⟨p, u, hParent, hu, hAncestors⟩
    · rw [hTop] at ha
      cases ha
    · have hHigher : u.here.level < v.here.level := by
        obtain ⟨x, y, hx, hy, hLevel⟩ := hParent.higher
        rw [← hHeadings, List.getElem?_map, hu, Option.map_some, Option.some.injEq] at hx
        rw [← hHeadings, List.getElem?_map, hi, Option.map_some, Option.some.injEq] at hy
        rw [← hx, ← hy] at hLevel
        exact hLevel
      rw [hAncestors, List.mem_append, List.mem_singleton] at ha
      rcases ha with ha | rfl
      · have := ih p hParent.before (List.mem_of_getElem? hu) ha hu
        omega
      · exact hHigher

end Document

/-! ### The tree of nodes -/

/-- The children of a section are its blocks and then the sections in it, which lie deeper than it does, on
one of six levels, and whose levels never increase from one to the next. -/
structure Node.WellShaped (level : Nat) (children : List Node) : Prop where
  blocksFirst : ∃ (blocks : List Block) (parts : List Node),
    children = blocks.map .block ++ parts ∧ ∀ node ∈ parts, node.level?.isSome
  deeper : ∀ inner ∈ children.filterMap level?, 1 ≤ inner ∧ inner ≤ 6 ∧ level < inner
  falling : (children.filterMap level?).IsChain fun a b => b ≤ a

theorem Node.filterMap_level?_children (s : Section) :
    (ofSection s).children.filterMap level? = s.sections.map Section.level := by
  have hBlocks : (s.blocks.map Node.block).filterMap level? = [] := by
    rw [List.filterMap_map]
    exact List.filterMap_eq_nil_iff.mpr fun _ _ => rfl
  have hLevel : level? ∘ ofSection = some ∘ Section.level := by
    funext inner
    simp [ofSection_eq, level?]
  rw [children_ofSection, List.filterMap_append, hBlocks, List.nil_append, List.filterMap_map, hLevel,
    List.filterMap_eq_map]

/-- **Every section in the tree of a document is well shaped.** -/
theorem Document.wellShaped {lines : List String} {level : Nat} {title : String} {children : List Node}
    (h : Node.Within (.part level title children) (Descent.root lines)) :
    Node.WellShaped level children := by
  rw [Descent.root_eq] at h
  obtain ⟨v, hv, rfl, rfl, rfl⟩ := Node.exists_visit_of_within h
  have hVisit : v ∈ (ofLines "" lines).walk := hv
  have hDescends := descends hVisit
  refine ⟨⟨v.here.blocks, v.here.sections.map Node.ofSection, Node.children_ofSection _, ?_⟩, ?_, ?_⟩
  · intro node hNode
    obtain ⟨inner, -, rfl⟩ := List.mem_map.mp hNode
    rw [Node.ofSection_eq]
    rfl
  · rw [Node.filterMap_level?_children]
    intro inner hInner
    obtain ⟨child, hChild, rfl⟩ := List.mem_map.mp hInner
    obtain ⟨hPos, hLe⟩ := level_of_mem_sections hVisit hChild
    exact ⟨hPos, hLe, hDescends.deeper child hChild⟩
  · rw [Node.filterMap_level?_children]
    exact (List.pairwise_map.mpr hDescends.falling).isChain

/-! ### Differences of levels -/

namespace Anchor

/-- The nearest section around another one that lies above the nesting threshold. -/
def enclosing? (nesting : Nat) (visit : Visit) : Option Section :=
  visit.ancestors.reverse.find? fun a => nesting < a.level

/-- The anchor of a section, where a level is taken from a smaller one only if there is a number for the
difference. -/
def ofVisit? (nesting : Nat) (path : String) (visit : Visit) : Option String :=
  let own := slug visit.here.title
  if visit.here.level = 0 then some (ofPath path)
  else
    match enclosing? nesting visit with
    | none => some (ofPath path ++ "/" ++ own)
    | some a => (Nat.psub visit.here.level a.level).map fun difference =>
      ofPath path ++ "/" ++ if 1 < difference then slug a.title ++ "-" ++ own else own

/-- If the sections around a section have smaller levels, its anchor has no missing difference. -/
theorem ofVisit?_eq_some {nesting : Nat} {visit : Visit}
    (h : ∀ a ∈ visit.ancestors, a.level < visit.here.level) (path : String) :
    ofVisit? nesting path visit = some (ofVisit nesting path visit) := by
  by_cases hRoot : visit.here.level = 0
  · simp only [ofVisit?, ofVisit, if_pos hRoot]
  · cases hEnclosing : visit.ancestors.reverse.find? fun a => nesting < a.level with
    | none => simp [ofVisit?, ofVisit, localPart, enclosing?, hRoot, hEnclosing]
    | some a =>
      have hMem : a ∈ visit.ancestors := List.mem_reverse.mp (List.mem_of_find?_eq_some hEnclosing)
      have hLt := h a hMem
      have hFar : 1 < visit.here.level - a.level ↔ a.level + 1 < visit.here.level := by omega
      simp [ofVisit?, ofVisit, localPart, enclosing?, hRoot, hEnclosing,
        Nat.psub_eq_sub (Nat.le_of_lt hLt), hFar]

end Anchor

/-- **Sections are well shaped, and no difference of levels is missing.**  In the tree that is read from
lines, which is that of the document, the blocks of a section come before the sections in it, and these
lie deeper than the section, on levels from one to six that never increase.  For every section that is
indexed or compiled, the enclosing section that its anchor depends on has a smaller level.  So there is a
difference, it is one at least, and the anchor is the one that is made with it. -/
theorem Corpus.levels_ofSources :
    (∀ path lines, Descent.root lines = Node.ofSection (Document.ofLines path lines).root ∧
      ∀ level title children, Node.Within (.part level title children) (Descent.root lines) →
        Node.WellShaped level children) ∧
    ∀ sources nesting, ∀ target ∈ (ofSources sources nesting).targets ++ (ofSources sources nesting).subjects,
      (∀ a, target.here.level ≠ 0 → Anchor.enclosing? nesting target.visit = some a →
        ∃ difference, Nat.psub target.here.level a.level = some difference ∧ 1 ≤ difference) ∧
      Anchor.ofVisit? nesting target.path target.visit =
        some (Anchor.ofVisit nesting target.path target.visit) := by
  refine ⟨fun path lines => ⟨Descent.root_eq lines, fun level title children => Document.wellShaped⟩,
    fun sources nesting target hTarget => ?_⟩
  have hMem : target ∈ (ofSources sources nesting).targets := by
    rcases List.mem_append.mp hTarget with hMem | hMem
    · exact hMem
    · exact List.mem_of_mem_filter hMem
  obtain ⟨source, -, visit, hVisit, rfl⟩ := exists_source_of_mem_targets hMem
  have hLower (a : Section) (ha : a ∈ visit.ancestors) : a.level < visit.here.level :=
    Document.level_lt_of_mem_ancestors hVisit ha
  refine ⟨fun a _ hEnclosing => ?_, Anchor.ofVisit?_eq_some hLower source.path⟩
  have hLt := hLower a (List.mem_reverse.mp (List.mem_of_find?_eq_some hEnclosing))
  refine ⟨visit.here.level - a.level, Nat.psub_eq_sub (Nat.le_of_lt hLt), ?_⟩
  omega

/-- A skipped level, and a heading in code. -/
def Corpus.skips : List Source :=
  [⟨"a.md", ["## Guild", "text", "#### Roles", "```", "# code", "```", "# Next"]⟩]

theorem Corpus.levels_ofSources_skips :
    Node.WellShaped 0 (Document.ofLines "a.md" (skips.flatMap Source.lines)).children ∧
    ∃ target ∈ (ofSources skips 1).targets, target.here.level = 4 ∧
      ∃ a, Anchor.enclosing? 1 target.visit = some a ∧ a.level = 2 ∧
        ∃ difference, Nat.psub target.here.level a.level = some difference ∧ 1 ≤ difference := by
  obtain ⟨hTree, hTargets⟩ := levels_ofSources
  refine ⟨?_, ?_⟩
  · apply (hTree "a.md" (skips.flatMap Source.lines)).2 0 ""
    rw [Document.descent_eq "a.md"]
    exact .here
  · have hFacts : (ofSources skips 1).targets[2]?.map (fun target =>
        (target.here.level, (Anchor.enclosing? 1 target.visit).map Section.level)) = some (4, some 2) := by
      decide +kernel
    obtain ⟨target, hTarget, hFacts⟩ := Option.map_eq_some_iff.mp hFacts
    rw [Prod.mk.injEq] at hFacts
    obtain ⟨hLevel, hEnclosing⟩ := hFacts
    obtain ⟨a, hEnclosing, hAbove⟩ := Option.map_eq_some_iff.mp hEnclosing
    have hMem := List.mem_of_getElem? hTarget
    obtain ⟨hDifference, -⟩ := hTargets skips 1 target (List.mem_append_left _ hMem)
    exact ⟨target, hMem, hLevel, a, hEnclosing, hAbove, hDifference a (by omega) hEnclosing⟩

end ProseTypes
