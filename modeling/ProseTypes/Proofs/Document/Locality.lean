import Mathlib.Algebra.Group.Nat.Even
import ProseTypes.Proofs.Document.Tree

/-!
# Sections of the first level are read on their own

A heading of the first level outside code closes everything before it: the lines of the part that it
comes after, the chunk that is open in them, and all sections around, whatever their levels are.

* `Outline.leavesClosed_of_even`: lines with an even number of fences leave no code open.
* `Outline.read_append`: such lines are read as the same parts, whatever heading comes after them.
* `Outline.nest_append`: parts are nested apart if the first of the later ones lies no deeper than any
  of the earlier ones.

So the children of a document are those of the lines before such a heading and those of the lines from
it on (`Document.children_append`).
-/

namespace ProseTypes

namespace Outline

def StartsAtTop (lines : List String) : Prop :=
  (lines.head?.bind Line.heading?).map Heading.level = some 1

instance (lines : List String) : Decidable (StartsAtTop lines) :=
  inferInstanceAs (Decidable (_ = _))

theorem StartsAtTop.exists_eq {lines : List String} (h : StartsAtTop lines) :
    ∃ line rest heading, lines = line :: rest ∧ Line.heading? line = some heading ∧
      heading.level = 1 := by
  cases lines with
  | nil => cases h
  | cons line rest =>
    obtain ⟨heading, hHeading, hLevel⟩ := Option.map_eq_some_iff.mp h
    exact ⟨line, rest, heading, rfl, hHeading, hLevel⟩

/-! ### Reading -/

/-- Lines leave no code open, given whether they start inside code. -/
inductive LeavesClosed : Bool → List String → Prop where
  | nil : LeavesClosed false []
  | line {inCode line rest} : inCode = true ∨ Line.heading? line = none →
      LeavesClosed (inCode != Line.isFence line) rest → LeavesClosed inCode (line :: rest)
  | heading {line rest heading} : Line.heading? line = some heading →
      LeavesClosed false rest → LeavesClosed false (line :: rest)

theorem even_countP_cons (inCode : Bool) (line : String) (rest : List String) :
    Even ((line :: rest).countP Line.isFence + inCode.toNat) ↔
      Even (rest.countP Line.isFence + (inCode != Line.isFence line).toNat) := by
  rw [List.countP_cons, Nat.even_iff, Nat.even_iff]
  cases inCode <;> cases Line.isFence line <;> simp
  omega

/-- **Lines with an even number of fences leave no code open.** -/
theorem leavesClosed_of_even {inCode : Bool} {lines : List String}
    (h : Even (lines.countP Line.isFence + inCode.toNat)) : LeavesClosed inCode lines := by
  induction lines generalizing inCode with
  | nil =>
    cases inCode with
    | false => exact .nil
    | true => simp at h
  | cons line rest ih =>
    rw [even_countP_cons] at h
    rcases plain_or_heading inCode line with hOpen | ⟨rfl, heading, hHeading⟩
    · exact .line hOpen (ih h)
    · rw [Line.isFence_of_heading? hHeading] at h
      exact .heading hHeading (ih h)

/-- **Lines that leave no code open end before a heading** as they end before nothing. -/
theorem read_append {inCode : Bool} {first : List String} (hClosed : LeavesClosed inCode first)
    {line : String} {heading : Heading} (hHeading : Line.heading? line = some heading)
    (rest : List String) : read inCode (first ++ line :: rest) =
      ⟨(read inCode first).preamble, (read inCode first).parts ++ (read false (line :: rest)).parts⟩ := by
  induction hClosed with
  | nil =>
    rw [List.nil_append, read_heading hHeading]
    rfl
  | line hOpen _ ih => rw [List.cons_append, read_line hOpen, read_line hOpen, ih]
  | heading hOpened _ ih =>
    rw [List.cons_append, read_heading hOpened, read_heading hOpened, ih]
    rfl

/-! ### Nesting -/

theorem takeWhile_append_of_head? {α : Type} {p : α → Bool} {first second : List α}
    (h : ∀ a ∈ second.head?, p a = false) : (first ++ second).takeWhile p = first.takeWhile p := by
  have hNone : second.takeWhile p = [] := by
    cases second with
    | nil => rfl
    | cons a rest => rw [List.takeWhile_cons_of_neg (by simp [h a rfl])]
  rw [List.takeWhile_append]
  split
  · rename_i hAll
    rw [hNone, List.append_nil, (List.takeWhile_sublist p).eq_of_length hAll]
  · rfl

theorem dropWhile_append_of_head? {α : Type} {p : α → Bool} {first second : List α}
    (h : ∀ a ∈ second.head?, p a = false) :
    (first ++ second).dropWhile p = first.dropWhile p ++ second := by
  have hAll := List.takeWhile_append_dropWhile (p := p) (l := first ++ second)
  rw [takeWhile_append_of_head? h] at hAll
  have hFirst := List.takeWhile_append_dropWhile (p := p) (l := first)
  conv_rhs at hAll => rw [← hFirst, List.append_assoc]
  exact List.append_cancel_left hAll

theorem level_head?_nest (parts : List Part) :
    (nest parts).head?.map Section.level = parts.head?.map fun part => part.heading.level := by
  cases parts with
  | nil => rfl
  | cons part rest => rfl

/-- **Parts are nested apart from parts that start no deeper.** -/
theorem nest_append {first second : List Part}
    (h : ∀ part ∈ first, ∀ top ∈ second.head?, top.heading.level ≤ part.heading.level) :
    nest (first ++ second) = nest first ++ nest second := by
  induction first with
  | nil => rfl
  | cons part rest ih =>
    have hHead : ∀ s ∈ (nest second).head?, decide (part.heading.level < s.level) = false := by
      intro s hs
      have hLevel := level_head?_nest second
      rw [hs, Option.map_some] at hLevel
      obtain ⟨top, hTop, hSame⟩ := Option.map_eq_some_iff.mp hLevel.symm
      have := h part List.mem_cons_self top hTop
      simp only [decide_eq_false_iff_not]
      omega
    rw [List.cons_append, nest, ih fun p hp => h p (List.mem_cons_of_mem part hp), nest,
      takeWhile_append_of_head? hHead, dropWhile_append_of_head? hHead, List.cons_append]

theorem level_le_of_mem_parts {lines : List String} {part : Part} (h : part ∈ (read false lines).parts) :
    1 ≤ part.heading.level := by
  have hHeading : part.heading ∈ headings lines := by
    rw [← parts_read]
    exact List.mem_map_of_mem h
  exact (level_of_mem_headings hHeading).1

end Outline

/-! ### Documents -/

namespace Document

/-- **The outline of a document in two parts**, the second from a heading of the first level on. -/
theorem root_append (path : String) {before after : List String}
    (hFences : Even (before.countP Line.isFence)) (hTop : Outline.StartsAtTop after) :
    (ofLines path (before ++ after)).root.blocks = (ofLines path before).root.blocks ∧
    (ofLines path (before ++ after)).root.sections =
      (ofLines path before).root.sections ++ (ofLines path after).root.sections ∧
    (ofLines path after).root.blocks = [] := by
  obtain ⟨line, rest, heading, rfl, hHeading, hLevel⟩ := hTop.exists_eq
  have hClosed : Outline.LeavesClosed false before :=
    Outline.leavesClosed_of_even (by simpa using hFences)
  have hRead := Outline.read_append hClosed hHeading rest
  have hNest : Outline.nest ((Outline.read false before).parts ++
      (Outline.read false (line :: rest)).parts) =
      Outline.nest (Outline.read false before).parts ++
        Outline.nest (Outline.read false (line :: rest)).parts := by
    apply Outline.nest_append
    intro part hPart top hFirst
    rw [Outline.read_heading hHeading, List.head?_cons] at hFirst
    obtain rfl := Option.some.inj hFirst
    rw [hLevel]
    exact Outline.level_le_of_mem_parts hPart
  refine ⟨?_, ?_, ?_⟩
  · rw [ofLines, hRead]
    rfl
  · rw [ofLines, hRead, Outline.root, hNest]
    rfl
  · rw [ofLines, Outline.read_heading hHeading, Outline.root, Block.ofLines, Chunk.ofLines]
    rfl

theorem children_append_of_startsAtTop (path : String) {before after : List String}
    (hFences : Even (before.countP Line.isFence)) (hTop : Outline.StartsAtTop after) :
    (ofLines path (before ++ after)).children =
      (ofLines path before).children ++ (ofLines path after).children := by
  obtain ⟨hBlocks, hSections, hNone⟩ := root_append path hFences hTop
  simp only [children, Node.children_ofSection, hBlocks, hSections, hNone]
  simp

/-- **A document is read apart at a heading of the first level** that no open code stands before: its
children are those of the lines before the heading and those of the lines from it on, whatever block or
section is open there.  What is read by descent are these children.  So a section of the first level with
its code closed changes nothing before it or after it. -/
theorem children_append (path : String) {before after : List String}
    (hFences : Even (before.countP Line.isFence)) (hTop : Outline.StartsAtTop after) :
    (ofLines path (before ++ after)).children =
      (ofLines path before).children ++ (ofLines path after).children ∧
    Descent.root (before ++ after) =
      .part 0 "" ((ofLines path before).children ++ (ofLines path after).children) ∧
    ∀ own, Even (own.countP Line.isFence) → Outline.StartsAtTop own →
      (ofLines path (before ++ own ++ after)).children = (ofLines path before).children ++
        (ofLines path own).children ++ (ofLines path after).children := by
  have hBoth := children_append_of_startsAtTop path hFences hTop
  refine ⟨hBoth, by rw [descent_eq path, hBoth], fun own hOwn hOwnTop => ?_⟩
  have hTogether : Even ((before ++ own).countP Line.isFence) := by
    rw [List.countP_append]
    exact hFences.add hOwn
  rw [children_append_of_startsAtTop path hTogether hTop,
    children_append_of_startsAtTop path hFences hOwnTop]

/-- Lines with closed code and an open quote in a section of the second level. -/
def guide : List String :=
  ["intro", "```", "# code", "```", "## Sub", "> open"]

theorem children_append_guide : Even (guide.countP Line.isFence) ∧
    Outline.StartsAtTop ["# Next", "text"] ∧
    (ofLines "a.md" (guide ++ ["# Next", "text"])).children =
      (ofLines "a.md" guide).children ++ (ofLines "a.md" ["# Next", "text"]).children ∧
    (ofLines "a.md" (guide ++ ["# Next", "text"])).children.map Node.level? =
      [none, none, some 2, some 1] := by
  have hFences : Even (guide.countP Line.isFence) := by
    decide +kernel
  have hTop : Outline.StartsAtTop ["# Next", "text"] := by
    decide +kernel
  obtain ⟨hChildren, -⟩ := children_append "a.md" hFences hTop
  exact ⟨hFences, hTop, hChildren, by decide +kernel⟩

end Document

end ProseTypes
