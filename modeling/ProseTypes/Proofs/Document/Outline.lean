import ProseTypes.Document.Basic
import ProseTypes.Proofs.Document.Line

/-!
# The sections of a document are its outline

A heading counts if it lies outside code, that is if an even number of fences stand before it
(`Outline.headingAt?`).  `Outline.headings` lists these headings in line order.  The tree of sections
is this flat list and nothing else:

* `parts_read`: the parts that lines are read as have the headings of the list.
* `walk_nest_cons`: nesting puts below a part the visits after it up to the first that does not lie
  deeper, and leaves the others alone.
* `Document.map_blocks_walk`: the blocks of each section come from the lines that it has of its own.
* `Outline.Linked`: the ancestors of a visit are those of its parent and the parent itself, where the
  parent is the nearest earlier visit of smaller level.

`Document.walk_ofLines` puts them together.  The root has level 0 and comes first, so it is the
parent of every heading that has no other.
-/

namespace ProseTypes

/-! ### Headings outside code -/

namespace Outline

/-- The heading at a line, if the number of fences before the line is even. -/
def headingAt? (lines : List String) (i : Nat) : Option Heading :=
  if (lines.take i).countP Line.isFence % 2 = 0 then lines[i]?.bind Line.heading? else none

/-- The headings outside code, in line order. -/
def headings (lines : List String) : List Heading :=
  (List.range lines.length).filterMap (headingAt? lines)

theorem level_of_mem_headings {lines : List String} {heading : Heading} (h : heading ∈ headings lines) :
    1 ≤ heading.level ∧ heading.level ≤ 6 := by
  obtain ⟨i, -, hi⟩ := List.mem_filterMap.mp h
  rw [headingAt?, Option.ite_none_right_eq_some, Option.bind_eq_some_iff] at hi
  obtain ⟨-, line, -, hLine⟩ := hi
  exact ⟨(Line.level_of_heading? hLine).2, Line.level_le_of_heading? hLine⟩

/-- The lines with the headings that they open, given whether they start inside code. -/
def marked (inCode : Bool) : List String → List (String × Option Heading)
  | [] => []
  | line :: rest =>
    (line, if inCode then none else Line.heading? line) ::
      marked (inCode != Line.isFence line) rest

/-- Lines that open nothing. -/
def unmarked (lines : List String) : List (String × Option Heading) :=
  lines.map fun line => (line, none)

end Outline

namespace Outline

theorem getElem?_marked (inCode : Bool) (lines : List String) (i : Nat) :
    (marked inCode lines)[i]? = lines[i]?.map fun line =>
      (line, if ((lines.take i).countP Line.isFence + inCode.toNat) % 2 = 0 then Line.heading? line
        else none) := by
  induction lines generalizing inCode i with
  | nil => simp [marked]
  | cons line rest ih =>
    cases i with
    | zero => cases inCode <;> simp [marked]
    | succ i =>
      simp only [marked, List.getElem?_cons_succ, ih, List.take_succ_cons, List.countP_cons]
      have hParity : ((rest.take i).countP Line.isFence +
          (inCode != Line.isFence line).toNat) % 2 =
          ((rest.take i).countP Line.isFence + (if Line.isFence line then 1 else 0) +
            inCode.toNat) % 2 := by
        cases inCode <;> cases Line.isFence line <;> simp; omega
      rw [hParity]

theorem getElem?_marked_false (lines : List String) (i : Nat) :
    (marked false lines)[i]? = lines[i]?.map fun line => (line, headingAt? lines i) := by
  rw [getElem?_marked]
  cases hLine : lines[i]? with
  | none => rfl
  | some line => simp [headingAt?, hLine]

theorem length_marked (inCode : Bool) (lines : List String) :
    (marked inCode lines).length = lines.length := by
  induction lines generalizing inCode with
  | nil => rfl
  | cons line rest ih => simp [marked, ih]

theorem marked_false (lines : List String) :
    (marked false lines).map Prod.snd = (List.range lines.length).map (headingAt? lines) := by
  refine List.ext_getElem? fun i => ?_
  rw [List.getElem?_map, getElem?_marked_false, List.getElem?_map]
  by_cases h : i < lines.length
  · simp [h]
  · have hLine : lines[i]? = none := List.getElem?_eq_none (by omega)
    have hRange : (List.range lines.length)[i]? = none := List.getElem?_eq_none (by simp; omega)
    rw [hLine, hRange]
    rfl

/-- **Reading lines cuts them at the headings outside code.**  What a part has as its lines opens
nothing, and the heading of a part is that of the line before them. -/
theorem exists_marked_eq (inCode : Bool) (lines : List String) :
    ∃ cuts : List (String × Part), cuts.map Prod.snd = (read inCode lines).parts ∧
      marked inCode lines = unmarked (read inCode lines).preamble ++
        cuts.flatMap fun cut => (cut.1, some cut.2.heading) :: unmarked cut.2.lines := by
  induction lines generalizing inCode with
  | nil => exact ⟨[], rfl, rfl⟩
  | cons line rest ih =>
    rw [read, marked]
    cases hMark : (if inCode = true then none else Line.heading? line) with
    | some heading =>
      have hOut : inCode = false ∧ Line.heading? line = some heading := by
        cases inCode
        · exact ⟨rfl, hMark⟩
        · cases hMark
      obtain ⟨rfl, hHeading⟩ := hOut
      obtain ⟨cuts, hParts, hMarked⟩ := ih false
      refine ⟨(line, ⟨heading, (read false rest).preamble⟩) :: cuts, ?_, ?_⟩
      · simp [hParts]
      · have hFence : (false != Line.isFence line) = false := by
          simp [Line.isFence_of_heading? hHeading]
        simp [hFence, hMarked, unmarked]
    | none =>
      obtain ⟨cuts, hParts, hMarked⟩ := ih (inCode != Line.isFence line)
      refine ⟨cuts, ?_, ?_⟩
      · simpa using hParts
      · simp [hMarked, unmarked]

/-- **The parts have the headings outside code, in line order.** -/
theorem parts_read (lines : List String) :
    (read false lines).parts.map Part.heading = headings lines := by
  obtain ⟨cuts, hParts, hMarked⟩ := exists_marked_eq false lines
  have hNone (ls : List String) : (unmarked ls).filterMap Prod.snd = [] := by
    rw [unmarked, List.filterMap_map]
    exact List.filterMap_eq_nil_iff.mpr fun _ _ => rfl
  have hHeadings : headings lines = (marked false lines).filterMap Prod.snd := by
    have h := congrArg (List.filterMap id) (marked_false lines)
    rw [List.filterMap_map, List.filterMap_map] at h
    exact h.symm
  rw [hHeadings, hMarked, ← hParts, List.filterMap_append, hNone, List.nil_append, List.map_map,
    List.filterMap_flatMap]
  simp [hNone, List.map_eq_flatMap]

end Outline

/-! ### Walking sections -/

namespace Visit

def heading (v : Visit) : Heading :=
  ⟨v.here.level, v.here.title⟩

def below (outer : List Section) (v : Visit) : Visit :=
  ⟨outer ++ v.ancestors, v.here⟩

end Visit

namespace Section

mutual

theorem walkBelow_eq (outer : List Section) :
    ∀ s, walkBelow outer s = (walkBelow [] s).map (Visit.below outer)
  | ⟨level, title, blocks, sections⟩ => by
    rw [walkBelow, walkBelow, walkAllBelow_eq (outer ++ _) sections,
      walkAllBelow_eq ([] ++ _) sections]
    simp [Visit.below, Function.comp_def]

theorem walkAllBelow_eq (outer : List Section) :
    ∀ ss, walkAllBelow outer ss = (walkAllBelow [] ss).map (Visit.below outer)
  | [] => by rw [walkAllBelow, walkAllBelow, List.map_nil]
  | s :: ss => by
    rw [walkAllBelow, walkAllBelow, walkBelow_eq outer s, walkAllBelow_eq outer ss,
      List.map_append]

end

theorem walkAllBelow_append (outer : List Section) (first second : List Section) :
    walkAllBelow outer (first ++ second) =
      walkAllBelow outer first ++ walkAllBelow outer second := by
  induction first with
  | nil => simp [walkAllBelow]
  | cons s rest ih => simp [walkAllBelow, ih]

/-- **A walk visits a section, then what is nested in it.** -/
theorem walk_eq (s : Section) :
    s.walk = ⟨[], s⟩ :: (walkAllBelow [] s.sections).map (Visit.below [s]) := by
  obtain ⟨level, title, blocks, sections⟩ := s
  rw [walk, walkBelow, List.nil_append, walkAllBelow_eq]

theorem walkAllBelow_cons (s : Section) (rest : List Section) :
    walkAllBelow [] (s :: rest) = s.walk ++ walkAllBelow [] rest := by
  rw [walkAllBelow, walk]

theorem exists_of_mem_walkAllBelow {v : Visit} {sections : List Section}
    (h : v ∈ walkAllBelow [] sections) : ∃ s ∈ sections, v ∈ s.walk := by
  induction sections with
  | nil => simp [walkAllBelow] at h
  | cons s rest ih =>
    rw [walkAllBelow_cons, List.mem_append] at h
    rcases h with h | h
    · exact ⟨s, List.mem_cons_self, h⟩
    · obtain ⟨t, ht, hv⟩ := ih h
      exact ⟨t, List.mem_cons_of_mem s ht, hv⟩

theorem mem_walkAllBelow {v : Visit} {s : Section} {sections : List Section} (hs : s ∈ sections)
    (hv : v ∈ s.walk) : v ∈ walkAllBelow [] sections := by
  induction sections with
  | nil => cases hs
  | cons first rest ih =>
    rw [walkAllBelow_cons, List.mem_append]
    rcases List.mem_cons.mp hs with rfl | hs
    · exact Or.inl hv
    · exact Or.inr (ih hs)

theorem mem_walkAllBelow_of_mem (outer : List Section) {s : Section} {sections : List Section}
    (h : s ∈ sections) : ⟨outer, s⟩ ∈ walkAllBelow outer sections := by
  induction sections with
  | nil => cases h
  | cons first rest ih =>
    rw [walkAllBelow, List.mem_append]
    rcases List.mem_cons.mp h with hFirst | h
    · left
      rw [← hFirst]
      cases s
      rw [walkBelow]
      exact List.mem_cons_self
    · exact Or.inr (ih h)

mutual

theorem mem_walkBelow_of_mem_sections (outer : List Section) :
    ∀ s, ∀ v ∈ walkBelow outer s, ∀ child ∈ v.here.sections,
      ⟨v.ancestors ++ [v.here], child⟩ ∈ walkBelow outer s
  | ⟨level, title, blocks, sections⟩ => by
    intro v hv child hChild
    rw [walkBelow, List.mem_cons] at hv ⊢
    right
    rcases hv with rfl | hv
    · exact mem_walkAllBelow_of_mem _ hChild
    · exact mem_walkAllBelow_of_mem_sections _ sections v hv child hChild

theorem mem_walkAllBelow_of_mem_sections (outer : List Section) :
    ∀ ss, ∀ v ∈ walkAllBelow outer ss, ∀ child ∈ v.here.sections,
      ⟨v.ancestors ++ [v.here], child⟩ ∈ walkAllBelow outer ss
  | [] => by simp [walkAllBelow]
  | s :: ss => by
    intro v hv child hChild
    rw [walkAllBelow, List.mem_append] at hv ⊢
    exact hv.imp (fun hv => mem_walkBelow_of_mem_sections outer s v hv child hChild)
      fun hv => mem_walkAllBelow_of_mem_sections outer ss v hv child hChild

end

/-- **A walk visits every section directly in one that it visits.** -/
theorem mem_walk_of_mem_sections {s child : Section} {v : Visit} (hv : v ∈ s.walk)
    (hChild : child ∈ v.here.sections) : ⟨v.ancestors ++ [v.here], child⟩ ∈ s.walk :=
  mem_walkBelow_of_mem_sections [] s v hv child hChild

end Section

namespace Outline

/-! ### Nesting by level -/

theorem level_le_of_mem_walk {parts : List Part} :
    ∀ s ∈ nest parts, ∀ v ∈ s.walk, s.level ≤ v.here.level := by
  induction parts with
  | nil => intro s hs; simp [nest] at hs
  | cons part rest ih =>
    intro s hs v hv
    rw [nest, List.mem_cons] at hs
    rcases hs with rfl | hs
    · rw [Section.walk_eq, List.mem_cons, List.mem_map] at hv
      rcases hv with rfl | ⟨u, hu, rfl⟩
      · exact Nat.le_refl _
      · obtain ⟨t, ht, hut⟩ := Section.exists_of_mem_walkAllBelow hu
        have hDeep : part.heading.level < t.level := by
          simpa using List.mem_takeWhile_imp ht
        have hBelow := ih t ((List.takeWhile_sublist _).subset ht) u hut
        show part.heading.level ≤ u.here.level
        omega
    · exact ih s ((List.dropWhile_sublist _).subset hs) v hv

def deeper (level : Nat) (v : Visit) : Bool :=
  level < v.here.level

/-- **A part takes the visits after it, up to the first that does not lie deeper.** -/
theorem walk_nest_cons (part : Part) (rest : List Part) :
    ∃ s : Section, s.level = part.heading.level ∧ s.title = part.heading.title ∧
      s.blocks = Block.ofLines part.lines ∧
      Section.walkAllBelow [] (nest (part :: rest)) = ⟨[], s⟩ ::
        ((Section.walkAllBelow [] (nest rest)).takeWhile (deeper part.heading.level)).map
          (Visit.below [s]) ++
        (Section.walkAllBelow [] (nest rest)).dropWhile (deeper part.heading.level) := by
  let isDeep (s : Section) : Bool := part.heading.level < s.level
  let inside := (nest rest).takeWhile isDeep
  let after := (nest rest).dropWhile isDeep
  have hInside : ∀ v ∈ Section.walkAllBelow [] inside, deeper part.heading.level v = true := by
    intro v hv
    obtain ⟨t, ht, hvt⟩ := Section.exists_of_mem_walkAllBelow hv
    have hDeep : part.heading.level < t.level := by
      simpa [isDeep] using List.mem_takeWhile_imp ht
    have := level_le_of_mem_walk t ((List.takeWhile_sublist _).subset ht) v hvt
    simp only [deeper, decide_eq_true_eq]
    omega
  have hAfter : (Section.walkAllBelow [] after).takeWhile (deeper part.heading.level) = [] ∧
      (Section.walkAllBelow [] after).dropWhile (deeper part.heading.level) =
        Section.walkAllBelow [] after := by
    cases hRest : after with
    | nil => simp [Section.walkAllBelow]
    | cons t ts =>
      have hShallow : isDeep t = false := by
        have h := List.head?_dropWhile_not isDeep (nest rest)
        rwa [show (nest rest).dropWhile isDeep = t :: ts from hRest] at h
      have hFirst : ¬deeper part.heading.level ⟨[], t⟩ = true := by
        simpa [deeper, isDeep] using hShallow
      rw [Section.walkAllBelow_cons, Section.walk_eq, List.cons_append,
        List.takeWhile_cons_of_neg hFirst, List.dropWhile_cons_of_neg hFirst]
      exact ⟨rfl, rfl⟩
  have hSplit : Section.walkAllBelow [] (nest rest) =
      Section.walkAllBelow [] inside ++ Section.walkAllBelow [] after := by
    rw [← Section.walkAllBelow_append, List.takeWhile_append_dropWhile]
  refine ⟨⟨part.heading.level, part.heading.title, Block.ofLines part.lines, inside⟩,
    rfl, rfl, rfl, ?_⟩
  rw [hSplit, List.takeWhile_append_of_pos hInside, List.dropWhile_append_of_pos hInside,
    hAfter.1, hAfter.2, List.append_nil, nest, Section.walkAllBelow_cons, Section.walk_eq]

/-! ### Parents -/

/-- The heading at `p` is the nearest one before the heading at `i` that has a smaller level. -/
structure IsParent (headings : List Heading) (p i : Nat) : Prop where
  before : p < i
  higher : ∃ a b, headings[p]? = some a ∧ headings[i]? = some b ∧ a.level < b.level
  nearest : ∀ j a b, p < j → j < i → headings[j]? = some a → headings[i]? = some b →
    b.level ≤ a.level

theorem IsParent.cons {headings : List Heading} {p i : Nat} (h : IsParent headings p i)
    (first : Heading) : IsParent (first :: headings) (p + 1) (i + 1) where
  before := Nat.succ_lt_succ h.before
  higher := h.higher
  nearest j a b hp hi ha hb := by
    cases j with
    | zero => omega
    | succ j => exact h.nearest j a b (by omega) (by omega) ha hb

theorem isParent_zero {headings : List Heading} {i : Nat} {first b : Heading}
    (hb : headings[i]? = some b) (hLevel : first.level < b.level)
    (hNone : ∀ j a, j < i → headings[j]? = some a → b.level ≤ a.level) :
    IsParent (first :: headings) 0 (i + 1) where
  before := Nat.succ_pos i
  higher := ⟨first, b, rfl, hb, hLevel⟩
  nearest j a c hp hi ha hc := by
    obtain rfl : b = c := by simpa [hb] using hc
    cases j with
    | zero => omega
    | succ j => exact hNone j a (by omega) ha

/-- The ancestors of a visit are those of its parent and the parent itself.  A visit without ancestors
has no parent. -/
def LinkedAt (visits : List Visit) (i : Nat) (v : Visit) : Prop :=
  (v.ancestors = [] ∧ ∀ j a, j < i → (visits.map Visit.heading)[j]? = some a →
    v.here.level ≤ a.level) ∨
  ∃ p u, IsParent (visits.map Visit.heading) p i ∧ visits[p]? = some u ∧
    v.ancestors = u.ancestors ++ [u.here]

/-- Every visit is linked. -/
def Linked (visits : List Visit) : Prop :=
  ∀ i v, visits[i]? = some v → LinkedAt visits i v

/-- A section put in front of visits, of which it takes those up to the first that does not lie deeper. -/
def putUnder (s : Section) (visits : List Visit) : List Visit :=
  ⟨[], s⟩ :: (visits.takeWhile (deeper s.level)).map (Visit.below [s]) ++
    visits.dropWhile (deeper s.level)

section

variable {s : Section} {visits : List Visit} {i : Nat} {v : Visit}

theorem map_heading_putUnder (s : Section) (visits : List Visit) :
    (putUnder s visits).map Visit.heading = ⟨s.level, s.title⟩ :: visits.map Visit.heading := by
  have hBelow : Visit.heading ∘ Visit.below [s] = Visit.heading := rfl
  rw [putUnder, List.cons_append, List.map_cons, List.map_append, List.map_map, hBelow,
    ← List.map_append, List.takeWhile_append_dropWhile]
  rfl

theorem getElem?_putUnder_of_lt (hi : i < (visits.takeWhile (deeper s.level)).length) :
    (putUnder s visits)[i + 1]? = visits[i]?.map (Visit.below [s]) := by
  conv_rhs => rw [← List.takeWhile_append_dropWhile (p := deeper s.level) (l := visits),
    List.getElem?_append_left hi]
  simp [putUnder, List.getElem?_append_left, hi]

theorem getElem?_putUnder_of_le (hi : (visits.takeWhile (deeper s.level)).length ≤ i) :
    (putUnder s visits)[i + 1]? = visits[i]? := by
  conv_rhs => rw [← List.takeWhile_append_dropWhile (p := deeper s.level) (l := visits),
    List.getElem?_append_right hi]
  simp [putUnder, List.getElem?_append_right, hi]

theorem level_lt_of_taken (hi : i < (visits.takeWhile (deeper s.level)).length)
    (hv : visits[i]? = some v) : s.level < v.here.level := by
  rw [← List.takeWhile_append_dropWhile (p := deeper s.level) (l := visits),
    List.getElem?_append_left hi] at hv
  simpa [deeper] using List.mem_takeWhile_imp (List.mem_of_getElem? hv)

theorem exists_first_left (hi : (visits.takeWhile (deeper s.level)).length ≤ i)
    (hv : visits[i]? = some v) :
    ∃ b, visits[(visits.takeWhile (deeper s.level)).length]? = some b ∧ b.here.level ≤ s.level := by
  have hSplit := List.takeWhile_append_dropWhile (p := deeper s.level) (l := visits)
  rw [← hSplit, List.getElem?_append_right hi] at hv
  have hNext : visits[(visits.takeWhile (deeper s.level)).length]? =
      (visits.dropWhile (deeper s.level)).head? := by
    generalize hTaken : (visits.takeWhile (deeper s.level)).length = n
    conv_lhs => rw [← hSplit, List.getElem?_append_right (Nat.le_of_eq hTaken), hTaken, Nat.sub_self]
    exact List.head?_eq_getElem?.symm
  cases hAfter : visits.dropWhile (deeper s.level) with
  | nil => simp [hAfter] at hv
  | cons b bs =>
    have hFirst := List.head?_dropWhile_not (deeper s.level) visits
    rw [hAfter] at hFirst
    exact ⟨b, by rw [hNext, hAfter, List.head?_cons], by simpa [deeper] using hFirst⟩

theorem LinkedAt.of_taken (h : LinkedAt visits i v)
    (hi : i < (visits.takeWhile (deeper s.level)).length) (hv : visits[i]? = some v) :
    LinkedAt (putUnder s visits) (i + 1) (Visit.below [s] v) := by
  have hHeading : (visits.map Visit.heading)[i]? = some v.heading := by
    rw [List.getElem?_map, hv, Option.map_some]
  right
  rw [map_heading_putUnder]
  rcases h with ⟨hTop, hNone⟩ | ⟨p, u, hParent, hu, hAncestors⟩
  · refine ⟨0, ⟨[], s⟩, isParent_zero hHeading (level_lt_of_taken hi hv) hNone, rfl, ?_⟩
    simp [Visit.below, hTop]
  · refine ⟨p + 1, Visit.below [s] u, hParent.cons _, ?_, ?_⟩
    · rw [getElem?_putUnder_of_lt (Nat.lt_trans hParent.before hi), hu, Option.map_some]
    · simp [Visit.below, hAncestors]

/-- A visit further on that has no parent lies no deeper than the section: the first visit that is not taken
stands between. -/
theorem level_le_of_left (hi : (visits.takeWhile (deeper s.level)).length ≤ i)
    (hv : visits[i]? = some v) (hNone : ∀ j a, j < i → (visits.map Visit.heading)[j]? = some a →
      v.here.level ≤ a.level) : v.here.level ≤ s.level := by
  obtain ⟨b, hb, hShallow⟩ := exists_first_left hi hv
  rcases Nat.lt_or_eq_of_le hi with hlt | rfl
  · exact Nat.le_trans (hNone _ b.heading hlt (by rw [List.getElem?_map, hb]; rfl)) hShallow
  · obtain rfl : v = b := by simpa [hv] using hb
    exact hShallow

theorem parent_of_left {p : Nat} {u : Visit} (hi : (visits.takeWhile (deeper s.level)).length ≤ i)
    (hv : visits[i]? = some v) (hu : visits[p]? = some u)
    (hParent : IsParent (visits.map Visit.heading) p i) :
    (visits.takeWhile (deeper s.level)).length ≤ p := by
  by_contra hlt
  obtain ⟨b, hb, hShallow⟩ := exists_first_left hi hv
  obtain ⟨a, c, ha, hc, hAbove⟩ := hParent.higher
  obtain rfl : u.heading = a := by simpa [hu] using ha
  obtain rfl : v.heading = c := by simpa [hv] using hc
  have hTaken : s.level < u.here.level := level_lt_of_taken (by omega) hu
  have hBelow : u.here.level < v.here.level := hAbove
  rcases Nat.lt_or_eq_of_le hi with hBetween | rfl
  · have hBlocked : v.here.level ≤ b.here.level :=
      hParent.nearest _ b.heading _ (by omega) hBetween (by rw [List.getElem?_map, hb]; rfl) hc
    omega
  · obtain rfl : v = b := by simpa [hv] using hb
    omega

theorem LinkedAt.of_left (h : LinkedAt visits i v)
    (hi : (visits.takeWhile (deeper s.level)).length ≤ i) (hv : visits[i]? = some v) :
    LinkedAt (putUnder s visits) (i + 1) v := by
  unfold LinkedAt
  rw [map_heading_putUnder]
  rcases h with ⟨hTop, hNone⟩ | ⟨p, u, hParent, hu, hAncestors⟩
  · refine Or.inl ⟨hTop, fun j a hj ha => ?_⟩
    cases j with
    | zero =>
      obtain rfl : ⟨s.level, s.title⟩ = a := by simpa using ha
      exact level_le_of_left hi hv hNone
    | succ j => exact hNone j a (by omega) ha
  · refine Or.inr ⟨p + 1, u, hParent.cons _, ?_, hAncestors⟩
    rw [getElem?_putUnder_of_le (parent_of_left hi hv hu hParent), hu]

/-- **A section put in front of visits links them**, if it takes those up to the first that does not
lie deeper. -/
theorem Linked.putUnder (h : Linked visits) (s : Section) : Linked (putUnder s visits) := by
  intro i v hv
  cases i with
  | zero =>
    obtain rfl : ⟨[], s⟩ = v := by simpa [Outline.putUnder] using hv
    exact Or.inl ⟨rfl, fun j a hj => by omega⟩
  | succ i =>
    rcases Nat.lt_or_ge i (visits.takeWhile (deeper s.level)).length with hi | hi
    · rw [getElem?_putUnder_of_lt hi, Option.map_eq_some_iff] at hv
      obtain ⟨w, hw, rfl⟩ := hv
      exact (h i w hw).of_taken hi hw
    · rw [getElem?_putUnder_of_le hi] at hv
      exact (h i v hv).of_left hi hv

end

theorem linked_walk_nest (parts : List Part) : Linked (Section.walkAllBelow [] (nest parts)) := by
  induction parts with
  | nil => intro i v hv; simp [nest, Section.walkAllBelow] at hv
  | cons part rest ih =>
    obtain ⟨s, hLevel, -, -, hWalk⟩ := walk_nest_cons part rest
    rw [hWalk, ← hLevel]
    exact ih.putUnder s

/-- **The walk through nested parts visits them in order**, each with its heading and the blocks of
its own lines. -/
theorem map_walk_nest {α : Type} (f : Heading → List Block → α) (parts : List Part) :
    (Section.walkAllBelow [] (nest parts)).map (fun v => f v.heading v.here.blocks) =
      parts.map fun part => f part.heading (Block.ofLines part.lines) := by
  induction parts with
  | nil => rfl
  | cons part rest ih =>
    obtain ⟨s, hLevel, hTitle, hBlocks, hWalk⟩ := walk_nest_cons part rest
    have hSame : (fun v => f v.heading v.here.blocks) ∘ Visit.below [s] =
        fun v => f v.heading v.here.blocks := rfl
    rw [hWalk, List.cons_append, List.map_cons, List.map_append, List.map_map, hSame,
      ← List.map_append, List.takeWhile_append_dropWhile, ih, List.map_cons]
    simp [Visit.heading, hLevel, hTitle, hBlocks]

/-- The lines before the first heading, and those below each heading up to the next. -/
def ownLines (outline : Outline) : List (List String) :=
  outline.preamble :: outline.parts.map Part.lines

end Outline

/-! ### Documents -/

/-- **The sections of a document are its outline.**  A walk visits the root and then the headings
outside code, in line order, with their levels and titles.  The root has no ancestors; those of any
other visit are the ancestors of its parent and the parent itself, which is the nearest earlier
visit of smaller level. -/
theorem Document.walk_ofLines (path : String) (lines : List String) :
    (ofLines path lines).walk.map Visit.heading = ⟨0, ""⟩ :: Outline.headings lines ∧
    ∀ i v, (ofLines path lines).walk[i]? = some v →
      (i = 0 ∧ v.ancestors = []) ∨
      ∃ p u, Outline.IsParent (⟨0, ""⟩ :: Outline.headings lines) p i ∧
        (ofLines path lines).walk[p]? = some u ∧ v.ancestors = u.ancestors ++ [u.here] := by
  let root := (Outline.read false lines).root
  let visits := Section.walkAllBelow [] (Outline.nest (Outline.read false lines).parts)
  have hHeadings : visits.map Visit.heading = Outline.headings lines := by
    rw [← Outline.parts_read]
    exact Outline.map_walk_nest (fun heading _ => heading) _
  have hPos : ∀ a ∈ Outline.headings lines, 0 < a.level :=
    fun a ha => (Outline.level_of_mem_headings ha).1
  have hAll : ∀ v ∈ visits, Outline.deeper root.level v = true := by
    intro v hv
    have hLevel : 0 < v.here.level := hPos v.heading (hHeadings ▸ List.mem_map_of_mem hv)
    simpa [Outline.deeper, root, Outline.root] using hLevel
  have hWalk : (ofLines path lines).walk = ⟨[], root⟩ :: visits.map (Visit.below [root]) :=
    Section.walk_eq root
  have hMap : (ofLines path lines).walk.map Visit.heading = ⟨0, ""⟩ :: Outline.headings lines := by
    rw [hWalk, ← hHeadings, List.map_cons, List.map_map]
    rfl
  have hLinked : Outline.Linked (ofLines path lines).walk := by
    have h := (Outline.linked_walk_nest (Outline.read false lines).parts).putUnder root
    rwa [Outline.putUnder, List.takeWhile_eq_self_iff.mpr hAll, List.dropWhile_eq_nil_iff.mpr hAll, List.append_nil,
      ← hWalk] at h
  refine ⟨hMap, fun i v hv => ?_⟩
  rw [← hMap]
  rcases hLinked i v hv with ⟨hTop, hNone⟩ | hParent
  · left
    refine ⟨?_, hTop⟩
    cases i with
    | zero => rfl
    | succ i =>
      -- A heading is deeper than the root, which comes before it.
      have hHeading : v.heading ∈ Outline.headings lines := by
        have h := congrArg (·[i + 1]?) hMap
        simp only [List.getElem?_map, hv, Option.map_some, List.getElem?_cons_succ] at h
        exact List.mem_of_getElem? h.symm
      have hLow : v.here.level ≤ 0 := hNone 0 ⟨0, ""⟩ (Nat.succ_pos i) (by rw [hMap]; rfl)
      have hHigh : 0 < v.here.level := hPos v.heading hHeading
      omega
  · exact Or.inr hParent

/-- **Level 0 is for the root only**, which has no title and no ancestors. -/
theorem Document.root_or_deeper {path : String} {lines : List String} {v : Visit}
    (h : v ∈ (ofLines path lines).walk) :
    (v.here.level = 0 ∧ v.here.title = "" ∧ v.ancestors = []) ∨
      (v.here.level ≠ 0 ∧ v.ancestors ≠ []) := by
  obtain ⟨hHeadings, hParents⟩ := walk_ofLines path lines
  obtain ⟨i, hi⟩ := List.mem_iff_getElem?.mp h
  have hHeading : (⟨0, ""⟩ :: Outline.headings lines)[i]? = some v.heading := by
    rw [← hHeadings, List.getElem?_map, hi, Option.map_some]
  rcases hParents i v hi with ⟨rfl, hTop⟩ | ⟨p, u, hParent, -, hAncestors⟩
  · left
    have hRoot : v.heading = ⟨0, ""⟩ := (Option.some.inj hHeading).symm
    exact ⟨congrArg Heading.level hRoot, congrArg Heading.title hRoot, hTop⟩
  · right
    obtain ⟨a, b, -, hb, hLevel⟩ := hParent.higher
    rw [hHeading] at hb
    obtain rfl := Option.some.inj hb
    have hPos : 0 < v.here.level := Nat.lt_of_le_of_lt (Nat.zero_le _) hLevel
    refine ⟨Nat.ne_of_gt hPos, ?_⟩
    rw [hAncestors]
    exact List.append_ne_nil_of_right_ne_nil _ (List.cons_ne_nil _ _)

/-- **The blocks of each section come from the lines that it has of its own.** -/
theorem Document.map_blocks_walk (path : String) (lines : List String) :
    ((ofLines path lines).walk.map fun v => v.here.blocks) =
      (Outline.read false lines).ownLines.map Block.ofLines := by
  have hNested := Outline.map_walk_nest (fun _ blocks => blocks) (Outline.read false lines).parts
  rw [walk, Section.walk_eq, List.map_cons, List.map_map, Outline.ownLines, List.map_cons, List.map_map]
  exact congrArg (Block.ofLines _ :: ·) hNested

end ProseTypes
