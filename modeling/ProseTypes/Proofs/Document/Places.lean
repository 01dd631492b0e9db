import Mathlib.Data.List.Basic
import ProseTypes.LinkIndex

/-!
# Places of sections and tables

Two sections may be alike, and so may two tables.  A section is told apart from others by its place:
the number of its document, and the numbers that lead to it from one section to one directly in it.
A table is told apart by the section that has it and by its number among the tables of this section.

* `Section.filterMap_paths`: in the order of the walk, the paths lead to the sections that it visits.
* `Corpus.filterMap_places`: so the places of a corpus lead to its targets, in order.
* `Corpus.targetAt?_child`: the place of a section directly in another one.
-/

namespace ProseTypes

namespace Section

/-! ### Paths through a document -/

/-- The section that a path leads to, visited below the sections that enclose it. -/
def visitAt? (ancestors : List Section) (part : Section) : List Nat → Option Visit
  | [] => some ⟨ancestors, part⟩
  | n :: path => part.sections[n]?.bind fun child => child.visitAt? (ancestors ++ [part]) path

mutual

def paths : Section → List (List Nat)
  | ⟨_, _, _, sections⟩ => [] :: pathsFrom 0 sections

def pathsFrom (n : Nat) : List Section → List (List Nat)
  | [] => []
  | child :: rest => (paths child).map (n :: ·) ++ pathsFrom (n + 1) rest

end

theorem paths_eq (part : Section) : part.paths = [] :: pathsFrom 0 part.sections := by
  cases part
  rw [paths]

theorem mem_pathsFrom {n : Nat} {sections : List Section} {path : List Nat} :
    path ∈ pathsFrom n sections ↔
      ∃ m child rest, sections[m]? = some child ∧ rest ∈ child.paths ∧ path = (n + m) :: rest := by
  induction sections generalizing n with
  | nil => simp [pathsFrom]
  | cons first others ih =>
    rw [pathsFrom, List.mem_append, List.mem_map, ih]
    constructor
    · rintro (⟨rest, hRest, rfl⟩ | ⟨m, child, rest, hChild, hRest, rfl⟩)
      · exact ⟨0, first, rest, rfl, hRest, rfl⟩
      · exact ⟨m + 1, child, rest, hChild, hRest, by rw [Nat.add_right_comm, Nat.add_assoc]⟩
    · rintro ⟨m, child, rest, hChild, hRest, rfl⟩
      cases m with
      | zero =>
        cases hChild
        exact Or.inl ⟨rest, hRest, rfl⟩
      | succ m =>
        exact Or.inr ⟨m, child, rest, hChild, hRest, by rw [Nat.add_right_comm, Nat.add_assoc]⟩

/-- **The paths of a document are those that lead somewhere.** -/
theorem mem_paths (ancestors : List Section) {part : Section} {path : List Nat} :
    path ∈ part.paths ↔ (part.visitAt? ancestors path).isSome := by
  induction path generalizing ancestors part with
  | nil => simp [paths_eq, visitAt?]
  | cons n path ih =>
    rw [paths_eq, List.mem_cons, mem_pathsFrom, visitAt?]
    constructor
    · rintro (hNil | ⟨m, child, rest, hChild, hRest, hPath⟩)
      · cases hNil
      · rw [Nat.zero_add, List.cons.injEq] at hPath
        obtain ⟨rfl, rfl⟩ := hPath
        rw [hChild, Option.bind_some]
        exact (ih _).mp hRest
    · intro hSome
      obtain ⟨visit, hVisit⟩ := Option.isSome_iff_exists.mp hSome
      obtain ⟨child, hChild, hVisit⟩ := Option.bind_eq_some_iff.mp hVisit
      refine Or.inr ⟨n, child, path, hChild, (ih (ancestors ++ [part])).mpr ?_, by rw [Nat.zero_add]⟩
      rw [hVisit]
      rfl

/-- **One step further leads from a section to one directly in it.** -/
theorem visitAt?_concat (ancestors : List Section) (part : Section) (path : List Nat) (n : Nat) :
    part.visitAt? ancestors (path ++ [n]) = (part.visitAt? ancestors path).bind fun visit =>
      visit.here.sections[n]?.map fun child => ⟨visit.ancestors ++ [visit.here], child⟩ := by
  induction path generalizing ancestors part with
  | nil =>
    rw [List.nil_append, visitAt?, visitAt?, Option.bind_some]
    cases part.sections[n]? with
    | none => rfl
    | some child => rfl
  | cons m path ih =>
    rw [List.cons_append, visitAt?, visitAt?]
    cases part.sections[m]? with
    | none => rfl
    | some child => exact ih _ child

mutual

/-- **In document order, the paths lead to the sections that the walk visits.** -/
theorem filterMap_paths (ancestors : List Section) :
    ∀ part, (paths part).filterMap (part.visitAt? ancestors) = walkBelow ancestors part
  | ⟨level, title, blocks, sections⟩ => by
    have hRest := filterMap_pathsFrom ancestors ⟨level, title, blocks, sections⟩ [] sections rfl
    rw [paths, walkBelow, ← hRest]
    rfl

theorem filterMap_pathsFrom (ancestors : List Section) (part : Section) (before : List Section) :
    ∀ sections, part.sections = before ++ sections →
      (pathsFrom before.length sections).filterMap (part.visitAt? ancestors) =
        walkAllBelow (ancestors ++ [part]) sections
  | [], _ => by rw [pathsFrom, walkAllBelow, List.filterMap_nil]
  | child :: rest, hSections => by
    have hChild : part.sections[before.length]? = some child := by
      rw [hSections, List.getElem?_append_right (Nat.le_refl _), Nat.sub_self]
      rfl
    have hHere : (paths child).filterMap (fun path => part.visitAt? ancestors (before.length :: path)) =
        walkBelow (ancestors ++ [part]) child := by
      simp only [visitAt?, hChild, Option.bind_some]
      exact filterMap_paths (ancestors ++ [part]) child
    have hRest := filterMap_pathsFrom ancestors part (before ++ [child]) rest (by
      rw [hSections, List.append_assoc, List.singleton_append])
    rw [List.length_append, List.length_singleton] at hRest
    rw [pathsFrom, List.filterMap_append, List.filterMap_map, hRest, walkAllBelow]
    exact congrArg (· ++ _) hHere

end

theorem mem_walk_of_visitAt? {part : Section} {path : List Nat} {visit : Visit}
    (h : part.visitAt? [] path = some visit) : visit ∈ part.walk := by
  have hPath : path ∈ part.paths := (mem_paths []).mpr (by rw [h]; rfl)
  rw [walk, ← filterMap_paths]
  exact List.mem_filterMap.mpr ⟨path, hPath, h⟩

end Section

/-! ### Places in a corpus -/

/-- The place of a section: the number of its document and the path to it. -/
structure Place where
  document : Nat
  path : List Nat
deriving DecidableEq, Repr

namespace Place

def child (place : Place) (n : Nat) : Place :=
  ⟨place.document, place.path ++ [n]⟩

/-- Says whether the section at a place lies directly in the section at another one. -/
def isIn (place outer : Place) : Bool :=
  place.document == outer.document && !place.path.isEmpty && place.path.dropLast == outer.path

@[simp] theorem isIn_child (place : Place) (n : Nat) : (place.child n).isIn place := by
  simp [isIn, child]

theorem child_injective {a b : Place} {m n : Nat} (h : a.child m = b.child n) : a = b ∧ m = n := by
  obtain ⟨document, path⟩ := a
  rw [child, child, Place.mk.injEq] at h
  obtain ⟨rfl, hPath⟩ := h
  obtain ⟨rfl, hLast⟩ := List.append_inj' hPath rfl
  exact ⟨rfl, List.singleton_inj.mp hLast⟩

end Place

/-- The place of a table: that of the section that has it, and its number there. -/
structure Spot where
  place : Place
  number : Nat
deriving DecidableEq, Repr

namespace Corpus

def targetAt? (corpus : Corpus) (place : Place) : Option Target :=
  corpus.documents[place.document]?.bind fun document =>
    (document.root.visitAt? [] place.path).map (Target.ofVisit corpus.nesting document.path)

def places (corpus : Corpus) : List Place :=
  corpus.documents.zipIdx.flatMap fun numbered => numbered.1.root.paths.map (Place.mk numbered.2)

def tableAt? (corpus : Corpus) (spot : Spot) : Option Table :=
  (corpus.targetAt? spot.place).bind fun target => target.here.tables[spot.number]?

/-- The places of all tables, in document order. -/
def spots (corpus : Corpus) : List Spot :=
  corpus.places.flatMap fun place => (corpus.targetAt? place).toList.flatMap fun target =>
    (List.range target.here.tables.length).map (Spot.mk place)

variable {corpus : Corpus} {place : Place}

theorem targetAt?_eq_some {target : Target} : corpus.targetAt? place = some target ↔
    ∃ document visit, corpus.documents[place.document]? = some document ∧
      document.root.visitAt? [] place.path = some visit ∧
      Target.ofVisit corpus.nesting document.path visit = target := by
  rw [targetAt?, Option.bind_eq_some_iff]
  constructor
  · rintro ⟨document, hDocument, hTarget⟩
    obtain ⟨visit, hVisit, rfl⟩ := Option.map_eq_some_iff.mp hTarget
    exact ⟨document, visit, hDocument, hVisit, rfl⟩
  · rintro ⟨document, visit, hDocument, hVisit, rfl⟩
    exact ⟨document, hDocument, by rw [hVisit, Option.map_some]⟩

/-- **The places of a corpus are those where a section is.** -/
theorem mem_places : place ∈ corpus.places ↔ (corpus.targetAt? place).isSome := by
  rw [places, List.mem_flatMap, Option.isSome_iff_exists]
  constructor
  · rintro ⟨⟨document, n⟩, hDocument, hPlace⟩
    obtain ⟨path, hPath, rfl⟩ := List.mem_map.mp hPlace
    obtain ⟨visit, hVisit⟩ := Option.isSome_iff_exists.mp ((Section.mem_paths []).mp hPath)
    exact ⟨_, targetAt?_eq_some.mpr
      ⟨document, visit, List.mem_zipIdx_iff_getElem?.mp hDocument, hVisit, rfl⟩⟩
  · rintro ⟨target, hTarget⟩
    obtain ⟨document, visit, hDocument, hVisit, -⟩ := targetAt?_eq_some.mp hTarget
    refine ⟨(document, place.document), List.mem_zipIdx_iff_getElem?.mpr hDocument, ?_⟩
    refine List.mem_map.mpr ⟨place.path, (Section.mem_paths []).mpr ?_, rfl⟩
    rw [hVisit]
    rfl

/-- **In document order, the places lead to the targets of the corpus.** -/
theorem filterMap_places (corpus : Corpus) :
    corpus.places.filterMap corpus.targetAt? = corpus.targets := by
  have hDocument {numbered : Document × Nat} (hMem : numbered ∈ corpus.documents.zipIdx) :
      (numbered.1.root.paths.map (Place.mk numbered.2)).filterMap corpus.targetAt? =
        numbered.1.walk.map (Target.ofVisit corpus.nesting numbered.1.path) := by
    have hHere (path : List Nat) : corpus.targetAt? ⟨numbered.2, path⟩ =
        (numbered.1.root.visitAt? [] path).map (Target.ofVisit corpus.nesting numbered.1.path) := by
      rw [targetAt?, List.mem_zipIdx_iff_getElem?.mp hMem, Option.bind_some]
    rw [List.filterMap_map, Document.walk, Section.walk, ← Section.filterMap_paths,
      List.map_filterMap]
    exact List.filterMap_congr fun path _ => hHere path
  rw [places, List.filterMap_flatMap, targets]
  calc corpus.documents.zipIdx.flatMap (fun numbered =>
        (numbered.1.root.paths.map (Place.mk numbered.2)).filterMap corpus.targetAt?)
    _ = corpus.documents.zipIdx.flatMap (fun numbered =>
        numbered.1.walk.map (Target.ofVisit corpus.nesting numbered.1.path)) :=
      List.flatMap_congr fun _ hMem => hDocument hMem
    _ = (corpus.documents.zipIdx.map Prod.fst).flatMap fun document =>
        document.walk.map (Target.ofVisit corpus.nesting document.path) := by
      rw [List.flatMap_map]
    _ = _ := by
      rw [List.zipIdx_map_fst]

/-- **A section directly in one of the corpus is at the place one step further.** -/
theorem targetAt?_child {target : Target} (h : corpus.targetAt? place = some target) {n : Nat}
    {child : Section} (hChild : target.here.sections[n]? = some child) :
    ∃ inner, corpus.targetAt? (place.child n) = some inner ∧ inner.here = child ∧
      inner.visit.ancestors = target.visit.ancestors ++ [target.here] := by
  obtain ⟨document, visit, hDocument, hVisit, rfl⟩ := targetAt?_eq_some.mp h
  have hChild : visit.here.sections[n]? = some child := hChild
  refine ⟨_, targetAt?_eq_some.mpr
    ⟨document, ⟨visit.ancestors ++ [visit.here], child⟩, hDocument, ?_, rfl⟩, rfl, rfl⟩
  rw [Place.child, Section.visitAt?_concat, hVisit, Option.bind_some, hChild, Option.map_some]

theorem mem_spots {spot : Spot} : spot ∈ corpus.spots ↔ (corpus.tableAt? spot).isSome := by
  rw [spots, List.mem_flatMap, tableAt?]
  constructor
  · rintro ⟨place, -, hSpot⟩
    obtain ⟨target, hTarget, hSpot⟩ := List.mem_flatMap.mp hSpot
    obtain ⟨n, hn, rfl⟩ := List.mem_map.mp hSpot
    rw [Option.mem_toList.mp hTarget, Option.bind_some]
    simpa using hn
  · intro hSome
    obtain ⟨table, hTable⟩ := Option.isSome_iff_exists.mp hSome
    obtain ⟨target, hTarget, hTable⟩ := Option.bind_eq_some_iff.mp hTable
    have hPlace : spot.place ∈ corpus.places := by
      rw [mem_places, hTarget]
      rfl
    refine ⟨spot.place, hPlace, List.mem_flatMap.mpr ⟨target, Option.mem_toList.mpr hTarget, ?_⟩⟩
    exact List.mem_map.mpr
      ⟨spot.number, List.mem_range.mpr (List.getElem?_eq_some_iff.mp hTable).1, rfl⟩

end Corpus

end ProseTypes
