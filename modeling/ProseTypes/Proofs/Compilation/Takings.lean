import ProseTypes.Proofs.Compilation.Provenance
import ProseTypes.Proofs.Document.Places

/-!
# Takings

A section leads a compilation to a structure in one of four ways: the walk comes to it, it documents a
request that has a body or a query, or a link leads to it.  A `Taking` is a section, by its place,
together with the way.  Each way searches tables in an order of its own, and takes the first that fits
(`Section.spotBy?`).  So a taking settles the resource (`Corpus.resource?`), and also which table of the
corpus it is read from (`Corpus.spot?`), where resources know only what the table says.

* `Corpus.exists_spot?`: the table at the spot of a taking is that of its resource.
* `Corpus.lies_of_spot?`: it belongs to the section of the taking, or to a section directly in it.
-/

namespace ProseTypes

/-- The ways in which a section leads to a structure. -/
inductive Way where
  | own
  | body
  | query
  | linked
deriving DecidableEq, Repr

/-- The way in which the section at a place leads to a structure. -/
structure Taking where
  way : Way
  place : Place
deriving DecidableEq, Repr

/-! ### Tables and their spots -/

namespace Section

def spotsAt (place : Place) (part : Section) : List (Spot × Table) :=
  part.tables.zipIdx.map fun numbered => (⟨place, numbered.2⟩, numbered.1)

/-- The tables of those sections directly in the section at a place that are kept, with their
spots. -/
def innerSpotsAt (keep : Section → Bool) (place : Place) (part : Section) : List (Spot × Table) :=
  (part.sections.zipIdx.filter fun numbered => keep numbered.1).flatMap fun numbered =>
    numbered.1.spotsAt (place.child numbered.2)

variable {keep : Section → Bool} {place : Place} {part : Section}

theorem map_spotsAt (place : Place) (part : Section) :
    (part.spotsAt place).map Prod.snd = part.tables := by
  rw [spotsAt, List.map_map]
  exact List.zipIdx_map_fst 0 part.tables

theorem map_innerSpotsAt (keep : Section → Bool) (place : Place) (part : Section) :
    (part.innerSpotsAt keep place).map Prod.snd = (part.sections.filter keep).flatMap tables := by
  have hKept : (part.sections.zipIdx.filter fun numbered => keep numbered.1).map Prod.fst =
      part.sections.filter keep :=
    List.filter_map.symm.trans (congrArg (List.filter keep) (List.zipIdx_map_fst 0 part.sections))
  rw [innerSpotsAt, List.map_flatMap, ← hKept, List.flatMap_map]
  simp only [map_spotsAt]

theorem mem_spotsAt {spot : Spot} {table : Table} : (spot, table) ∈ part.spotsAt place ↔
    spot.place = place ∧ part.tables[spot.number]? = some table := by
  rw [spotsAt, List.mem_map]
  constructor
  · rintro ⟨⟨first, n⟩, hMem, hEq⟩
    rw [Prod.mk.injEq] at hEq
    obtain ⟨rfl, rfl⟩ := hEq
    exact ⟨rfl, List.mem_zipIdx_iff_getElem?.mp hMem⟩
  · rintro ⟨rfl, hTable⟩
    exact ⟨(table, spot.number), List.mem_zipIdx_iff_getElem?.mpr hTable, rfl⟩

theorem exists_of_mem_innerSpotsAt {spot : Spot} {table : Table}
    (h : (spot, table) ∈ part.innerSpotsAt keep place) :
    ∃ n child, part.sections[n]? = some child ∧ keep child ∧ spot.place = place.child n ∧
      child.tables[spot.number]? = some table := by
  obtain ⟨⟨child, n⟩, hChild, hSpot⟩ := List.mem_flatMap.mp h
  obtain ⟨hChild, hKeep⟩ := List.mem_filter.mp hChild
  obtain ⟨hPlace, hTable⟩ := mem_spotsAt.mp hSpot
  exact ⟨n, child, List.mem_zipIdx_iff_getElem?.mp hChild, hKeep, hPlace, hTable⟩

end Section

namespace Shape

def chooseAt? (placed : List (Spot × Table)) : Option (Spot × Table) :=
  groups.findSome? fun group => placed.find? fun candidate => group.any (·.fits candidate.2)

/-- **The table that is chosen with its spot is the one that is chosen without.** -/
theorem map_chooseAt? (placed : List (Spot × Table)) :
    (chooseAt? placed).map Prod.snd = (choose? (placed.map Prod.snd)).map Prod.fst := by
  have hGroup (group : List Shape) : (placed.find? fun candidate => group.any (·.fits candidate.2)).map
      Prod.snd = (pick? group (placed.map Prod.snd)).map Prod.fst := by
    induction placed with
    | nil => rfl
    | cons first rest ih =>
      rw [List.map_cons, pick?, List.findSome?_cons, List.find?_cons]
      cases hFound : group.find? (·.fits first.2) with
      | none =>
        have hNone : group.any (·.fits first.2) = false := by
          simpa [List.any_eq_false] using List.find?_eq_none.mp hFound
        rw [hNone]
        exact ih
      | some shape =>
        have hSome : group.any (·.fits first.2) = true :=
          List.any_eq_true.mpr ⟨shape, List.mem_of_find?_eq_some hFound,
            List.find?_some (p := fun shape : Shape => shape.fits first.2) hFound⟩
        rw [hSome]
        rfl
  have hTwo : chooseAt? placed = (placed.find? fun candidate => [fields].any (·.fits candidate.2)).or
      (placed.find? fun candidate => [names, flags].any (·.fits candidate.2)) := by
    rw [chooseAt?, groups, List.findSome?_cons, List.findSome?_cons, List.findSome?_nil]
    cases placed.find? fun candidate => [fields].any (·.fits candidate.2) with
    | some found => rfl
    | none =>
      cases placed.find? fun candidate => [names, flags].any (·.fits candidate.2) with
      | some found => rfl
      | none => rfl
  rw [hTwo, choose?_eq, Option.map_or, Option.map_or, hGroup, hGroup]

theorem mem_of_chooseAt? {placed : List (Spot × Table)} {candidate : Spot × Table}
    (h : chooseAt? placed = some candidate) : candidate ∈ placed := by
  obtain ⟨group, -, hFound⟩ := List.exists_of_findSome?_eq_some h
  exact List.mem_of_find?_eq_some hFound

end Shape

/-! ### What a section is taken for -/

namespace Section

def namesSame (part child : Section) : Bool :=
  (Name.ofTitle? part.title).isSome && Name.ofTitle? child.title == Name.ofTitle? part.title

def spotBy? (place : Place) (part : Section) : Way → Option (Spot × Table)
  | .own => Shape.chooseAt? (part.spotsAt place ++ part.innerSpotsAt part.namesSame place)
  | .body => (part.innerSpotsAt (fun child => Request.announcesBody child.title) place).find?
      fun candidate => Shape.fields.fits candidate.2
  | .query => (part.innerSpotsAt (fun child => Request.announcesQuery child.title) place).find?
      fun candidate => Shape.fields.fits candidate.2
  | .linked => Shape.chooseAt? (part.spotsAt place ++ part.innerSpotsAt (fun _ => true) place)

variable {place : Place} {part : Section}

theorem map_spotBy?_own : (part.spotBy? place .own).map Prod.snd = part.ownTable?.map Prod.fst := by
  rw [spotBy?, Shape.map_chooseAt?, List.map_append, map_spotsAt, map_innerSpotsAt]
  rfl

theorem map_spotBy?_linked :
    (part.spotBy? place .linked).map Prod.snd = part.linkedTable?.map Prod.fst := by
  rw [spotBy?, Shape.map_chooseAt?, List.map_append, map_spotsAt, map_innerSpotsAt,
    List.filter_true]
  rfl

/-- The tables of a request are searched section by section, which comes to the same. -/
theorem map_find?_innerSpotsAt (announces : String → Bool) :
    ((part.innerSpotsAt (fun child => announces child.title) place).find? fun candidate =>
      Shape.fields.fits candidate.2).map Prod.snd = Request.table? announces part := by
  have hFlat (placed : List (Spot × Table)) : (placed.find? fun candidate =>
      Shape.fields.fits candidate.2).map Prod.snd = (placed.map Prod.snd).find? Shape.fields.fits := by
    rw [List.find?_map]
    rfl
  rw [hFlat, map_innerSpotsAt, List.find?_flatMap]
  rfl

/-- **The table of a taking** belongs to its section, unless that is a request, or to a section
directly in it, which names the same structure if it is the walk that takes it. -/
theorem lies_of_spotBy? {way : Way} {spot : Spot} {table : Table}
    (h : part.spotBy? place way = some (spot, table)) :
    ((way = .own ∨ way = .linked) ∧ spot.place = place ∧ part.tables[spot.number]? = some table) ∨
      ∃ n child, part.sections[n]? = some child ∧ (way = .own → part.namesSame child) ∧
        spot.place = place.child n ∧ child.tables[spot.number]? = some table := by
  have hInner {keep : Section → Bool} (hNames : way = .own → ∀ child, keep child → part.namesSame child)
      (hSpot : (spot, table) ∈ part.innerSpotsAt keep place) :
      ∃ n child, part.sections[n]? = some child ∧ (way = .own → part.namesSame child) ∧
        spot.place = place.child n ∧ child.tables[spot.number]? = some table := by
    obtain ⟨n, child, hChild, hKeep, hPlace, hTable⟩ := exists_of_mem_innerSpotsAt hSpot
    exact ⟨n, child, hChild, fun hWay => hNames hWay child hKeep, hPlace, hTable⟩
  cases way with
  | own =>
    rcases List.mem_append.mp (Shape.mem_of_chooseAt? h) with hSpot | hSpot
    · exact Or.inl ⟨Or.inl rfl, mem_spotsAt.mp hSpot⟩
    · exact Or.inr (hInner (fun _ _ hKeep => hKeep) hSpot)
  | body => exact Or.inr (hInner (fun hWay => nomatch hWay) (List.mem_of_find?_eq_some h))
  | query => exact Or.inr (hInner (fun hWay => nomatch hWay) (List.mem_of_find?_eq_some h))
  | linked =>
    rcases List.mem_append.mp (Shape.mem_of_chooseAt? h) with hSpot | hSpot
    · exact Or.inl ⟨Or.inr rfl, mem_spotsAt.mp hSpot⟩
    · exact Or.inr (hInner (fun hWay => nomatch hWay) hSpot)

end Section

namespace Target

def resourceBy? (target : Target) : Way → Option Resource
  | .own => if target.here.requestTitle?.isSome then none else target.own?
  | .body => target.here.requestTitle?.bind (Request.body? target)
  | .query => target.here.requestTitle?.bind (Request.query? target)
  | .linked => target.resource.toOption

/-- The ways in which a compilation takes a section that it comes to. -/
def ways (target : Target) : List Way :=
  if target.here.requestTitle?.isSome then [.body, .query] else [.own]

variable {target : Target} {resource : Resource}

/-- **What a section asks for is what it leads to in these ways.** -/
theorem asked_eq (target : Target) : target.asked = target.ways.filterMap target.resourceBy? := by
  rw [asked, ways]
  cases hTitle : target.here.requestTitle? with
  | some title =>
    simp only [Option.isSome_some, if_true, Request.resources]
    rw [List.filterMap_cons, List.filterMap_cons, List.filterMap_nil]
    simp only [resourceBy?, hTitle, Option.bind_some]
    cases Request.body? target title <;> cases Request.query? target title <;> rfl
  | none =>
    simp only [Option.isSome_none, Bool.false_eq_true, if_false]
    rw [List.filterMap_cons, List.filterMap_nil]
    simp only [resourceBy?, hTitle, Option.isSome_none, Bool.false_eq_true, if_false]
    cases target.own? <;> rfl

theorem table_of_named {choice : Table × Shape} (h : target.named choice = .ok resource) :
    resource.table = choice.1 := by
  unfold named at h
  split at h
  · cases h
    rfl
  · cases h

theorem resourceBy?_own_eq_some : target.resourceBy? .own = some resource ↔
    target.here.requestTitle? = none ∧ target.own? = some resource := by
  cases hTitle : target.here.requestTitle? with
  | none => simp [resourceBy?, hTitle]
  | some title => simp [resourceBy?, hTitle]

theorem offers_of_resourceBy? {way : Way} (h : target.resourceBy? way = some resource) :
    target.Offers resource := by
  have hRequest {title : RequestTitle} (hTitle : target.here.requestTitle? = some title)
      (hAsked : Request.body? target title = some resource ∨
        Request.query? target title = some resource) : target.Offers resource := by
    refine offers_of_request hTitle (List.mem_append.mpr ?_)
    exact hAsked.imp Option.mem_toList.mpr Option.mem_toList.mpr
  cases way with
  | own => exact offers_of_own? (resourceBy?_own_eq_some.mp h).2
  | body =>
    obtain ⟨title, hTitle, h⟩ := Option.bind_eq_some_iff.mp h
    exact hRequest hTitle (Or.inl h)
  | query =>
    obtain ⟨title, hTitle, h⟩ := Option.bind_eq_some_iff.mp h
    exact hRequest hTitle (Or.inr h)
  | linked => exact offers_of_resource (ok_of_toOption_eq_some h)

/-- **A section is taken for the table of the resource that it leads to.** -/
theorem map_spotBy?_of_resourceBy? (place : Place) {way : Way}
    (h : target.resourceBy? way = some resource) :
    (target.here.spotBy? place way).map Prod.snd = some resource.table := by
  cases way with
  | own =>
    obtain ⟨-, hOwn⟩ := resourceBy?_own_eq_some.mp h
    obtain ⟨choice, hChoice, hNamed⟩ := Option.bind_eq_some_iff.mp hOwn
    rw [Section.map_spotBy?_own, hChoice, table_of_named (ok_of_toOption_eq_some hNamed),
      Option.map_some]
  | body =>
    obtain ⟨title, -, h⟩ := Option.bind_eq_some_iff.mp h
    obtain ⟨table, hTable, rfl⟩ := Option.map_eq_some_iff.mp h
    exact (Section.map_find?_innerSpotsAt Request.announcesBody).trans hTable
  | query =>
    obtain ⟨title, -, h⟩ := Option.bind_eq_some_iff.mp h
    obtain ⟨table, hTable, rfl⟩ := Option.map_eq_some_iff.mp h
    exact (Section.map_find?_innerSpotsAt Request.announcesQuery).trans hTable
  | linked =>
    have hOk := ok_of_toOption_eq_some h
    unfold Target.resource at hOk
    split at hOk
    · rename_i choice hChoice
      rw [Section.map_spotBy?_linked, hChoice, table_of_named hOk, Option.map_some]
    · cases hOk

end Target

/-! ### Takings of a corpus -/

namespace Corpus

variable {corpus : Corpus} {taking : Taking} {resource : Resource}

def resource? (corpus : Corpus) (taking : Taking) : Option Resource :=
  (corpus.targetAt? taking.place).bind fun target => target.resourceBy? taking.way

/-- The spot of the table that a taking leads to. -/
def spot? (corpus : Corpus) (taking : Taking) : Option Spot :=
  (corpus.targetAt? taking.place).bind fun target =>
    (target.here.spotBy? taking.place taking.way).map Prod.fst

/-- Where the spot of a taking lies: in its section, unless this is taken as a request, or in a section
directly in it. -/
theorem lies_of_spot? {spot : Spot} (h : corpus.spot? taking = some spot) :
    ∃ target, corpus.targetAt? taking.place = some target ∧
      (((taking.way = .own ∨ taking.way = .linked) ∧ spot.place = taking.place) ∨
        ∃ n child, target.here.sections[n]? = some child ∧ spot.place = taking.place.child n ∧
          (taking.way = .own → target.here.namesSame child)) := by
  obtain ⟨target, hTarget, h⟩ := Option.bind_eq_some_iff.mp h
  obtain ⟨⟨_, table⟩, hSpot, rfl⟩ := Option.map_eq_some_iff.mp h
  refine ⟨target, hTarget, ?_⟩
  rcases Section.lies_of_spotBy? hSpot with ⟨hWay, hPlace, -⟩ | ⟨n, child, hChild, hNames, hPlace, -⟩
  · exact Or.inl ⟨hWay, hPlace⟩
  · exact Or.inr ⟨n, child, hChild, hPlace, hNames⟩

/-- **The table at the spot of a taking is that of its resource.** -/
theorem exists_spot? (h : corpus.resource? taking = some resource) :
    ∃ spot, corpus.spot? taking = some spot ∧ corpus.tableAt? spot = some resource.table := by
  obtain ⟨target, hTarget, hResource⟩ := Option.bind_eq_some_iff.mp h
  obtain ⟨⟨spot, table⟩, hSpot, hTable⟩ := Option.map_eq_some_iff.mp
    (Target.map_spotBy?_of_resourceBy? taking.place hResource)
  obtain rfl : table = resource.table := hTable
  refine ⟨spot, ?_, ?_⟩
  · rw [spot?, hTarget, Option.bind_some, hSpot, Option.map_some]
  · rw [tableAt?]
    rcases Section.lies_of_spotBy? hSpot with ⟨-, hPlace, hTable⟩ | ⟨n, child, hChild, -, hPlace, hTable⟩
    · rw [hPlace, hTarget]
      exact hTable
    · obtain ⟨inner, hInner, rfl, -⟩ := targetAt?_child hTarget hChild
      rw [hPlace, hInner]
      exact hTable

end Corpus

end ProseTypes
