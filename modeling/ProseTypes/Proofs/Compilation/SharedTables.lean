import Mathlib.Data.List.Nodup
import ProseTypes.Proofs.Compilation.Ledger
import ProseTypes.Proofs.Compilation.Order

/-!
# Structures and the tables they share

Two sections may be taken for one table.  A heading that only groups others gets no structure from the
walk, but a link to it finds the tables of the sections directly in it; a request reads the tables of
sections that links can lead to as well; and one section may announce both the body and the query of a
request.  So two structures may come from one table (`Corpus.exists_shared_stickers`).  These are the
only cases (`Taking.doubles`): apart from them, no table defines two structures, and there are at most as
many structures as tables that define any (`Corpus.tablesShared_compile`).
-/

namespace ProseTypes

/-! ### Takings that double others -/

/-- A taking may read the table of another one once more: the query of a request that of its body, a
link to a section that of a section directly in it, and a link to a request or to a section directly in
it that of the body or the query. -/
def Taking.doubles (taking other : Taking) : Bool :=
  match taking.way, other.way with
  | .query, .body => taking.place == other.place
  | .linked, .own | .linked, .linked => other.place.isIn taking.place
  | .linked, .body | .linked, .query =>
    taking.place == other.place || taking.place.isIn other.place
  | _, _ => false

namespace Target

variable {target : Target} {resource : Resource}

theorem ofTitle?_of_resourceBy? {way : Way} (hWay : way = .own ∨ way = .linked)
    (h : target.resourceBy? way = some resource) :
    Name.ofTitle? target.here.title = some resource.name := by
  rcases hWay with rfl | rfl
  · exact ofTitle?_of_own? (resourceBy?_own_eq_some.mp h).2
  · exact ofTitle?_of_resource (ok_of_toOption_eq_some h)

theorem isSome_requestTitle? {way : Way} (hWay : way = .body ∨ way = .query)
    (h : target.resourceBy? way = some resource) : target.here.requestTitle?.isSome := by
  rcases hWay with rfl | rfl
  · obtain ⟨title, hTitle, -⟩ := Option.bind_eq_some_iff.mp h
    rw [hTitle]
    rfl
  · obtain ⟨title, hTitle, -⟩ := Option.bind_eq_some_iff.mp h
    rw [hTitle]
    rfl

/-- **Two ways lead from one section to structures of different names only if one of them doubles the
other.** -/
theorem doubles_of_resourceBy? (place : Place) {first second : Way} {other : Resource}
    (hFirst : target.resourceBy? first = some resource)
    (hSecond : target.resourceBy? second = some other) (hNames : resource.name ≠ other.name) :
    Taking.doubles ⟨first, place⟩ ⟨second, place⟩ ∨
      Taking.doubles ⟨second, place⟩ ⟨first, place⟩ := by
  have hTitled (hOne : first = .own ∨ first = .linked) (hTwo : second = .own ∨ second = .linked) :
      False := by
    have hName := ofTitle?_of_resourceBy? hOne hFirst
    rw [ofTitle?_of_resourceBy? hTwo hSecond, Option.some.injEq] at hName
    exact hNames hName.symm
  have hSame (h : first = second) : False := by
    rw [h, hSecond, Option.some.injEq] at hFirst
    exact hNames (congrArg Resource.name hFirst.symm)
  have hOwn {way : Way} {own taken : Resource} (hOwn : target.resourceBy? .own = some own)
      (hWay : way = .body ∨ way = .query) (h : target.resourceBy? way = some taken) : False := by
    have hRequest := isSome_requestTitle? hWay h
    rw [(resourceBy?_own_eq_some.mp hOwn).1] at hRequest
    cases hRequest
  cases first with
  | own =>
    cases second with
    | own => exact (hSame rfl).elim
    | body => exact (hOwn hFirst (Or.inl rfl) hSecond).elim
    | query => exact (hOwn hFirst (Or.inr rfl) hSecond).elim
    | linked => exact (hTitled (Or.inl rfl) (Or.inr rfl)).elim
  | body =>
    cases second with
    | own => exact (hOwn hSecond (Or.inl rfl) hFirst).elim
    | body => exact (hSame rfl).elim
    | query => exact Or.inr (by simp [Taking.doubles])
    | linked => exact Or.inr (by simp [Taking.doubles])
  | query =>
    cases second with
    | own => exact (hOwn hSecond (Or.inr rfl) hFirst).elim
    | body => exact Or.inl (by simp [Taking.doubles])
    | query => exact (hSame rfl).elim
    | linked => exact Or.inr (by simp [Taking.doubles])
  | linked =>
    cases second with
    | own => exact (hTitled (Or.inr rfl) (Or.inl rfl)).elim
    | body => exact Or.inl (by simp [Taking.doubles])
    | query => exact Or.inl (by simp [Taking.doubles])
    | linked => exact (hSame rfl).elim

end Target

namespace Corpus

variable {corpus : Corpus} {taking other : Taking} {resource shared : Resource}

theorem Gives.exists_target (h : corpus.Gives taking resource) :
    ∃ target, corpus.targetAt? taking.place = some target ∧
      target.resourceBy? taking.way = some resource :=
  Option.bind_eq_some_iff.mp h.resource

theorem isSome_requestTitle?_of_mem_subjectPlaces {place : Place} {target : Target}
    (h : place ∈ corpus.subjectPlaces) (hTarget : corpus.targetAt? place = some target) :
    ∀ outer ∈ target.visit.ancestors, outer.requestTitle?.isSome = false := by
  obtain ⟨-, hSubject⟩ := List.mem_filter.mp h
  rw [hTarget, Option.any_some, Bool.and_eq_true, Bool.not_eq_true', List.any_eq_false] at hSubject
  exact fun outer hOuter => eq_false_of_ne_true (hSubject.2 outer hOuter)

/-- **A section directly in another one shares a table with it** only if a link leads to one of them
where the walk or a request takes the other. -/
theorem doubles_of_inner (h : corpus.Gives taking resource) (hOther : corpus.Gives other shared)
    (hNames : resource.name ≠ shared.name) (hWay : taking.way = .own ∨ taking.way = .linked)
    {n : Nat} (hPlace : taking.place = other.place.child n) {outer : Target} {child : Section}
    (hOuter : corpus.targetAt? other.place = some outer) (hChild : outer.here.sections[n]? = some child)
    (hAlike : other.way = .own → outer.here.namesSame child) :
    taking.doubles other ∨ other.doubles taking := by
  obtain ⟨inner, hInner, hHere, hAncestors⟩ := targetAt?_child hOuter hChild
  obtain ⟨target, hTarget, hResource⟩ := h.exists_target
  obtain ⟨outside, hOutside, hShared⟩ := hOther.exists_target
  rw [hPlace, hInner, Option.some.injEq] at hTarget
  rw [hOuter, Option.some.injEq] at hOutside
  subst hTarget hOutside
  have hIn : taking.place.isIn other.place := by
    rw [hPlace]
    exact Place.isIn_child other.place n
  have hName := Target.ofTitle?_of_resourceBy? hWay hResource
  have hRequest (hFields : other.way = .body ∨ other.way = .query) :
      taking.doubles other ∨ other.doubles taking := by
    have hTitle := Target.isSome_requestTitle? hFields hShared
    rcases hWay with hOwn | hLinked
    · -- The walk comes to nothing that is nested in a request.
      have hSubject := h.subject (by rw [hOwn]; decide)
      rw [hPlace] at hSubject
      have hNone := isSome_requestTitle?_of_mem_subjectPlaces hSubject hInner outer.here
        (hAncestors ▸ List.mem_append_right _ (List.mem_singleton_self _))
      rw [hTitle] at hNone
      cases hNone
    · left
      rcases hFields with hFields | hFields
      · simp [Taking.doubles, hLinked, hFields, hIn]
      · simp [Taking.doubles, hLinked, hFields, hIn]
  cases hOtherWay : other.way with
  | own =>
    have hSame := hAlike hOtherWay
    rw [Section.namesSame, Bool.and_eq_true, beq_iff_eq, ← hHere] at hSame
    have hTitle := Target.ofTitle?_of_resourceBy? (Or.inl hOtherWay) hShared
    rw [← hSame.2, show Name.ofTitle? inner.here.title = some resource.name from hName,
      Option.some.injEq] at hTitle
    exact absurd hTitle hNames
  | body => exact hRequest (Or.inl hOtherWay)
  | query => exact hRequest (Or.inr hOtherWay)
  | linked =>
    right
    rcases hWay with hWay | hWay
    · simp [Taking.doubles, hOtherWay, hWay, hIn]
    · simp [Taking.doubles, hOtherWay, hWay, hIn]

/-- **Two takings share a table only if one of them doubles the other**, if they lead to structures of
different names. -/
theorem doubles_of_spot?_eq (h : corpus.Gives taking resource) (hOther : corpus.Gives other shared)
    (hNames : resource.name ≠ shared.name) (hSpot : corpus.spot? taking = corpus.spot? other) :
    taking.doubles other ∨ other.doubles taking := by
  obtain ⟨spot, hFirst, -⟩ := exists_spot? h.resource
  have hSecond : corpus.spot? other = some spot := hSpot ▸ hFirst
  have hPlaces (hPlace : taking.place = other.place) : taking.doubles other ∨ other.doubles taking := by
    obtain ⟨target, hTarget, hResource⟩ := h.exists_target
    obtain ⟨same, hSame, hShared⟩ := hOther.exists_target
    rw [← hPlace, hTarget, Option.some.injEq] at hSame
    subst hSame
    obtain ⟨way, place⟩ := taking
    obtain ⟨otherWay, otherPlace⟩ := other
    obtain rfl : place = otherPlace := hPlace
    exact Target.doubles_of_resourceBy? place hResource hShared hNames
  obtain ⟨target, hTarget, hLies⟩ := lies_of_spot? hFirst
  obtain ⟨outer, hOuter, hOtherLies⟩ := lies_of_spot? hSecond
  rcases hLies with ⟨hWay, hHere⟩ | ⟨n, child, hChild, hBelow, hAlike⟩
  · rcases hOtherLies with ⟨-, hOtherHere⟩ | ⟨m, child, hChild, hBelow, hAlike⟩
    · exact hPlaces (hHere.symm.trans hOtherHere)
    · exact doubles_of_inner h hOther hNames hWay (hHere.symm.trans hBelow) hOuter hChild hAlike
  · rcases hOtherLies with ⟨hWay, hOtherHere⟩ | ⟨m, -, -, hOtherBelow, -⟩
    · exact (doubles_of_inner hOther h hNames.symm hWay (hOtherHere.symm.trans hBelow) hTarget hChild
        hAlike).symm
    · exact hPlaces (Place.child_injective (hBelow.symm.trans hOtherBelow)).1

/-! ### Accounting for tables -/

/-- The spots of the tables that can define a structure. -/
def qualifyingSpots (corpus : Corpus) : List Spot :=
  corpus.spots.filter fun spot => (corpus.tableAt? spot).any fun table =>
    (Shape.ofTable? table).isSome

/-- A taking reads a table that another one of the ledger reads, and doubles it. -/
def doubled (corpus : Corpus) (ledger : List Taking) (taking : Taking) : Bool :=
  ledger.any fun other => corpus.spot? taking == corpus.spot? other && taking.doubles other

/-- A structure comes from the section at the place of a taking and from the table at its spot. -/
def AccountsFor (corpus : Corpus) (registry : Registry) (s : Structure) (taking : Taking) : Prop :=
  ∃ document visit spot table shape,
    corpus.targetAt? taking.place = some (.ofVisit corpus.nesting document.path visit) ∧
    corpus.spot? taking = some spot ∧ corpus.tableAt? spot = some table ∧
    corpus.ComesFrom registry s document visit table shape

/-- Each structure comes from the table of its taking.  No two takings of the ledger read the same
table, unless one of them doubles the other.  So there are not more structures than tables that can
define one and takings that are doubled. -/
structure TablesShared (corpus : Corpus) (registry : Registry) (ledger : List Taking) : Prop where
  each : List.Forall₂ (corpus.AccountsFor registry) registry.structures ledger
  nodup : ledger.Nodup
  shared : ∀ taking ∈ ledger, ∀ other ∈ ledger, taking ≠ other →
    corpus.spot? taking = corpus.spot? other → taking.doubles other ∨ other.doubles taking
  length_le : registry.structures.length ≤
    corpus.qualifyingSpots.length + ledger.countP (corpus.doubled ledger)

/-- **A structure that stands for the resource of a taking is accounted for by it.** -/
theorem Gives.accountsFor (h : corpus.Gives taking resource) {registry : Registry} {s : Structure}
    (hStands : registry.Stands corpus.index [] s resource) (hSource : s.source = resource.source) :
    corpus.AccountsFor registry s taking := by
  obtain ⟨spot, hSpot, hTable⟩ := exists_spot? h.resource
  obtain ⟨target, hTarget, hResource⟩ := h.exists_target
  obtain ⟨document, visit, hDocument, hVisit, rfl⟩ := targetAt?_eq_some.mp hTarget
  exact ⟨document, visit, spot, _, _, hTarget, hSpot, hTable,
    comesFrom_of_offers (List.mem_of_getElem? hDocument) (Section.mem_walk_of_visitAt? hVisit)
      (Target.offers_of_resourceBy? hResource) hStands hSource⟩

theorem mem_qualifyingSpots (h : corpus.Gives taking resource) :
    ∃ spot ∈ corpus.qualifyingSpots, corpus.spot? taking = some spot := by
  obtain ⟨spot, hSpot, hTable⟩ := exists_spot? h.resource
  obtain ⟨target, -, hResource⟩ := h.exists_target
  refine ⟨spot, List.mem_filter.mpr ⟨mem_spots.mpr (by rw [hTable]; rfl), ?_⟩, hSpot⟩
  rw [hTable, Option.any_some, (Target.offers_of_resourceBy? hResource).shape]
  rfl

theorem length_le_add_countP {α β : Type} {l : List α} {places : List β} {f : α → β} {p : α → Bool}
    (hNodup : l.Nodup) (hMaps : ∀ a ∈ l, f a ∈ places)
    (hApart : ∀ a ∈ l, ∀ b ∈ l, a ≠ b → f a = f b → p a ∨ p b) :
    l.length ≤ places.length + l.countP p := by
  have hRest : (l.filter fun a => !p a).length ≤ places.length := by
    have hImages : ((l.filter fun a => !p a).map f).Nodup := by
      refine List.Nodup.map_on (fun a ha b hb hSame => ?_) (hNodup.filter _)
      obtain ⟨haMem, ha⟩ := List.mem_filter.mp ha
      obtain ⟨hbMem, hb⟩ := List.mem_filter.mp hb
      by_contra hOther
      rcases hApart a haMem b hbMem hOther hSame with hCounted | hCounted
      · simp [hCounted] at ha
      · simp [hCounted] at hb
    rw [← List.length_map (f := f)]
    refine (List.subperm_of_subset hImages fun place hPlace => ?_).length_le
    obtain ⟨a, ha, rfl⟩ := List.mem_map.mp hPlace
    exact hMaps a (List.mem_of_mem_filter ha)
  have hSplit := List.length_eq_length_filter_add (l := l) p
  rw [List.countP_eq_length_filter]
  omega

end Corpus

namespace Tally.Settled

variable {corpus : Corpus} {tally : Tally} {i j : Nat} {taking other : Taking}

theorem exists_stands (h : tally.Settled corpus) (hi : tally.takings[i]? = some taking) :
    ∃ s resource, tally.registry.structure? i = some s ∧ corpus.Gives taking resource ∧
      tally.registry.Stands corpus.index [] s resource ∧ s.source = resource.source := by
  obtain ⟨made, hRecords, hTakings⟩ := h
  obtain ⟨hLength, hGet⟩ := List.forall₂_iff_get.mp hTakings
  obtain ⟨hLt, rfl⟩ := List.getElem?_eq_some_iff.mp hi
  have hMadeLt : i < made.length := hLength ▸ hLt
  have hMade : made[i]? = some made[i] := List.getElem?_eq_getElem hMadeLt
  have hLtStructures : i < tally.registry.structures.length := hRecords.length_eq ▸ hMadeLt
  have hs : tally.registry.structure? i = some tally.registry.structures[i] :=
    List.getElem?_eq_getElem hLtStructures
  exact ⟨_, _, hs, hGet i hLt hMadeLt, hRecords.stands hs hMade, hRecords.source_eq hs hMade⟩

theorem length_eq (h : tally.Settled corpus) :
    tally.registry.structures.length = tally.takings.length := by
  obtain ⟨made, hRecords, hTakings⟩ := h
  exact hRecords.length_eq.trans hTakings.length_eq.symm

/-- **Different structures have takings that lead to different names.** -/
theorem eq_of_name_eq (h : tally.Settled corpus) (hi : tally.takings[i]? = some taking)
    (hj : tally.takings[j]? = some other) {resource shared : Resource}
    (hResource : corpus.resource? taking = some resource)
    (hShared : corpus.resource? other = some shared) (hName : resource.name = shared.name) :
    i = j := by
  have hIndexed : tally.registry.Indexed := h.elim fun _ hRecords => hRecords.1.indexed
  obtain ⟨s, first, hs, hFirst, hsStands, -⟩ := h.exists_stands hi
  obtain ⟨t, second, ht, hSecond, htStands, -⟩ := h.exists_stands hj
  rw [hFirst.resource, Option.some.injEq] at hResource
  rw [hSecond.resource, Option.some.injEq] at hShared
  refine hIndexed.eq_of_name_eq hs ht ?_
  rw [hsStands.name, htStands.name, hResource, hShared, hName]

/-- **Every structure is accounted for.** -/
theorem forall₂_accountsFor (h : tally.Settled corpus) :
    List.Forall₂ (corpus.AccountsFor tally.registry) tally.registry.structures tally.takings := by
  refine List.forall₂_iff_get.mpr ⟨h.length_eq, fun i hi hj => ?_⟩
  obtain ⟨s, resource, hs, hGives, hStands, hSource⟩ := h.exists_stands (List.getElem?_eq_getElem hj)
  have hSame : tally.registry.structures[i] = s := (List.getElem?_eq_some_iff.mp hs).2
  rw [List.get_eq_getElem, hSame]
  exact hGives.accountsFor hStands hSource

theorem nodup_takings (h : tally.Settled corpus) : tally.takings.Nodup := by
  rw [List.Nodup, List.pairwise_iff_getElem]
  intro i j hi hj hLt hSame
  obtain ⟨-, resource, -, hGives, -, -⟩ := h.exists_stands (List.getElem?_eq_getElem hi)
  have hOther : tally.takings[j]? = some tally.takings[i] := by
    rw [hSame]
    exact List.getElem?_eq_getElem hj
  have hEq := h.eq_of_name_eq (List.getElem?_eq_getElem hi) hOther hGives.resource hGives.resource rfl
  omega

/-- **Different takings share a table only if one of them doubles the other.** -/
theorem doubles_of_spot?_eq (h : tally.Settled corpus) (hTaking : taking ∈ tally.takings)
    (hOther : other ∈ tally.takings) (hNe : taking ≠ other)
    (hSpot : corpus.spot? taking = corpus.spot? other) :
    taking.doubles other ∨ other.doubles taking := by
  obtain ⟨i, hi⟩ := List.mem_iff_getElem?.mp hTaking
  obtain ⟨j, hj⟩ := List.mem_iff_getElem?.mp hOther
  obtain ⟨-, resource, -, hGives, -, -⟩ := h.exists_stands hi
  obtain ⟨-, shared, -, hShared, -, -⟩ := h.exists_stands hj
  refine Corpus.doubles_of_spot?_eq hGives hShared (fun hName => hNe ?_) hSpot
  obtain rfl := h.eq_of_name_eq hi hj hGives.resource hShared.resource hName
  exact Option.some.inj (hi.symm.trans hj)

end Tally.Settled

namespace Corpus

/-- **Every structure of a compilation comes from a table of its own**, unless its taking doubles
another one. -/
theorem tablesShared_compile (corpus : Corpus) :
    corpus.TablesShared (corpus.compile .everything).registry corpus.ledger := by
  have hSettled := corpus.settled_tally
  rw [← registry_tally]
  have hShared (taking : Taking) (hTaking : taking ∈ corpus.ledger) (other : Taking)
      (hOther : other ∈ corpus.ledger) (hNe : taking ≠ other)
      (hSpot : corpus.spot? taking = corpus.spot? other) :
      taking.doubles other ∨ other.doubles taking :=
    hSettled.doubles_of_spot?_eq hTaking hOther hNe hSpot
  refine ⟨hSettled.forall₂_accountsFor, hSettled.nodup_takings, hShared, ?_⟩
  have hSpots (taking : Taking) (hTaking : taking ∈ corpus.ledger) :
      corpus.spot? taking ∈ corpus.qualifyingSpots.map some := by
    obtain ⟨i, hi⟩ := List.mem_iff_getElem?.mp hTaking
    obtain ⟨-, resource, -, hGives, -, -⟩ := hSettled.exists_stands hi
    obtain ⟨spot, hMem, hSpot⟩ := mem_qualifyingSpots hGives
    exact hSpot ▸ List.mem_map_of_mem hMem
  have hDoubled {taking other : Taking} (hOther : other ∈ corpus.ledger)
      (hSpot : corpus.spot? taking = corpus.spot? other) (h : taking.doubles other) :
      corpus.doubled corpus.ledger taking :=
    List.any_eq_true.mpr ⟨other, hOther, by rw [hSpot, beq_self_eq_true, h, Bool.and_self]⟩
  have hCount := length_le_add_countP (p := corpus.doubled corpus.ledger) hSettled.nodup_takings hSpots
    fun taking hTaking other hOther hNe hSpot =>
      (hShared taking hTaking other hOther hNe hSpot).imp (hDoubled hOther hSpot)
        (hDoubled hTaking hSpot.symm)
  rw [List.length_map] at hCount
  rw [hSettled.length_eq]
  exact hCount

/-! ### Shared tables -/

/-- A heading over a section with values, and a section before it that links to the heading. -/
def stickers : Corpus :=
  ⟨[.ofLines "a.md" ["## Pack", "| Field | Type |", "|---|---|", "| type | [stickers](#A/stickers) |",
    "## Stickers", "### Sticker Type", "| Name | Value |", "|---|---|", "| PNG | 1 |"]], 1⟩

theorem exists_stickers : ∃ id s, (stickers.compile .everything).registry.Holds id s ∧
    s.name = "Stickers" := by
  let pack : Resource :=
    ⟨"Pack", .fields, ⟨["Field", "Type"], [["type", "[stickers](#A/stickers)"]]⟩, "a.md", "A/pack"⟩
  have hFirst : stickers.subjects.head?.map Target.asked = some [pack] := by
    decide +kernel
  have hWritten : Written stickers.index (.leaf (.named "Stickers")) "[stickers](#A/stickers)" :=
    @Written.of_nameAt? stickers.index "stickers" "#A/stickers" "Stickers" (by decide +kernel)
      (by decide +kernel) (by decide +kernel) "" (by decide)
  have hKey : pack.key? ["type", "[stickers](#A/stickers)"] = some ("type", false) := by
    decide +kernel
  have hCell : pack.table.cell? ["type", "[stickers](#A/stickers)"] pack.shape.value =
      some "[stickers](#A/stickers)" := by
    decide +kernel
  obtain ⟨id, s, hHolds, hName, -⟩ :=
    exists_of_first_link hFirst rfl rfl hKey hCell hWritten (by decide)
  exact ⟨id, s, hHolds, hName⟩

theorem spot?_stickers {taking : Taking} {resource : Resource}
    (h : stickers.resource? taking = some resource)
    (hName : resource.name = "Stickers" ∨ resource.name = "StickerType") :
    stickers.spot? taking = some ⟨⟨0, [1, 0]⟩, 0⟩ := by
  have hAll : ∀ place ∈ stickers.places, ∀ way ∈ [Way.own, .body, .query, .linked],
      (stickers.resource? ⟨way, place⟩).any
        (fun resource => resource.name == "Stickers" || resource.name == "StickerType") →
      stickers.spot? ⟨way, place⟩ = some ⟨⟨0, [1, 0]⟩, 0⟩ := by
    decide +kernel
  obtain ⟨way, place⟩ := taking
  obtain ⟨target, hTarget, -⟩ := Option.bind_eq_some_iff.mp h
  have hPlace : place ∈ stickers.places := mem_places.mpr (Option.isSome_iff_exists.mpr ⟨target, hTarget⟩)
  refine hAll place hPlace way (by cases way <;> decide) ?_
  rw [h, Option.any_some, Bool.or_eq_true, beq_iff_eq, beq_iff_eq]
  exact hName

theorem exists_taking_stickers {id : Nat} {s : Structure}
    (hs : (stickers.compile .everything).registry.structure? id = some s)
    (hName : s.name = "Stickers" ∨ s.name = "StickerType") :
    ∃ taking, stickers.ledger[id]? = some taking ∧
      stickers.spot? taking = some ⟨⟨0, [1, 0]⟩, 0⟩ := by
  have hSettled := stickers.settled_tally
  rw [← registry_tally] at hs
  have hLt : id < stickers.ledger.length := hSettled.length_eq ▸ Registry.lt_of_structure? hs
  have hTaking : stickers.ledger[id]? = some stickers.ledger[id] := List.getElem?_eq_getElem hLt
  obtain ⟨same, resource, hSame, hGives, hStands, -⟩ := hSettled.exists_stands hTaking
  rw [hs, Option.some.injEq] at hSame
  rw [hSame, hStands.name] at hName
  exact ⟨_, hTaking, spot?_stickers hGives.resource hName⟩

/-- **Two structures may come from one table, and there may be more structures than tables.** -/
theorem exists_shared_stickers :
    (∃ (i j : Nat) (first second : Taking) (spot : Spot), i ≠ j ∧
      ((stickers.compile .everything).registry.structure? i).map Structure.name = some "Stickers" ∧
      ((stickers.compile .everything).registry.structure? j).map Structure.name =
        some "StickerType" ∧
      stickers.ledger[i]? = some first ∧ stickers.ledger[j]? = some second ∧
      stickers.spot? first = some spot ∧ stickers.spot? second = some spot) ∧
    stickers.qualifyingSpots.length < (stickers.compile .everything).registry.structures.length := by
  obtain ⟨i, s, ⟨hIndexed, hs⟩, hStickers⟩ := exists_stickers
  have hRegistered {resource : Resource} (h : stickers.Asks resource) :
      ∃ id s, (stickers.compile .everything).registry.structure? id = some s ∧
        s.name = resource.name := by
    obtain ⟨id, hId⟩ := Option.isSome_iff_exists.mp (has_compile_of_asks h)
    exact ⟨id, hIndexed.idOf?_iff.mp hId⟩
  have hTypeAsked : stickers.Asks
      ⟨"StickerType", .names, ⟨["Name", "Value"], [["PNG", "1"]]⟩, "a.md", "A/sticker-type"⟩ := by
    unfold Asks
    decide +kernel
  have hPackAsked : stickers.Asks
      ⟨"Pack", .fields, ⟨["Field", "Type"], [["type", "[stickers](#A/stickers)"]]⟩, "a.md",
        "A/pack"⟩ := by
    unfold Asks
    decide +kernel
  obtain ⟨j, t, ht, hType⟩ := hRegistered hTypeAsked
  obtain ⟨k, u, hu, hPack⟩ := hRegistered hPackAsked
  have hOther {a b : Nat} {x y : Structure}
      (hx : (stickers.compile .everything).registry.structure? a = some x)
      (hy : (stickers.compile .everything).registry.structure? b = some y) (hNe : x.name ≠ y.name) :
      a ≠ b := by
    rintro rfl
    rw [hx, Option.some.injEq] at hy
    exact hNe (congrArg Structure.name hy)
  have hij : i ≠ j := hOther hs ht (by rw [hStickers, hType]; decide)
  obtain ⟨first, hFirst, hFirstSpot⟩ := exists_taking_stickers hs (Or.inl hStickers)
  obtain ⟨second, hSecond, hSecondSpot⟩ := exists_taking_stickers ht (Or.inr hType)
  refine ⟨⟨i, j, first, second, _, hij, ?_, ?_, hFirst, hSecond, hFirstSpot, hSecondSpot⟩, ?_⟩
  · rw [hs, Option.map_some, hStickers]
  · rw [ht, Option.map_some, hType]
  · have hik : i ≠ k := hOther hs hu (by rw [hStickers, hPack]; decide)
    have hjk : j ≠ k := hOther ht hu (by rw [hType, hPack]; decide)
    have hi := Registry.lt_of_structure? hs
    have hj := Registry.lt_of_structure? ht
    have hk := Registry.lt_of_structure? hu
    have hTables : stickers.qualifyingSpots.length = 2 := by
      decide +kernel
    omega

end Corpus

end ProseTypes
