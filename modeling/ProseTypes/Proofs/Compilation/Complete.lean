import ProseTypes.Proofs.Compilation.Requests
import ProseTypes.Proofs.Phrase.Linkless

/-!
# A compilation of everything is complete

A section outside requests that has a table and a name of its own defines a structure
(`Target.Defines`), and a compilation of everything registers it, whatever links have led to before.

If the sources contain no opening square bracket, nothing links to anything (`Corpus.Linkless`).  Then
the structures stand for the resources that sections ask for, without those whose name came before:
the first resource of a name is the one that was declared (`Registry.RecordsFirst.serveAll`).  So
nothing else is registered, and each structure comes from the first section that defines it
(`Corpus.complete_compile`).
-/

namespace ProseTypes

variable {index : LinkIndex}

/-! ### What sections define -/

/-- A section defines a structure: it is not the root of a document, neither it nor a section around
it is a request, it has a table of its own, and its title gives the name. -/
structure Target.Defines (target : Target) (name : String) (choice : Table × Shape) : Prop where
  nested : target.visit.ancestors ≠ []
  plain : target.here.requestTitle? = none
  outside : ∀ a ∈ target.visit.ancestors, a.requestTitle? = none
  table : target.here.ownTable? = some choice
  name : Name.ofTitle? target.here.title = some name

/-- The resource that a choice among a section's tables makes. -/
def Target.resourceOf (target : Target) (name : String) (choice : Table × Shape) : Resource :=
  ⟨name, choice.2, choice.1, target.path, target.anchor⟩

theorem Target.named_eq_ok {target : Target} {choice : Table × Shape} {resource : Resource} :
    target.named choice = .ok resource ↔ ∃ name, Name.ofTitle? target.here.title = some name ∧
      resource = target.resourceOf name choice := by
  unfold named
  cases Name.ofTitle? target.here.title with
  | none => simp
  | some name => simp [resourceOf, eq_comm]

/-- **What a section defines, it is asked for.** -/
theorem Target.Defines.mem_asked {target : Target} {name : String} {choice : Table × Shape}
    (h : target.Defines name choice) : target.resourceOf name choice ∈ target.asked := by
  have hNamed : target.named choice = .ok (target.resourceOf name choice) :=
    named_eq_ok.mpr ⟨name, h.name, rfl⟩
  have hOwn : target.own? = some (target.resourceOf name choice) := by
    rw [own?, h.table, Option.bind_some, hNamed]
    rfl
  rw [asked, h.plain]
  exact Option.mem_toList.mpr hOwn

namespace Corpus

/-- The names of the structures that are registered for the bodies and queries of requests. -/
def requestNames (corpus : Corpus) : List String :=
  corpus.requestResources.map Resource.name

theorem mem_requestNames_of_asked {corpus : Corpus} {target : Target}
    (hTarget : target ∈ corpus.subjects) {title : RequestTitle}
    (hTitle : target.here.requestTitle? = some title) {resource : Resource}
    (hAsked : resource ∈ target.asked) : resource.name ∈ corpus.requestNames := by
  rw [Target.asked, hTitle] at hAsked
  refine List.mem_map_of_mem (List.mem_flatMap.mpr ⟨target, hTarget, ?_⟩)
  rw [hTitle]
  exact hAsked

theorem has_of_mem_requestNames {corpus : Corpus} {name : String} (h : name ∈ corpus.requestNames) :
    (corpus.compile .everything).registry.has name := by
  obtain ⟨resource, hResource, rfl⟩ := List.mem_map.mp h
  obtain ⟨target, hTarget, hAsked⟩ := List.mem_flatMap.mp hResource
  refine has_compile_of_asks ⟨target, hTarget, ?_⟩
  rw [Target.asked]
  split
  · rename_i title hTitle
    rwa [hTitle] at hAsked
  · rename_i hTitle
    rw [hTitle] at hAsked
    cases hAsked

/-- The sections that a compilation of sources takes are those outside requests, without the roots
of documents. -/
theorem mem_subjects_ofSources {sources : List Source} {nesting : Nat} {target : Target}
    (h : target ∈ (ofSources sources nesting).targets) :
    target ∈ (ofSources sources nesting).subjects ↔ target.visit.ancestors ≠ [] ∧
      ∀ a ∈ target.visit.ancestors, a.requestTitle? = none := by
  obtain ⟨source, -, visit, hVisit, rfl⟩ := exists_source_of_mem_targets h
  have hLevel : visit.here.level ≠ 0 ↔ visit.ancestors ≠ [] := by
    rcases Document.root_or_deeper hVisit with ⟨hZero, -, hTop⟩ | ⟨hDeep, hBelow⟩
    · simp [hZero, hTop]
    · simp [hDeep, hBelow]
  simp only [subjects, List.mem_filter, Bool.and_eq_true, bne_iff_ne, Bool.not_eq_true',
    List.any_eq_false, Bool.not_eq_true, Option.isSome_eq_false_iff, Option.isNone_iff_eq_none]
  constructor
  · rintro ⟨-, hDeep, hOutside⟩
    exact ⟨hLevel.mp hDeep, hOutside⟩
  · rintro ⟨hBelow, hOutside⟩
    exact ⟨h, hLevel.mpr hBelow, hOutside⟩

/-- **A section that a compilation of sources takes for no request defines what it is asked for.** -/
theorem exists_defines {sources : List Source} {nesting : Nat} {target : Target}
    (hTarget : target ∈ (ofSources sources nesting).subjects)
    (hTitle : target.here.requestTitle? = none) {resource : Resource}
    (hAsked : resource ∈ target.asked) : ∃ choice, target.Defines resource.name choice ∧
      resource = target.resourceOf resource.name choice := by
  obtain ⟨hNested, hOutside⟩ :=
    (mem_subjects_ofSources (mem_targets_of_mem_subjects hTarget)).mp hTarget
  rw [Target.asked, hTitle] at hAsked
  obtain ⟨choice, hChoice, hNamed⟩ := Option.bind_eq_some_iff.mp (Option.mem_toList.mp hAsked)
  obtain ⟨name, hName, rfl⟩ := Target.named_eq_ok.mp (ok_of_toOption_eq_some hNamed)
  exact ⟨choice, ⟨hNested, hTitle, hOutside, hChoice, hName⟩, rfl⟩

end Corpus

/-! ### Corpora without links -/

/-- Nothing that a compilation asks for by itself links to anything. -/
def Corpus.Linkless (corpus : Corpus) : Prop :=
  ∀ target ∈ corpus.subjects, (∀ resource ∈ target.asked, resource.links corpus.index = []) ∧
    target.responseLinks corpus.index = []

theorem Resource.links_eq_nil {resource : Resource}
    (h : ∀ row ∈ resource.table.rows, ∀ cell ∈ row, '[' ∉ cell.toList) :
    resource.links index = [] := by
  rw [links, List.flatMap_eq_nil_iff]
  intro field hField
  unfold draft at hField
  split at hField
  · obtain ⟨row, hRow, hMade⟩ := List.mem_filterMap.mp hField
    obtain ⟨key, -, rfl⟩ := Option.map_eq_some_iff.mp hMade
    unfold typeOf
    cases hCell : resource.table.cell? row resource.shape.value with
    | none => rfl
    | some cell =>
      obtain ⟨i, -, hi⟩ := Option.bind_eq_some_iff.mp hCell
      exact Reading.links_ofPhrase_eq_nil (h row hRow cell (List.mem_of_getElem? hi))
  · cases hField

/-- **Sources without an opening bracket link to nothing.** -/
theorem Corpus.linkless_ofSources {sources : List Source}
    (h : ∀ source ∈ sources, ∀ line ∈ source.lines, '[' ∉ line.toList) (nesting : Nat) :
    (ofSources sources nesting).Linkless := by
  intro target hTarget
  obtain ⟨source, hSource, visit, hVisit, rfl⟩ :=
    exists_source_of_mem_targets (mem_targets_of_mem_subjects hTarget)
  have hLines : ¬∃ line ∈ source.lines, '[' ∈ line.toList :=
    fun ⟨line, hLine, hBracket⟩ => h source hSource line hLine hBracket
  constructor
  · intro resource hAsked
    refine Resource.links_eq_nil fun row hRow cell hCell hBracket => ?_
    rcases List.mem_append.mp (Target.offers_of_asked hAsked).table_mem with hTable | hTable
    · have hOrigin := Document.mem_cell hVisit hTable hRow hCell hBracket
      exact hOrigin.elim (by decide) hLines
    · obtain ⟨child, hChild, hTable⟩ := List.mem_flatMap.mp hTable
      have hBelow := Section.mem_walk_of_mem_sections hVisit hChild
      have hOrigin := Document.mem_cell hBelow hTable hRow hCell hBracket
      exact hOrigin.elim (by decide) hLines
  · rw [Target.responseLinks, List.flatMap_eq_nil_iff]
    intro phrase hPhrase
    obtain ⟨title, -, hNamed⟩ := Option.bind_eq_some_iff.mp (Option.mem_toList.mp hPhrase)
    obtain ⟨paragraph, hParagraph, hCut⟩ := List.exists_of_findSome?_eq_some hNamed
    refine Reading.links_ofPhrase_eq_nil fun hBracket => ?_
    have hOrigin := Document.mem_text hVisit hParagraph (Response.phrase?_subset hCut hBracket)
    exact hOrigin.elim (by decide) hLines

/-! ### The first resource of a name -/

def Resource.first? (name : String) (resources : List Resource) : Option Resource :=
  resources.find? fun resource => resource.name == name

theorem Resource.first?_append (name : String) (before after : List Resource) :
    first? name (before ++ after) = (first? name before).or (first? name after) :=
  List.find?_append

namespace Registry

variable {registry : Registry} {made seen : List Resource}

/-- The structures stand for the first resources of their names among those seen so far. -/
def RecordsFirst (registry : Registry) (index : LinkIndex) (seen : List Resource) : Prop :=
  ∃ made, registry.Records index [] made ∧
    ∀ name, Resource.first? name made = Resource.first? name seen

/-- **A resource that links to nothing is declared unless its name came before.** -/
theorem RecordsFirst.enter (h : registry.RecordsFirst index seen) {resource : Resource}
    (hLinks : resource.links index = []) :
    (registry.enter index resource).RecordsFirst index (seen ++ [resource]) := by
  obtain ⟨made, hMade, hFirst⟩ := h
  by_cases hKnown : registry.has resource.name
  · rw [enter_of_has hKnown]
    refine ⟨made, hMade, fun name => ?_⟩
    rw [hFirst, Resource.first?_append]
    by_cases hSame : resource.name = name
    · have hMem : resource.name ∈ made.map Resource.name := by
        rw [← hMade.names_eq]
        exact hMade.indexed.has_iff.mp hKnown
      obtain ⟨other, hOther, hEq⟩ := List.mem_map.mp hMem
      have hSome : (Resource.first? name seen).isSome := by
        rw [← hFirst, Resource.first?, List.find?_isSome]
        exact ⟨other, hOther, by rw [hEq, hSame, beq_self_eq_true]⟩
      rw [Option.or_of_isSome hSome]
    · have hNone : Resource.first? name [resource] = none := by simp [Resource.first?, hSame]
      rw [hNone, Option.or_none]
  · have hDeclared := hMade.declare (idOf?_of_not_has hKnown)
    rw [enter_of_new hKnown, hLinks, reach_nil]
    refine ⟨made ++ [resource], hDeclared.completeAs ?_, fun name => ?_⟩
    · intro linked hLinked
      rw [hLinks] at hLinked
      cases hLinked
    · rw [Resource.first?_append, Resource.first?_append, hFirst]

/-- **So a pass over sections that link to nothing declares the first resource of each name**. -/
theorem RecordsFirst.serveAll (h : registry.RecordsFirst index seen) {targets : List Target}
    (hLinkless : ∀ target ∈ targets, (∀ resource ∈ target.asked, resource.links index = []) ∧
      target.responseLinks index = []) :
    (registry.serveAll index targets).RecordsFirst index (seen ++ targets.flatMap Target.asked) := by
  have hAll (resources : List Resource) (hLinks : ∀ resource ∈ resources, resource.links index = [])
      (r : Registry) (before : List Resource) (hr : r.RecordsFirst index before) :
      (r.enterAll index resources).RecordsFirst index (before ++ resources) := by
    induction resources generalizing r before with
    | nil => rwa [List.append_nil]
    | cons first rest ih =>
      have hAfter := ih (fun resource hMem => hLinks resource (List.mem_cons_of_mem _ hMem)) _ _
        (hr.enter (hLinks first List.mem_cons_self))
      rwa [List.append_assoc, List.singleton_append] at hAfter
  induction targets generalizing registry seen with
  | nil => rwa [List.flatMap_nil, List.append_nil]
  | cons first rest ih =>
    obtain ⟨hAsked, hResponse⟩ := hLinkless first List.mem_cons_self
    have hServed : (registry.serve index first).RecordsFirst index (seen ++ first.asked) := by
      rw [serve, hResponse, reach_nil]
      exact hAll first.asked hAsked registry seen h
    have hRest := ih hServed fun target hMem => hLinkless target (List.mem_cons_of_mem _ hMem)
    rwa [List.append_assoc, ← List.flatMap_cons] at hRest

theorem RecordsFirst.exists_stands (h : registry.RecordsFirst index seen) {s : Structure}
    (hMem : s ∈ registry.structures) : ∃ resource, Resource.first? s.name seen = some resource ∧
      registry.Stands index [] s resource ∧ s.source = resource.source := by
  obtain ⟨made, hMade, hFirst⟩ := h
  obtain ⟨id, hs⟩ := List.mem_iff_getElem?.mp hMem
  obtain ⟨resource, hResource⟩ := hMade.exists_resource hs
  have hStands := hMade.stands hs hResource
  refine ⟨resource, ?_, hStands, hMade.source_eq hs hResource⟩
  rw [← hFirst]
  cases hFound : Resource.first? s.name made with
  | none =>
    have hNone := List.find?_eq_none.mp hFound resource (List.mem_of_getElem? hResource)
    exact absurd (beq_iff_eq.mpr hStands.name.symm) hNone
  | some other =>
    have hName : other.name = s.name := by simpa using List.find?_some hFound
    have hOther := hMade.getElem?_of_name hs (List.mem_of_find?_eq_some hFound) hName.symm
    rwa [hResource, eq_comm] at hOther

end Registry

/-! ### Completeness -/

theorem exists_first_of_find? {α β : Type} {p : α → Bool} {f : α → List β} {q : β → Bool}
    {l : List α} {b : β} (h : ((l.filter p).flatMap f).find? q = some b) :
    ∃ before a after, l = before ++ a :: after ∧ p a = true ∧ b ∈ f a ∧
      ∀ x ∈ before, p x = true → ∀ y ∈ f x, ¬q y = true := by
  induction l with
  | nil => cases h
  | cons first rest ih =>
    by_cases hFirst : p first = true
    · rw [List.filter_cons_of_pos hFirst, List.flatMap_cons, List.find?_append] at h
      cases hHere : (f first).find? q with
      | some c =>
        rw [hHere, Option.some_or] at h
        obtain rfl := Option.some.inj h
        exact ⟨[], first, rest, rfl, hFirst, List.mem_of_find?_eq_some hHere, by simp⟩
      | none =>
        rw [hHere, Option.none_or] at h
        obtain ⟨before, a, after, rfl, ha, hb, hBefore⟩ := ih h
        refine ⟨first :: before, a, after, rfl, ha, hb, fun x hx hKind => ?_⟩
        rcases List.mem_cons.mp hx with rfl | hx
        · exact List.find?_eq_none.mp hHere
        · exact hBefore x hx hKind
    · rw [List.filter_cons_of_neg hFirst] at h
      obtain ⟨before, a, after, rfl, ha, hb, hBefore⟩ := ih h
      refine ⟨first :: before, a, after, rfl, ha, hb, fun x hx hKind => ?_⟩
      rcases List.mem_cons.mp hx with rfl | hx
      · exact absurd hKind hFirst
      · exact hBefore x hx hKind

namespace Corpus

/-- A section of a document is the first, in the order of documents and of the walk through each, that
defines a structure of a name. -/
structure DefinesFirst (corpus : Corpus) (name : String) (document : Document) (visit : Visit)
    (choice : Table × Shape) : Prop where
  defines : (Target.ofVisit corpus.nesting document.path visit).Defines name choice
  first : ∃ before after,
    corpus.targets = before ++ Target.ofVisit corpus.nesting document.path visit :: after ∧
      ∀ earlier ∈ before, ∀ other, ¬earlier.Defines name other

variable {sources : List Source} {nesting : Nat}

/-- **What sections define is registered.** -/
theorem mem_names_of_defines {target : Target}
    (hTarget : target ∈ (ofSources sources nesting).targets) {name : String} {choice : Table × Shape}
    (h : target.Defines name choice) :
    name ∈ ((ofSources sources nesting).compile .everything).registry.names := by
  have hSubject := (mem_subjects_ofSources hTarget).mpr ⟨h.nested, h.outside⟩
  have hSound : ((ofSources sources nesting).compile .everything).Sound :=
    (ofSources sources nesting).sound_start.compileFrom
  exact hSound.registry.indexed.has_iff.mp (has_compile_of_asks ⟨target, hSubject, h.mem_asked⟩)

/-- **Where nothing links, a structure that no request asks for comes from the first section that
defines it.** -/
theorem exists_definesFirst (hLinkless : (ofSources sources nesting).Linkless) {s : Structure}
    (hMem : s ∈ ((ofSources sources nesting).compile .everything).registry.structures)
    (hName : s.name ∉ (ofSources sources nesting).requestNames) :
    ∃ document visit choice,
      (ofSources sources nesting).DefinesFirst s.name document visit choice ∧
      (ofSources sources nesting).ComesFrom
        ((ofSources sources nesting).compile .everything).registry s document visit choice.1
        choice.2 := by
  let corpus := ofSources sources nesting
  have hRecords : (corpus.compile .everything).registry.RecordsFirst corpus.index
      (corpus.subjects.flatMap Target.asked) := by
    rw [registry_compile, ← List.nil_append (corpus.subjects.flatMap _)]
    exact Registry.RecordsFirst.serveAll ⟨[], Registry.records_empty, fun _ => rfl⟩ hLinkless
  obtain ⟨resource, hFirst, hStands, hSource⟩ := hRecords.exists_stands hMem
  obtain ⟨before, target, after, hTargets, hTaken, hAsked, hBefore⟩ := exists_first_of_find? hFirst
  have hTarget : target ∈ corpus.targets := hTargets ▸ List.mem_append_right _ List.mem_cons_self
  have hSubject : target ∈ corpus.subjects := List.mem_filter.mpr ⟨hTarget, hTaken⟩
  have hTitle : target.here.requestTitle? = none := by
    cases hTitle : target.here.requestTitle? with
    | none => rfl
    | some title =>
      have hRequest := mem_requestNames_of_asked hSubject hTitle hAsked
      exact absurd (hStands.name ▸ hRequest) hName
  obtain ⟨choice, hDefines, hResource⟩ := exists_defines hSubject hTitle hAsked
  have hOffers := Target.offers_of_asked hAsked
  obtain ⟨document, hDocument, hVisited⟩ := List.mem_flatMap.mp hTarget
  obtain ⟨visit, hVisit, rfl⟩ := List.mem_map.mp hVisited
  refine ⟨document, visit, choice, ⟨hStands.name ▸ hDefines, before, after, hTargets, ?_⟩, ?_⟩
  · intro earlier hEarlier other hOther
    have hMember : earlier ∈ corpus.targets := hTargets ▸ List.mem_append_left _ hEarlier
    have hEarlierSubject := (mem_subjects_ofSources hMember).mpr ⟨hOther.nested, hOther.outside⟩
    exact hBefore earlier hEarlier (List.mem_filter.mp hEarlierSubject).2 _ hOther.mem_asked
      (beq_self_eq_true s.name)
  · have hFrom := comesFrom_of_offers hDocument hVisit hOffers hStands hSource
    rwa [hResource] at hFrom

/-- **A compilation of everything is complete**: it registers what sections define, and where no line
has an opening bracket, nothing else but the structures of requests.  Then each structure that no
request asks for is made from the table of the first section that defines it. -/
theorem complete_compile (sources : List Source) (nesting : Nat) :
    (∀ target ∈ (ofSources sources nesting).targets, ∀ name choice, target.Defines name choice →
      name ∈ ((ofSources sources nesting).compile .everything).registry.names) ∧
    ((∀ source ∈ sources, ∀ line ∈ source.lines, '[' ∉ line.toList) →
      (∀ name, name ∈ ((ofSources sources nesting).compile .everything).registry.names ↔
        (∃ target ∈ (ofSources sources nesting).targets, ∃ choice, target.Defines name choice) ∨
          name ∈ (ofSources sources nesting).requestNames) ∧
      ∀ s ∈ ((ofSources sources nesting).compile .everything).registry.structures,
        s.name ∉ (ofSources sources nesting).requestNames →
        ∃ document visit choice,
          (ofSources sources nesting).DefinesFirst s.name document visit choice ∧
          (ofSources sources nesting).ComesFrom
            ((ofSources sources nesting).compile .everything).registry s document visit choice.1
            choice.2) := by
  refine ⟨fun target hTarget name choice => mem_names_of_defines hTarget, fun hLines => ?_⟩
  have hLinkless := linkless_ofSources hLines nesting
  have hSound : ((ofSources sources nesting).compile .everything).Sound :=
    (ofSources sources nesting).sound_start.compileFrom
  refine ⟨fun name => ⟨fun hRegistered => ?_, ?_⟩, fun s hs => exists_definesFirst hLinkless hs⟩
  · by_cases hRequest : name ∈ (ofSources sources nesting).requestNames
    · exact Or.inr hRequest
    · obtain ⟨s, hs, rfl⟩ := List.mem_map.mp hRegistered
      obtain ⟨document, visit, choice, hFirst, -⟩ := exists_definesFirst hLinkless hs hRequest
      obtain ⟨before, after, hTargets, -⟩ := hFirst.first
      refine Or.inl ⟨_, ?_, choice, hFirst.defines⟩
      rw [hTargets]
      exact List.mem_append_right before List.mem_cons_self
  · rintro (⟨target, hTarget, choice, hDefines⟩ | hRequest)
    · exact mem_names_of_defines hTarget hDefines
    · exact hSound.registry.indexed.has_iff.mp (has_of_mem_requestNames hRequest)

/-- Two files with a section that defines the same structure. -/
def twoPacks : List Source :=
  [⟨"a.md", ["## Pack Object", "| Field | Type |", "|---|---|", "| id? | string |"]⟩,
    ⟨"b.md", ["# Packs", "## Pack Structure", "| Name | Value |", "|---|---|", "| A | 1 |"]⟩]

theorem complete_compile_twoPacks :
    (∀ source ∈ twoPacks, ∀ line ∈ source.lines, '[' ∉ line.toList) ∧
    ∃ s ∈ ((ofSources twoPacks 1).compile .everything).registry.structures, s.name = "Pack" ∧
      ∃ document visit choice, (ofSources twoPacks 1).DefinesFirst "Pack" document visit choice ∧
        (ofSources twoPacks 1).ComesFrom ((ofSources twoPacks 1).compile .everything).registry s
          document visit choice.1 choice.2 := by
  have hLines : ∀ source ∈ twoPacks, ∀ line ∈ source.lines, '[' ∉ line.toList := by
    decide +kernel
  obtain ⟨hDefined, hRest⟩ := complete_compile twoPacks 1
  obtain ⟨-, hPopulated⟩ := hRest hLines
  let facts (target : Target) : Bool × Bool × Bool × Bool × Option String :=
    (target.visit.ancestors.isEmpty, target.here.requestTitle?.isSome,
      target.visit.ancestors.any fun a => a.requestTitle?.isSome, target.here.ownTable?.isSome,
      target.name?)
  have hFacts : ((ofSources twoPacks 1).targets[1]?).map facts =
      some (false, false, false, true, some "Pack") := by
    decide +kernel
  obtain ⟨target, hTarget, hFacts⟩ := Option.map_eq_some_iff.mp hFacts
  simp only [facts, Prod.mk.injEq, List.isEmpty_eq_false_iff, Option.isSome_eq_false_iff,
    Option.isNone_iff_eq_none, List.any_eq_false, Bool.not_eq_true] at hFacts
  obtain ⟨hNested, hPlain, hOutside, hTable, hName⟩ := hFacts
  obtain ⟨choice, hChoice⟩ := Option.isSome_iff_exists.mp hTable
  have hPack := hDefined target (List.mem_of_getElem? hTarget) "Pack" choice
    ⟨hNested, hPlain, hOutside, hChoice, hName⟩
  obtain ⟨s, hs, hEq⟩ := List.mem_map.mp hPack
  have hRequests : (ofSources twoPacks 1).requestNames = [] := by
    decide +kernel
  have hFirst := hPopulated s hs (by simp [hRequests])
  rw [hEq] at hFirst
  exact ⟨hLines, s, hs, hEq, hFirst⟩

end Corpus

end ProseTypes
