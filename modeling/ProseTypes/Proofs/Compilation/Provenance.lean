import ProseTypes.Proofs.Compilation.History
import ProseTypes.Proofs.Compilation.Names

/-!
# From structures back to rows of tables

Whether the walk, a link or a request has led to a structure, it comes from one section: this gives
its source, its module and its name, and holds its table, or a section directly in it does
(`Target.Offers`).  Its members are the rows of the table that make one, in order
(`Registry.Stands.members`).  So every structure of a compilation can be traced back to the rows that
its members were read from (`Corpus.comesFrom_compile`).
-/

namespace ProseTypes

/-! ### The table that is chosen -/

/-- **A table is chosen by the first shape that fits it**, although interfaces come first among several
tables: where values are chosen, no table has fields. -/
theorem Shape.ofTable?_of_choose? {tables : List Table} {choice : Table × Shape}
    (h : choose? tables = some choice) :
    choice.1 ∈ tables ∧ ofTable? choice.1 = some choice.2 := by
  have hPick {group : List Shape} (hGroup : pick? group tables = some choice) :
      choice.1 ∈ tables ∧ group.find? (·.fits choice.1) = some choice.2 := by
    obtain ⟨table, hTable, hFound⟩ := List.exists_of_findSome?_eq_some hGroup
    obtain ⟨shape, hShape, rfl⟩ := Option.map_eq_some_iff.mp hFound
    exact ⟨hTable, hShape⟩
  have hGroups : ofTable? choice.1 = ([fields].find? (·.fits choice.1)).or
      ([names, flags].find? (·.fits choice.1)) := List.find?_append
  rw [choose?_eq] at h
  rw [hGroups]
  cases hFields : pick? [fields] tables with
  | some first =>
    rw [hFields, Option.some_or] at h
    obtain ⟨hTable, hShape⟩ := hPick (hFields.trans h)
    exact ⟨hTable, by rw [hShape, Option.some_or]⟩
  | none =>
    rw [hFields, Option.none_or] at h
    obtain ⟨hTable, hShape⟩ := hPick h
    refine ⟨hTable, ?_⟩
    have hNone : [fields].find? (·.fits choice.1) = none := by
      rw [List.find?_eq_none]
      intro shape hMem hFits
      rw [pick?_eq_none.mp hFields _ hTable shape hMem] at hFits
      cases hFits
    rw [hNone, Option.none_or, hShape]

theorem Shape.ofTable?_of_fits_fields {table : Table} (h : fields.fits table) :
    ofTable? table = some fields :=
  List.find?_cons_of_pos h

/-! ### Sections that offer resources -/

namespace Target

def tables (target : Target) : List Table :=
  target.here.tables ++ target.here.sections.flatMap Section.tables

/-- A section gives a resource its source and path, its name, and a table to read it from. -/
structure Offers (target : Target) (resource : Resource) : Prop where
  table_mem : resource.table ∈ target.tables
  shape : Shape.ofTable? resource.table = some resource.shape
  source : resource.source = target.anchor
  path : resource.path = target.path
  name : Name.ofTitle? target.here.title = some resource.name ∨
    ∃ title, target.here.requestTitle? = some title ∧
      resource.name ∈ Request.structureNames title

variable {target : Target} {resource : Resource}

theorem offers_of_named {choice : Table × Shape} (hTable : choice.1 ∈ target.tables)
    (hShape : Shape.ofTable? choice.1 = some choice.2) (h : target.named choice = .ok resource) :
    target.Offers resource := by
  have hName := ofTitle?_of_named h
  unfold named at h
  split at h
  · cases h
    exact ⟨hTable, hShape, rfl, rfl, Or.inl hName⟩
  · cases h

theorem offers_of_resource (h : target.resource = .ok resource) : target.Offers resource := by
  unfold Target.resource at h
  split at h
  · rename_i choice hChoice
    obtain ⟨hTable, hShape⟩ := Shape.ofTable?_of_choose? hChoice
    exact offers_of_named hTable hShape h
  · cases h

theorem offers_of_own? (h : target.own? = some resource) : target.Offers resource := by
  obtain ⟨choice, hChoice, hNamed⟩ := Option.bind_eq_some_iff.mp h
  obtain ⟨hTable, hShape⟩ := Shape.ofTable?_of_choose? hChoice
  refine offers_of_named ?_ hShape (ok_of_toOption_eq_some hNamed)
  -- The sections that name the same structure are some of those directly in this one.
  rcases List.mem_append.mp hTable with hOwn | hAlike
  · exact List.mem_append_left _ hOwn
  · obtain ⟨child, hChild, hTable⟩ := List.mem_flatMap.mp hAlike
    exact List.mem_append_right _ (List.mem_flatMap.mpr ⟨child, List.mem_of_mem_filter hChild, hTable⟩)

theorem offers_of_request {title : RequestTitle} (hTitle : target.here.requestTitle? = some title)
    (h : resource ∈ Request.resources target title) : target.Offers resource := by
  have hTable {announces : String → Bool} {table : Table}
      (hFound : Request.table? announces target.here = some table) :
      table ∈ target.tables ∧ Shape.ofTable? table = some .fields := by
    obtain ⟨child, hChild, hFits⟩ := List.exists_of_findSome?_eq_some hFound
    exact ⟨List.mem_append_right _ (List.mem_flatMap.mpr
      ⟨child, List.mem_of_mem_filter hChild, List.mem_of_find?_eq_some hFits⟩),
      Shape.ofTable?_of_fits_fields (List.find?_some hFits)⟩
  rcases List.mem_append.mp h with h | h
  · have hName := Request.name_mem_of_body? (Option.mem_toList.mp h)
    obtain ⟨table, hFound, rfl⟩ := Option.map_eq_some_iff.mp (Option.mem_toList.mp h)
    exact ⟨(hTable hFound).1, (hTable hFound).2, rfl, rfl, Or.inr ⟨title, hTitle, hName⟩⟩
  · have hName := Request.name_mem_of_query? (Option.mem_toList.mp h)
    obtain ⟨table, hFound, rfl⟩ := Option.map_eq_some_iff.mp (Option.mem_toList.mp h)
    exact ⟨(hTable hFound).1, (hTable hFound).2, rfl, rfl, Or.inr ⟨title, hTitle, hName⟩⟩

/-- **What a section asks for, it offers.** -/
theorem offers_of_asked (h : resource ∈ target.asked) : target.Offers resource := by
  unfold asked at h
  split at h
  · rename_i title hTitle
    exact offers_of_request hTitle h
  · exact offers_of_own? (Option.mem_toList.mp h)

end Target

/-- **The sections that are indexed are the first of their anchors.** -/
theorem LinkIndex.find?_of_mem_sift {targets : List Target} {seen : List String} {entry : Target}
    (h : entry ∈ (sift seen targets).1) : entry.anchor ∉ seen ∧
      targets.find? (fun target => target.anchor == entry.anchor) = some entry := by
  induction targets generalizing seen with
  | nil => cases h
  | cons first rest ih =>
    unfold sift at h
    split at h
    · rename_i hSeen
      obtain ⟨hNew, hFound⟩ := ih h
      have hOther : first.anchor ≠ entry.anchor := by
        intro hSame
        rw [hSame, List.contains_iff_mem] at hSeen
        exact hNew hSeen
      refine ⟨hNew, ?_⟩
      rw [List.find?_cons_of_neg (by simpa using hOther), hFound]
    · rename_i hSeen
      rcases List.mem_cons.mp h with rfl | h
      · exact ⟨by simpa using hSeen, List.find?_cons_of_pos (by simp)⟩
      · obtain ⟨hNew, hFound⟩ := ih h
        rw [List.mem_cons, not_or] at hNew
        refine ⟨hNew.2, ?_⟩
        rw [List.find?_cons_of_neg (by simpa using Ne.symm hNew.1), hFound]

/-- **A compilation gets only to what sections offer.** -/
theorem Corpus.Reaches.exists_offers {corpus : Corpus} {resource : Resource}
    (h : corpus.Reaches resource) : ∃ target ∈ corpus.targets, target.Offers resource := by
  rcases h with ⟨target, hTarget, hAsked⟩ | hLeads
  · exact ⟨target, mem_targets_of_mem_subjects hTarget, Target.offers_of_asked hAsked⟩
  · obtain ⟨target, hTarget, hResource⟩ := List.mem_filterMap.mp hLeads.mem_resources
    exact ⟨target, List.mem_of_find?_eq_some (LinkIndex.find?_of_mem_sift hTarget).2,
      Target.offers_of_resource (ok_of_toOption_eq_some hResource)⟩

/-! ### Members and rows -/

/-- Says whether a row makes a member: it has a usable key, and a value if it makes a constant. -/
def Shape.takes (shape : Shape) (table : Table) (row : List String) : Bool :=
  match shape.kind with
  | .interface => ((table.cell? row shape.key).bind Name.fieldKey?).isSome
  | .enumeration => ((table.cell? row shape.key).bind Name.ofConstant?).isSome &&
      (table.cell? row shape.value).any fun cell => !Text.isBlankLine cell

/-- A row makes a constant. -/
structure Shape.MakesConstant (shape : Shape) (table : Table) (row : List String)
    (constant : Constant) : Prop where
  name : (table.cell? row shape.key).bind Name.ofConstant? = some constant.name
  value : ∃ cell, table.cell? row shape.value = some cell ∧ constant.value = Value.ofCell cell
  description : constant.description =
    ((table.cell? row "description").map Text.trimmed).filter fun text => !text.isEmpty

namespace Corpus

/-- A row makes a field: its type is written like that of the phrase in the row, whatever has been
asked of the corpus before. -/
structure MakesField (corpus : Corpus) (shape : Shape) (table : Table) (row : List String)
    (field : Field Symbol) : Prop where
  key : (table.cell? row shape.key).bind Name.fieldKey? = some (field.key, field.optional)
  type : ∀ phrase, table.cell? row shape.value = some phrase → ∀ scope operations,
    field.type.text = ((corpus.perform scope operations).resolvePhrase corpus.index phrase).1.text
  unknown : table.cell? row shape.value = none → field.type = Symbol.unknown
  description : field.description =
    ((table.cell? row "description").map Text.trimmed).filter fun text => !text.isEmpty

/-- The members of a structure are made by the rows of a table that make one, in order. -/
inductive Members (corpus : Corpus) (shape : Shape) (table : Table) : Body Symbol → Prop where
  | interface {fields} : shape.kind = .interface →
      List.Forall₂ (corpus.MakesField shape table) (table.rows.filter (shape.takes table)) fields →
      Members corpus shape table (.interface fields)
  | enumeration {constants} : shape.kind = .enumeration →
      List.Forall₂ (shape.MakesConstant table) (table.rows.filter (shape.takes table)) constants →
      Members corpus shape table (.enumeration constants)

end Corpus

theorem forall₂_of_map_eq {α β γ δ : Type} {f : α → Option β} {g : β → δ} {h : γ → δ} {as : List α}
    {cs : List γ} (hEq : cs.map h = (as.filterMap f).map g) :
    List.Forall₂ (fun a c => ∃ b, f a = some b ∧ h c = g b) (as.filter fun a => (f a).isSome) cs := by
  induction as generalizing cs with
  | nil =>
    rw [List.filterMap_nil, List.map_nil, List.map_eq_nil_iff] at hEq
    rw [hEq]
    exact .nil
  | cons first rest ih =>
    cases hFirst : f first with
    | none =>
      rw [List.filterMap_cons_none hFirst] at hEq
      rw [List.filter_cons_of_neg (by simp [hFirst])]
      exact ih hEq
    | some b =>
      rw [List.filterMap_cons_some hFirst, List.map_cons] at hEq
      obtain ⟨c, others, rfl, hHead, hTail⟩ := List.map_eq_cons_iff.mp hEq
      rw [List.filter_cons_of_pos (by simp [hFirst])]
      exact .cons ⟨b, hFirst, hHead⟩ (ih hTail)

theorem Symbol.eq_unknown_of_named {s : Symbol} (h : s.named = .leaf .unknown) :
    s = Symbol.unknown := by
  obtain ⟨atom, rfl, hAtom⟩ := TypeTree.exists_leaf_of_map h
  cases atom with
  | unknown => rfl
  | primitive primitive => cases hAtom
  | named ref => cases hAtom

namespace Resource

variable {resource : Resource} {row : List String}

theorem isSome_field? (index : LinkIndex) (hKind : resource.shape.kind = .interface)
    (row : List String) : (resource.field? index row).isSome =
      resource.shape.takes resource.table row := by
  rw [field?, Option.isSome_map, Shape.takes, hKind]
  rfl

theorem isSome_constant? (hKind : resource.shape.kind = .enumeration) (row : List String) :
    (resource.constant? row).isSome = resource.shape.takes resource.table row := by
  rw [constant?, Shape.takes, hKind]
  unfold constantName? valueCell?
  cases (resource.table.cell? row resource.shape.key).bind Name.ofConstant? with
  | none => rfl
  | some name =>
    cases resource.table.cell? row resource.shape.value with
    | none => rfl
    | some cell => cases hBlank : Text.isBlankLine cell <;> simp [hBlank, Option.filter]

theorem makesConstant_of_constant? {constant : Constant} (h : resource.constant? row = some constant) :
    resource.shape.MakesConstant resource.table row constant := by
  obtain ⟨name, hName, h⟩ := Option.bind_eq_some_iff.mp h
  obtain ⟨cell, hValue, hConstant⟩ := Option.map_eq_some_iff.mp h
  obtain ⟨hCell, -⟩ := Option.filter_eq_some_iff.mp hValue
  rw [← hConstant]
  exact ⟨hName, ⟨cell, hCell, by dsimp only⟩, rfl⟩

/-- **A field with the type of a row by name is made by the row**, since a text shows names only. -/
theorem makesField_of_field? {corpus : Corpus} {field : Field Symbol}
    {draft : Field (Reading corpus.index)} (hDraft : resource.field? corpus.index row = some draft)
    (hSame : (⟨field.key, field.optional, field.type.named, field.description⟩ :
        Field (TypeTree (Atom String))) =
      ⟨draft.key, draft.optional, Reading.named draft.type, draft.description⟩) :
    corpus.MakesField resource.shape resource.table row field := by
  obtain ⟨key, hKey, rfl⟩ := Option.map_eq_some_iff.mp hDraft
  rw [Field.mk.injEq] at hSame
  obtain ⟨hName, hOptional, hType, hDescription⟩ := hSame
  constructor
  · rw [hName, hOptional]
    exact hKey
  · intro phrase hCell scope operations
    simp only [typeOf, hCell] at hType
    rw [(corpus.sound_perform scope operations).text_resolvePhrase, Reading.text_eq, Symbol.text_eq,
      hType]
  · intro hCell
    simp only [typeOf, hCell] at hType
    exact Symbol.eq_unknown_of_named hType
  · exact hDescription

end Resource

namespace Corpus

variable {corpus : Corpus}

/-- **The members of a completed structure are made by the rows of its table.** -/
theorem members_of_stands {registry : Registry} {s : Structure} {resource : Resource}
    (h : registry.Stands corpus.index [] s resource) :
    corpus.Members resource.shape resource.table s.body := by
  have hBody := h.body List.not_mem_nil
  have hKind := h.kind
  cases hMembers : s.body with
  | interface fields =>
    rw [hMembers] at hBody hKind
    have hTakes := Resource.isSome_field? corpus.index hKind.symm
    rw [Resource.draft, ← hKind] at hBody
    simp only [Body.kind, Body.map, Body.interface.injEq] at hBody
    refine .interface hKind.symm ?_
    have hRows := forall₂_of_map_eq hBody
    simp only [hTakes] at hRows
    refine hRows.imp fun row field hMade => ?_
    obtain ⟨draft, hDraft, hSame⟩ := hMade
    exact Resource.makesField_of_field? hDraft hSame
  | enumeration constants =>
    rw [hMembers] at hBody hKind
    have hTakes := Resource.isSome_constant? hKind.symm
    rw [Resource.draft, ← hKind] at hBody
    simp only [Body.kind, Body.map, Body.enumeration.injEq] at hBody
    refine .enumeration hKind.symm ?_
    have hSame : constants.map id = (resource.table.rows.filterMap resource.constant?).map id := by
      rw [List.map_id, List.map_id, hBody]
    have hRows := forall₂_of_map_eq hSame
    simp only [hTakes, id_eq] at hRows
    refine hRows.imp fun row constant hMade => ?_
    obtain ⟨same, hConstant, rfl⟩ := hMade
    exact Resource.makesConstant_of_constant? hConstant

/-! ### Where structures come from -/

/-- A structure comes from a section of a document and from a table: its source is the anchor of the
section, its module that of the document, its name that which the title gives, and its members are made
by the rows of the table. -/
structure ComesFrom (corpus : Corpus) (registry : Registry) (s : Structure) (document : Document)
    (visit : Visit) (table : Table) (shape : Shape) : Prop where
  document_mem : document ∈ corpus.documents
  visit_mem : visit ∈ document.walk
  table_mem : table ∈ visit.here.tables ++ visit.here.sections.flatMap Section.tables
  shape_eq : Shape.ofTable? table = some shape
  source : s.source = Anchor.normalize (Anchor.ofVisit corpus.nesting document.path visit)
  path : registry.modulePath? s = some (ModulePath.ofDocument document.path)
  name : Name.ofTitle? visit.here.title = some s.name ∨
    ∃ title, visit.here.requestTitle? = some title ∧ s.name ∈ Request.structureNames title
  members : corpus.Members shape table s.body

/-- **A structure that stands for a resource comes from the section that offers it.** -/
theorem comesFrom_of_offers {registry : Registry} {s : Structure} {resource : Resource}
    {document : Document} (hDocument : document ∈ corpus.documents) {visit : Visit}
    (hVisit : visit ∈ document.walk)
    (hOffers : (Target.ofVisit corpus.nesting document.path visit).Offers resource)
    (hStands : registry.Stands corpus.index [] s resource) (hSource : s.source = resource.source) :
    corpus.ComesFrom registry s document visit resource.table resource.shape where
  document_mem := hDocument
  visit_mem := hVisit
  table_mem := hOffers.table_mem
  shape_eq := hOffers.shape
  source := hSource.trans hOffers.source
  path := hStands.path.trans (by rw [hOffers.path]; rfl)
  name := by
    rw [hStands.name]
    exact hOffers.name
  members := members_of_stands hStands

/-- **Every structure of a compilation comes from a section and one of its tables.** -/
theorem comesFrom_compile (corpus : Corpus) (scope : Scope) :
    ∀ s ∈ (corpus.compile scope).registry.structures, ∃ document visit table shape,
      corpus.ComesFrom (corpus.compile scope).registry s document visit table shape := by
  intro s hMem
  obtain ⟨made, hMade, hRecords⟩ := corpus.exists_records_compile scope
  obtain ⟨id, hs⟩ := List.mem_iff_getElem?.mp hMem
  obtain ⟨resource, hResource⟩ := hRecords.exists_resource hs
  obtain ⟨target, hTarget, hOffers⟩ :=
    (hMade resource (List.mem_of_getElem? hResource)).exists_offers
  obtain ⟨document, hDocument, hTarget⟩ := List.mem_flatMap.mp hTarget
  obtain ⟨visit, hVisit, rfl⟩ := List.mem_map.mp hTarget
  exact ⟨document, visit, _, _, comesFrom_of_offers hDocument hVisit hOffers
    (hRecords.stands hs hResource) (hRecords.source_eq hs hResource)⟩

/-- A document whose first section is a heading over a section with a table. -/
def packs : Corpus :=
  ⟨[.ofLines "a.md" ["## Pack Object", "### Pack Structure", "| Field | Type | Description |",
    "|---|---|---|", "| | string |", "| id? |"]], 1⟩

theorem comesFrom_compile_packs : ∃ s ∈ (packs.compile .everything).registry.structures,
    s.name = "Pack" ∧ s.source = "A/pack-object" ∧
    s.body = .interface [⟨"id", true, Symbol.unknown, none⟩] ∧
    ∃ document visit table shape,
      packs.ComesFrom (packs.compile .everything).registry s document visit table shape := by
  let pack : Resource := ⟨"Pack", .fields,
    ⟨["Field", "Type", "Description"], [["", "string"], ["id?"]]⟩, "a.md", "A/pack-object"⟩
  let s : Structure := ⟨0, "Pack", 0, "A/pack-object", .interface [⟨"id", true, Symbol.unknown, none⟩]⟩
  have hFirst : packs.subjects.head?.map Target.asked = some [pack] := by
    decide +kernel
  have hLinks : pack.links packs.index = [] := by
    decide +kernel
  have hHolds : (Registry.empty.enter packs.index pack).Holds 0 s := by
    refine ⟨Registry.indexed_empty.enter pack, ?_⟩
    rw [Registry.enter_of_new (by decide), hLinks, Registry.reach_nil]
    decide +kernel
  have hMem : s ∈ (packs.compile .everything).registry.structures :=
    List.mem_of_getElem? (holds_compile_of_first hFirst hHolds).here
  exact ⟨s, hMem, rfl, rfl, rfl, packs.comesFrom_compile .everything s hMem⟩

end Corpus

end ProseTypes
