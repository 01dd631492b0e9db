import ProseTypes.Proofs.Compilation.Names
import ProseTypes.Proofs.Phrase.Grammar
import ProseTypes.Structure.Declaration

/-!
# Declarations do not depend on the order of documents

Compiling documents in another order registers the same names, and each of them gets the same
declaration in the module of the same path (`Corpus.sameDeclarations_of_perm`).  Different anchors
let links lead to the same sections in both orders, so both compilations get to the same resources
(`Corpus.reaches_of_perm`).  Since no two of these have the same name, every structure stands for the
only resource of its name.

Links to mixed sections have to be left out: there a link and the walk take different tables, the
first one wins, and the order of documents decides (`Corpus.not_sameDeclarations_mixed`).
-/

namespace ProseTypes

/-! ### Declarations by name -/

namespace Declaration

def namedField (f : Field (TypeTree (Atom String))) : String :=
  comment f.description ++ "\t" ++ key f.key ++ (if f.optional then "?" else "") ++ ": " ++
    TypeTree.text (Atom.text id) f.type ++ ";\n"

theorem members_eq_of_named {a b : Body Symbol} (h : a.map Symbol.named = b.map Symbol.named) :
    members a = members b := by
  have hField (fields : List (Field Symbol)) : fields.map field =
      (fields.map fun f => (⟨f.key, f.optional, f.type.named, f.description⟩ :
        Field (TypeTree (Atom String)))).map namedField := by
    rw [List.map_map]
    refine List.map_congr_left fun f _ => ?_
    rw [Function.comp, field, Symbol.text_eq]
    rfl
  cases a with
  | interface fields =>
    cases b with
    | interface others =>
      rw [Body.map, Body.map, Body.interface.injEq] at h
      rw [members, members, hField, hField, h]
    | enumeration constants => cases h
  | enumeration constants =>
    cases b with
    | interface others => cases h
    | enumeration others =>
      cases h
      rfl

end Declaration

/-- **The text of a structure is settled by its name and its members by name.** -/
theorem Structure.declaration_eq_of_named {s t : Structure} (hName : s.name = t.name)
    (hBody : s.body.map Symbol.named = t.body.map Symbol.named) :
    s.declaration = t.declaration := by
  have hKind : s.body.kind = t.body.kind := by
    have h := congrArg Body.kind hBody
    rwa [Registry.kind_map, Registry.kind_map] at h
  rw [declaration, declaration, hName, hKind, Declaration.members_eq_of_named hBody]

/-! ### Documents in another order -/

namespace LinkIndex

theorem find?_perm {a b : List Target} (hPerm : a.Perm b) (hNodup : (a.map Target.anchor).Nodup)
    (anchor : String) : a.find? (fun entry => entry.anchor == anchor) =
      b.find? fun entry => entry.anchor == anchor := by
  induction hPerm with
  | nil => rfl
  | cons first _ ih =>
    rw [List.map_cons, List.nodup_cons] at hNodup
    rw [List.find?_cons, List.find?_cons, ih hNodup.2]
  | swap first second rest =>
    have hDiffer : second.anchor ≠ first.anchor := by
      intro hSame
      rw [List.map_cons, List.nodup_cons] at hNodup
      exact hNodup.1 (hSame ▸ List.mem_cons_self)
    simp only [List.find?_cons]
    by_cases hFirst : first.anchor = anchor
    · have hSecond : (second.anchor == anchor) = false := by
        rw [beq_eq_false_iff_ne, ← hFirst]
        exact hDiffer
      rw [hSecond]
    · have hNot : (first.anchor == anchor) = false := beq_eq_false_iff_ne.mpr hFirst
      rw [hNot]
  | trans hFirst _ ihFirst ihSecond =>
    rw [ihFirst hNodup, ihSecond ((hFirst.map _).nodup_iff.mp hNodup)]

end LinkIndex

namespace Corpus

variable {corpus : Corpus} {documents : List Document}

def withDocuments (corpus : Corpus) (documents : List Document) : Corpus :=
  ⟨documents, corpus.nesting⟩

section

variable (hPerm : corpus.documents.Perm documents)

include hPerm

theorem targets_perm : corpus.targets.Perm (corpus.withDocuments documents).targets :=
  hPerm.flatMap_right _

theorem mem_subjects_perm {target : Target} :
    target ∈ corpus.subjects ↔ target ∈ (corpus.withDocuments documents).subjects :=
  ((targets_perm hPerm).filter _).mem_iff

/-- **Links lead to the same sections in any order of documents**, if the anchors differ. -/
theorem agrees_perm (hAnchors : (corpus.targets.map Target.anchor).Nodup) :
    corpus.index.Agrees (corpus.withDocuments documents).index := by
  intro target
  have hOther := ((targets_perm hPerm).map Target.anchor).nodup_iff.mp hAnchors
  rw [LinkIndex.find?, LinkIndex.find?, index, index, LinkIndex.entries_ofCorpus hAnchors,
    LinkIndex.entries_ofCorpus hOther]
  exact LinkIndex.find?_perm (targets_perm hPerm) hAnchors _

theorem asks_perm {resource : Resource} :
    corpus.Asks resource ↔ (corpus.withDocuments documents).Asks resource := by
  simp only [Asks, mem_subjects_perm hPerm]

theorem leads_of_perm (hAnchors : (corpus.targets.map Target.anchor).Nodup) {resource : Resource}
    (h : corpus.Leads resource) : (corpus.withDocuments documents).Leads resource := by
  have hAgrees := agrees_perm hPerm hAnchors
  induction h with
  | response hTarget hPhrase hLinked =>
    rename_i phrase linked
    have hOccurs := Reading.occurs_bare_iff.mpr ⟨linked, hLinked, rfl⟩
    rw [hAgrees.bare_ofPhrase] at hOccurs
    obtain ⟨other, hOther, hSame⟩ := Reading.occurs_bare_iff.mp hOccurs
    rw [← hSame]
    exact .response ((mem_subjects_perm hPerm).mp hTarget) hPhrase hOther
  | asked hAsks hLinks => exact .asked ((asks_perm hPerm).mp hAsks) (hAgrees.linksTo_iff.mp hLinks)
  | linked _ hLinks ih => exact .linked ih (hAgrees.linksTo_iff.mp hLinks)

/-- **A compilation gets to the same resources.** -/
theorem reaches_of_perm (hAnchors : (corpus.targets.map Target.anchor).Nodup) {resource : Resource}
    (h : corpus.Reaches resource) : (corpus.withDocuments documents).Reaches resource :=
  h.imp (asks_perm hPerm).mp (leads_of_perm hPerm hAnchors)

end

end Corpus

/-! ### Equal declarations -/

/-- Two registries have the same names, and for each name the same declaration, of the same kind and
in the module of the same path. -/
structure Registry.SameDeclarations (first second : Registry) : Prop where
  names : ∀ name, name ∈ first.names ↔ name ∈ second.names
  each : ∀ {i j s t}, first.structure? i = some s → second.structure? j = some t →
    s.name = t.name → s.body.kind = t.body.kind ∧ s.declaration = t.declaration ∧
      ∃ path, first.modulePath? s = some path ∧ second.modulePath? t = some path

namespace Corpus

variable {corpus : Corpus}

theorem names_subset_of_perm {documents : List Document} (hPerm : corpus.documents.Perm documents)
    (hAnchors : (corpus.targets.map Target.anchor).Nodup)
    (hOther : (corpus.withDocuments documents).Unambiguous) :
    (corpus.compile .everything).registry.names ⊆
      ((corpus.withDocuments documents).compile .everything).registry.names := by
  intro name hName
  have hFirst := corpus.realizes_compile .everything
  have hSecond := (corpus.withDocuments documents).realizes_compile .everything
  obtain ⟨s, hMem, rfl⟩ := List.mem_map.mp hName
  obtain ⟨i, hs⟩ := List.mem_iff_getElem?.mp hMem
  obtain ⟨resource, hReaches, hStands⟩ := hFirst.stands hs
  rw [← hSecond.indexed.has_iff, hStands.name]
  exact has_compile hOther (reaches_of_perm hPerm hAnchors hReaches)

end Corpus

/-- **The order of documents does not change the declarations**, if sections and requests have
different names, sections have different anchors, and links lead to no mixed sections. -/
theorem Corpus.sameDeclarations_of_perm (corpus : Corpus) {documents : List Document}
    (hPerm : corpus.documents.Perm documents) (hNames : corpus.givenNames.Nodup)
    (hAnchors : (corpus.targets.map Target.anchor).Nodup) (hUnmixed : corpus.Unmixed) :
    (corpus.compile .everything).registry.SameDeclarations
      ((corpus.withDocuments documents).compile .everything).registry := by
  have hUnique : corpus.Unambiguous := unambiguous_of_nodup hNames hAnchors hUnmixed
  have hBackAnchors := ((targets_perm hPerm).map Target.anchor).nodup_iff.mp hAnchors
  have hBack {resource : Resource} (h : (corpus.withDocuments documents).Reaches resource) :
      corpus.Reaches resource :=
    @reaches_of_perm (corpus.withDocuments documents) _ hPerm.symm hBackAnchors _ h
  have hOther : (corpus.withDocuments documents).Unambiguous :=
    fun a b ha hb hName => hUnique a b (hBack ha) (hBack hb) hName
  have hFirst := corpus.realizes_compile .everything
  have hSecond := (corpus.withDocuments documents).realizes_compile .everything
  constructor
  · intro name
    constructor
    · exact fun h => names_subset_of_perm hPerm hAnchors hOther h
    · exact fun h => @names_subset_of_perm (corpus.withDocuments documents) _ hPerm.symm
        hBackAnchors hUnique name h
  · intro i j s t hs ht hName
    obtain ⟨resource, hReaches, hStands⟩ := hFirst.stands hs
    obtain ⟨other, hOtherReaches, hOtherStands⟩ := hSecond.stands ht
    -- The two structures stand for one resource, since their names are equal.
    obtain rfl : resource = other := hUnique resource other hReaches (hBack hOtherReaches) (by
      rw [← hStands.name, ← hOtherStands.name, hName])
    have hBody : s.body.map Symbol.named = t.body.map Symbol.named := by
      rw [hStands.body List.not_mem_nil, hOtherStands.body List.not_mem_nil,
        (agrees_perm hPerm hAnchors).named_draft]
    exact ⟨hStands.kind.trans hOtherStands.kind.symm,
      Structure.declaration_eq_of_named hName hBody, _, hStands.path, hOtherStands.path⟩

def Corpus.paired : Corpus :=
  ⟨[.ofLines "a.md" ["## Foo", "", "| Field | Type |", "|---|---|", "| bar? | ?[bar](#B/bar) |"],
    .ofLines "b.md" ["## Bar", "", "| Field | Type |", "|---|---|", "| foos | list of [foo](#A/foo) |"]],
    1⟩

theorem Corpus.sameDeclarations_paired :
    paired.documents.Perm paired.documents.reverse ∧ paired.givenNames.Nodup ∧
    (paired.targets.map Target.anchor).Nodup ∧ paired.Unmixed ∧
    (paired.compile .everything).registry.SameDeclarations
      ((paired.withDocuments paired.documents.reverse).compile .everything).registry := by
  have hPerm : paired.documents.Perm paired.documents.reverse := (List.reverse_perm _).symm
  have hNames : paired.givenNames.Nodup := by
    decide +kernel
  have hAnchors : (paired.targets.map Target.anchor).Nodup := by
    decide +kernel
  have hPlain : ∀ target ∈ paired.subjects, ¬target.here.Mixed := by
    decide +kernel
  have hUnmixed : paired.Unmixed := fun target hTarget _ _ _ _ => hPlain target hTarget
  exact ⟨hPerm, hNames, hAnchors, hUnmixed,
    paired.sameDeclarations_of_perm hPerm hNames hAnchors hUnmixed⟩

/-! ### Mixed sections -/

theorem Resource.exists_links_of_row {index : LinkIndex} {resource : Resource} {row : List String}
    {rows : List (List String)} {key : String × Bool} {phrase : String}
    (hKind : resource.shape.kind = .interface) (hRows : resource.table.rows = row :: rows)
    (hKey : resource.key? row = some key)
    (hCell : resource.table.cell? row resource.shape.value = some phrase) :
    ∃ others, resource.links index = (Reading.ofPhrase index phrase).links ++ others := by
  have hField : resource.field? index row = some ⟨key.1, key.2, Reading.ofPhrase index phrase,
      description? resource.table row⟩ := by
    rw [field?, hKey, Option.map_some, typeOf, hCell]
  rw [links, draft, hKind, hRows]
  dsimp only [Body.fields]
  rw [List.filterMap_cons_some hField, List.flatMap_cons]
  exact ⟨_, rfl⟩

namespace Corpus

/-- **A link in the first field of the first section is followed before anything else is registered**,
so the structure of its name is made from what links can bind to. -/
theorem exists_of_first_link {corpus : Corpus} {resource : Resource} {others : List Resource}
    (hFirst : corpus.subjects.head?.map Target.asked = some (resource :: others))
    {row : List String} {rows : List (List String)} {key : String × Bool} {phrase name : String}
    (hKind : resource.shape.kind = .interface) (hRows : resource.table.rows = row :: rows)
    (hKey : resource.key? row = some key)
    (hCell : resource.table.cell? row resource.shape.value = some phrase)
    (hWritten : Written corpus.index (.leaf (.named name)) phrase) (hOther : name ≠ resource.name) :
    ∃ id s, (corpus.compile .everything).registry.Holds id s ∧ s.name = name ∧
      ∃ linked ∈ corpus.index.resources, linked.name = name ∧ s.body.kind = linked.shape.kind := by
  have hNames := (Reading.ofPhrase corpus.index phrase).map_name_links
  rw [hWritten.named_ofPhrase] at hNames
  obtain ⟨linked, hLinked, rfl⟩ := List.map_eq_singleton_iff.mp hNames
  obtain ⟨more, hLinks⟩ := resource.exists_links_of_row hKind hRows hKey hCell
  rw [hLinked, List.singleton_append] at hLinks
  have hNone (name : String) : ¬Registry.empty.has name := Bool.false_ne_true
  obtain ⟨id, s, hHolds, hName, hBody⟩ :=
    Registry.indexed_empty.exists_enter_linked (hNone _) hLinks (hNone _) hOther
  exact ⟨id, s, holds_compile_of_first hFirst hHolds, hName, linked.1, linked.2, rfl, hBody⟩

/-- A document with a section of values that has fields in the section below it, and a document with
a section that links there. -/
def mixed : Corpus :=
  ⟨[.ofLines "a.md" ["## Foo", "", "| Name | Value |", "|---|---|", "| A | 1 |", "",
      "### Bar", "", "| Field | Type |", "|---|---|", "| id | string |"],
    .ofLines "b.md" ["## Baz", "", "| Field | Type |", "|---|---|", "| x | [foo](#A/foo) |"]], 1⟩

theorem exists_enumeration_mixed : ∃ id s, (mixed.compile .everything).registry.Holds id s ∧
    s.name = "Foo" ∧ s.body.kind = .enumeration := by
  let foo : Resource := ⟨"Foo", .names, ⟨["Name", "Value"], [["A", "1"]]⟩, "a.md", "A/foo"⟩
  have hFirst : mixed.subjects.head?.map Target.asked = some [foo] := by
    decide +kernel
  obtain ⟨id, s, hHolds, hName, hKind⟩ : ∃ id s, (Registry.empty.enter mixed.index foo).Holds id s ∧
      s.name = foo.name ∧ s.body.kind = foo.shape.kind :=
    Registry.indexed_empty.exists_enter (by decide)
  exact ⟨id, s, holds_compile_of_first hFirst hHolds, hName, hKind⟩

theorem exists_interface_mixed : ∃ id s,
    ((mixed.withDocuments mixed.documents.reverse).compile .everything).registry.Holds id s ∧
      s.name = "Foo" ∧ s.body.kind = .interface := by
  let corpus := mixed.withDocuments mixed.documents.reverse
  let baz : Resource :=
    ⟨"Baz", .fields, ⟨["Field", "Type"], [["x", "[foo](#A/foo)"]]⟩, "b.md", "B/baz"⟩
  have hFirst : corpus.subjects.head?.map Target.asked = some [baz] := by
    decide +kernel
  have hFields : ∀ resource ∈ corpus.index.resources, resource.name = "Foo" →
      resource.shape.kind = .interface := by
    decide +kernel
  have hWritten : Written corpus.index (.leaf (.named "Foo")) "[foo](#A/foo)" :=
    @Written.of_nameAt? corpus.index "foo" "#A/foo" "Foo" (by decide +kernel) (by decide +kernel)
      (by decide +kernel) "" (by decide)
  -- The first field of the linking section names the other one.
  have hKey : baz.key? ["x", "[foo](#A/foo)"] = some ("x", false) := by
    decide +kernel
  have hCell : baz.table.cell? ["x", "[foo](#A/foo)"] baz.shape.value = some "[foo](#A/foo)" := by
    decide +kernel
  obtain ⟨id, s, hHolds, hName, linked, hLinked, hLinkedName, hKind⟩ :=
    exists_of_first_link hFirst rfl rfl hKey hCell hWritten (by decide)
  exact ⟨id, s, hHolds, hName, hKind.trans (hFields linked hLinked hLinkedName)⟩

/-- **Mixed sections make the order of documents count**, whatever else is different. -/
theorem not_sameDeclarations_mixed :
    mixed.documents.Perm mixed.documents.reverse ∧ mixed.givenNames.Nodup ∧
    (mixed.targets.map Target.anchor).Nodup ∧
    (mixed.documents.map fun document => ModulePath.ofDocument document.path).Nodup ∧
    ¬(mixed.compile .everything).registry.SameDeclarations
      ((mixed.withDocuments mixed.documents.reverse).compile .everything).registry := by
  refine ⟨(List.reverse_perm _).symm, by decide +kernel, by decide +kernel, by decide +kernel, ?_⟩
  intro hSame
  obtain ⟨i, s, hs, hName, hKind⟩ := exists_enumeration_mixed
  obtain ⟨j, t, ht, hOther, hOtherKind⟩ := exists_interface_mixed
  have hKinds := (hSame.each hs.here ht.here (hName.trans hOther.symm)).1
  rw [hKind, hOtherKind] at hKinds
  cases hKinds

end Corpus

end ProseTypes
