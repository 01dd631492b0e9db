import ProseTypes.Proofs.Compilation.Provenance
import ProseTypes.Request.Manifest
import ProseTypes.Source

/-!
# Requests of a compilation

While requests are collected, their tables and responses are registered, and between them so are the
structures of other sections.  None of this shows in the requests by name (`Request.named`): a section
adds what its title, its tables and its paragraphs say, at the end, and a section that is no request
adds nothing (`Progress.Sound.named_requests_addSection`).  So the requests of a compilation by name
are a function of the corpus (`Corpus.named_requests_compile`), and from this follow

* `Corpus.manifest_compile`: the manifest does not depend on which structures are registered;
* `Corpus.documents_compile`: the outermost sections of requests and the requests correspond one by
  one and in order, and the types of a request's body and query are the structures of its name.
-/

namespace ProseTypes

variable {index : LinkIndex}

/-! ### Requests by name -/

structure Request.Named where
  title : RequestTitle
  source : String
  body : Option (TypeTree (Atom String))
  query : Option (TypeTree (Atom String))
  response : Option (TypeTree (Atom String))

def Request.named (request : Request) : Request.Named :=
  ⟨request.title, request.source, request.body.map Symbol.named, request.query.map Symbol.named,
    request.response.map Symbol.named⟩

def Resource.namedType (resource : Resource) : TypeTree (Atom String) :=
  .leaf (.named resource.name)

/-- What a section with the title of a request documents, by name. -/
def Target.documented (index : LinkIndex) (target : Target) (title : RequestTitle) : Request.Named :=
  ⟨title, target.anchor, (Request.body? target title).map Resource.namedType,
    (Request.query? target title).map Resource.namedType,
    (Request.responsePhrase? target.here).map fun phrase => (Reading.ofPhrase index phrase).named⟩

def Target.documented? (index : LinkIndex) (target : Target) : Option Request.Named :=
  target.here.requestTitle?.map (target.documented index)

theorem Symbol.exists_ref_of_named {s : Symbol} {name : String}
    (h : s.named = .leaf (.named name)) : ∃ ref, s = Symbol.ofRef ref ∧ ref.name = name := by
  obtain ⟨atom, rfl, hAtom⟩ := TypeTree.exists_leaf_of_map h
  cases atom with
  | named ref => exact ⟨ref, rfl, Atom.named.inj hAtom⟩
  | primitive primitive => cases hAtom
  | unknown => cases hAtom

/-- **What the manifest says of a request is told by its form by name.** -/
theorem Request.entry_eq_of_named {a b : Request} (h : a.named = b.named) : a.entry = b.entry := by
  have hText {s t : Option Symbol} (hSame : s.map Symbol.named = t.map Symbol.named) :
      s.map Symbol.text = t.map Symbol.text := by
    have := congrArg (Option.map (TypeTree.text (Atom.text id))) hSame
    simpa only [Option.map_map, Function.comp_def, ← Symbol.text_eq] using this
  simp only [named, Named.mk.injEq] at h
  obtain ⟨hTitle, hSource, hBody, hQuery, hResponse⟩ := h
  rw [entry, entry, hTitle, hSource, hText hBody, hText hQuery, hText hResponse]

theorem Request.map_entry_eq_of_named {first second : List Request}
    (h : first.map named = second.map named) : first.map entry = second.map entry := by
  induction first generalizing second with
  | nil =>
    rw [List.map_nil, eq_comm, List.map_eq_nil_iff] at h
    rw [h]
  | cons a rest ih =>
    obtain ⟨b, others, rfl, hHead, hTail⟩ := List.map_eq_cons_iff.mp h.symm
    rw [List.map_cons, List.map_cons, entry_eq_of_named hHead.symm, ih hTail.symm]

/-! ### One section -/

namespace Progress

variable {progress : Progress}

theorem Sound.named_referAny (h : progress.Sound) (resource : Option Resource) :
    (progress.referAny index resource).1.map Symbol.named = resource.map Resource.namedType := by
  cases resource with
  | none => rfl
  | some resource =>
    have hAfter := (grows_register index progress resource).sound h.registry
    have hHas : (progress.register index resource).registry.has resource.name := by
      rw [registry_register_eq_enter]
      exact Registry.has_enter _ _
    have hName := hAfter.indexed.name_refTo hHas
    exact congrArg (fun name => some (TypeTree.leaf (Atom.named name))) hName

theorem Sound.named_resolveAny (h : progress.Sound) (phrase : Option String) :
    (progress.resolveAny index phrase).1.map Symbol.named =
      phrase.map fun phrase => (Reading.ofPhrase index phrase).named := by
  cases phrase with
  | none => rfl
  | some phrase => exact congrArg some (h.named_resolvePhrase phrase)

/-- **A request is added at the end**, and by name it is what its section documents. -/
theorem Sound.named_requests_addRequest (h : progress.Sound) (target : Target)
    (title : RequestTitle) : (progress.addRequest index target title).requests.map Request.named =
      progress.requests.map Request.named ++ [target.documented index title] := by
  let body := progress.referAny index (Request.body? target title)
  let query := body.2.referAny index (Request.query? target title)
  let response := query.2.resolveAny index (Request.responsePhrase? target.here)
  have hBody : Grows progress body.2 := grows_referAny index progress _
  have hQuery : Grows body.2 query.2 := grows_referAny index body.2 _
  have hResponse : Grows query.2 response.2 := grows_resolveAny index query.2 _
  have hAdded : (progress.addRequest index target title).requests =
      response.2.requests ++ [⟨title, target.anchor, body.1, query.1, response.1⟩] := rfl
  rw [hAdded, hResponse.requests, hQuery.requests, hBody.requests, List.map_append, List.map_cons,
    List.map_nil, Request.named, h.named_referAny, (h.of_grows hBody).named_referAny,
    ((h.of_grows hBody).of_grows hQuery).named_resolveAny]
  rfl

/-- **A section adds the request that it documents**, whatever the scope and whatever has been
registered. -/
theorem Sound.named_requests_addSection (h : progress.Sound) (scope : Scope) (target : Target) :
    (progress.addSection index scope target).requests.map Request.named =
      progress.requests.map Request.named ++ (target.documented? index).toList := by
  unfold Progress.addSection Target.documented?
  cases target.here.requestTitle? with
  | some title => exact h.named_requests_addRequest target title
  | none =>
    rw [Option.map_none, Option.toList_none, List.append_nil]
    cases scope with
    | everything => exact congrArg _ (grows_addOwn index progress target).requests
    | linkedOnly => rfl

end Progress

/-! ### All sections -/

namespace Corpus

/-- **By name, the requests of a compilation are what its sections document**, in order. -/
theorem named_requests_compile (corpus : Corpus) (scope : Scope) :
    (corpus.compile scope).requests.map Request.named =
      corpus.subjects.filterMap (Target.documented? corpus.index) := by
  have hAll (targets : List Target) (progress : Progress) (h : progress.Sound) :
      (targets.foldl (fun progress target => progress.addSection corpus.index scope target)
        progress).requests.map Request.named =
      progress.requests.map Request.named ++
        targets.filterMap (Target.documented? corpus.index) := by
    induction targets generalizing progress with
    | nil => simp
    | cons first rest ih =>
      rw [List.foldl_cons, ih _ (h.addSection _ scope first), h.named_requests_addSection,
        List.append_assoc]
      cases hFirst : first.documented? corpus.index with
      | none => rw [List.filterMap_cons_none hFirst, Option.toList_none, List.nil_append]
      | some request =>
        rw [List.filterMap_cons_some hFirst, Option.toList_some, List.singleton_append]
  exact hAll corpus.subjects corpus.start corpus.sound_start

/-- **The manifest does not depend on the scope**: a compilation of everything and one of what
requests lead to have requests with the same entries, one by one, though their structures and the
identifiers of these may differ. -/
theorem manifest_compile (corpus : Corpus) :
    (corpus.compile .everything).requests.map Request.entry =
      (corpus.compile .linkedOnly).requests.map Request.entry ∧
    Request.manifest (corpus.compile .everything).requests =
      Request.manifest (corpus.compile .linkedOnly).requests := by
  have hEntries : (corpus.compile .everything).requests.map Request.entry =
      (corpus.compile .linkedOnly).requests.map Request.entry := by
    apply Request.map_entry_eq_of_named
    rw [named_requests_compile, named_requests_compile]
  exact ⟨hEntries, by rw [Request.manifest, Request.manifest, hEntries]⟩

end Corpus

/-! ### Sections and requests, one by one -/

def Corpus.ofSources (sources : List Source) (nesting : Nat) : Corpus :=
  ⟨sources.map Source.document, nesting⟩

/-- Says whether a section has the title of a request and lies in no other request. -/
def Target.isOutermostRequest (target : Target) : Bool :=
  target.here.requestTitle?.isSome && !target.visit.ancestors.any fun a => a.requestTitle?.isSome

/-- The type of a request's body or query: there is one if a section directly in that of the request
announces it by its title in small letters and has a table of fields of its own, and it is the structure
registered by the name. -/
structure Section.Carries (registry : Registry) (part : Section) (announces : List Char → Prop)
    (name : String) (type : Option Symbol) : Prop where
  present : type.isSome ↔ ∃ child ∈ part.sections, announces (Text.lower child.title.toList) ∧
    ∃ table ∈ child.tables, (table.column? "field").isSome ∧ (table.column? "type").isSome
  refers : ∀ symbol, type = some symbol → ∃ s, registry.search? name = some s ∧
    symbol = Symbol.ofRef s.ref

/-- A section documents a request. -/
structure Target.Documents (registry : Registry) (target : Target) (request : Request) : Prop where
  title : target.here.requestTitle? = some request.title
  source : request.source = target.anchor
  body : target.here.Carries registry
    (fun title => "json".toList <:+: title ∧ "params".toList <:+: title)
    (Request.baseName request.title ++ "JsonParams") request.body
  query : target.here.Carries registry (fun title => "query string params".toList <:+: title)
    (Request.baseName request.title ++ "Query") request.query
  response : request.response.isSome ↔
    ∃ paragraph ∈ target.here.paragraphs, (Response.phrase? paragraph).isSome

theorem Request.announcesBody_iff {title : String} : announcesBody title = true ↔
    "json".toList <:+: Text.lower title.toList ∧ "params".toList <:+: Text.lower title.toList := by
  rw [announcesBody, Bool.and_eq_true, Text.contains_iff, Text.contains_iff]

theorem Request.announcesQuery_iff {title : String} : announcesQuery title = true ↔
    "query string params".toList <:+: Text.lower title.toList := by
  rw [announcesQuery, Text.contains_iff]

theorem Shape.fits_fields_iff {table : Table} : fields.fits table = true ↔
    (table.column? "field").isSome ∧ (table.column? "type").isSome := by
  simp [fits, fields, Table.hasColumns]

theorem Request.isSome_table? {announces : String → Bool} {wanted : List Char → Prop}
    (h : ∀ {title : String}, announces title = true ↔ wanted (Text.lower title.toList))
    {part : Section} :
    (table? announces part).isSome ↔ ∃ child ∈ part.sections, wanted (Text.lower child.title.toList) ∧
      ∃ table ∈ child.tables, (table.column? "field").isSome ∧ (table.column? "type").isSome := by
  simp only [← h, ← Shape.fits_fields_iff]
  simp [table?, and_assoc]

theorem Section.carries_of_named {registry : Registry} (h : registry.Indexed) {target : Target}
    {announces : String → Bool} {wanted : List Char → Prop}
    (hWanted : ∀ {title : String}, announces title = true ↔ wanted (Text.lower title.toList))
    {name : String} {type : Option Symbol}
    (hBound : ∀ symbol, type = some symbol → ∀ ref, symbol.Mentions ref → registry.Binds ref)
    (hNamed : type.map Symbol.named = ((Request.table? announces target.here).map
      (Request.resource target name)).map Resource.namedType) :
    target.here.Carries registry wanted name type where
  present := by
    rw [← Request.isSome_table? hWanted]
    have hSome := congrArg Option.isSome hNamed
    simp only [Option.isSome_map] at hSome
    rw [hSome]
  refers symbol hSymbol := by
    rw [hSymbol, Option.map_some, eq_comm, Option.map_eq_some_iff] at hNamed
    obtain ⟨resource, hResource, hType⟩ := hNamed
    obtain ⟨table, -, rfl⟩ := Option.map_eq_some_iff.mp hResource
    obtain ⟨ref, rfl, rfl⟩ := Symbol.exists_ref_of_named hType.symm
    obtain ⟨s, hs, hRef⟩ := h.search?_of_binds (hBound _ hSymbol ref .leaf)
    exact ⟨s, hs, congrArg Symbol.ofRef hRef⟩

namespace Corpus

theorem exists_source_of_mem_targets {sources : List Source} {nesting : Nat} {target : Target}
    (h : target ∈ (ofSources sources nesting).targets) : ∃ source ∈ sources,
      ∃ visit ∈ (Document.ofLines source.path source.lines).walk,
        target = Target.ofVisit nesting source.path visit := by
  obtain ⟨document, hDocument, hTarget⟩ := List.mem_flatMap.mp h
  obtain ⟨visit, hVisit, rfl⟩ := List.mem_map.mp hTarget
  obtain ⟨source, hSource, rfl⟩ := List.mem_map.mp hDocument
  exact ⟨source, hSource, visit, hVisit, rfl⟩

theorem filter_isSome_documented? (sources : List Source) (nesting : Nat) :
    ((ofSources sources nesting).subjects.filter fun target =>
        (target.documented? (ofSources sources nesting).index).isSome) =
      (ofSources sources nesting).targets.filter Target.isOutermostRequest := by
  rw [subjects, List.filter_filter]
  refine List.filter_congr fun target hTarget => ?_
  obtain ⟨source, -, visit, hVisit, rfl⟩ := exists_source_of_mem_targets hTarget
  rw [Target.documented?, Option.isSome_map, Target.isOutermostRequest]
  rcases Document.root_or_deeper hVisit with ⟨-, hTitle, -⟩ | ⟨hLevel, -⟩
  · have hNone : visit.here.requestTitle? = none := by
      rw [Section.requestTitle?, hTitle]
      decide
    simp [Target.ofVisit, Target.here, hNone]
  · have hDeep : (visit.here.level != 0) = true := bne_iff_ne.mpr hLevel
    simp [Target.ofVisit, Target.here, hDeep]

/-- **The outermost sections of requests and the requests of a compilation correspond one by one**, in
the order of documents and of the walk through each. -/
theorem documents_compile (sources : List Source) (nesting : Nat) (scope : Scope) :
    List.Forall₂
      (Target.Documents ((ofSources sources nesting).compile scope).registry)
      ((ofSources sources nesting).targets.filter Target.isOutermostRequest)
      ((ofSources sources nesting).compile scope).requests := by
  let corpus := ofSources sources nesting
  have hSound : (corpus.compile scope).Sound := corpus.sound_start.compileFrom
  have hNamed : (corpus.compile scope).requests.map Request.named =
      (corpus.subjects.filterMap (Target.documented? corpus.index)).map id := by
    rw [List.map_id, named_requests_compile]
  have hEach := forall₂_of_map_eq hNamed
  rw [filter_isSome_documented?] at hEach
  -- That its references are bound is known of each request, and comes along with its section.
  have hBoth := ((List.forall₂_and_left _ _).mpr ⟨hSound.requests, hEach.flip⟩).flip
  refine hBoth.imp fun target request ⟨hBound, named, hDocumented, hSame⟩ => ?_
  obtain ⟨title, hTitle, hMade⟩ := Option.map_eq_some_iff.mp hDocumented
  rw [id_eq, ← hMade, Request.named, Target.documented, Request.Named.mk.injEq] at hSame
  obtain ⟨rfl, hSource, hBody, hQuery, hResponse⟩ := hSame
  refine ⟨hTitle, hSource, ?_, ?_, ?_⟩
  · refine Section.carries_of_named hSound.registry.indexed Request.announcesBody_iff ?_ hBody
    exact fun symbol hSymbol ref hRef => hBound ref ⟨symbol, Or.inl hSymbol, hRef⟩
  · refine Section.carries_of_named hSound.registry.indexed Request.announcesQuery_iff ?_ hQuery
    exact fun symbol hSymbol ref hRef => hBound ref ⟨symbol, Or.inr (Or.inl hSymbol), hRef⟩
  · have hSome := congrArg Option.isSome hResponse
    simp only [Option.isSome_map] at hSome
    rw [hSome, Request.responsePhrase?, List.findSome?_isSome_iff]

end Corpus

end ProseTypes
