import ProseTypes.Proofs.Compilation.Operations
import ProseTypes.Proofs.Resolution.Total

/-!
# Operations end

Everything that can be asked of a corpus, step by step, on top of the recursion of
`Resolution/Steps.lean`.  `Performs corpus scope r operation made after` says that an operation
leads from one registry to another and gives members to the resources `made`.

* `Performs.sound`: an operation leaves the registry that the library computes for it.
* `Performs.made`: what is given members is what links can bind to, and what the operation itself
  asks for (`Operation.ownNames`).
* `Operation.ends`: after any operations every operation ends, and gives members to at most as many
  structures as there are names left for it to register.

Compiling asks for more than indexed sections and requests, because it takes every section of the
corpus: a section whose anchor belongs to an earlier one is not indexed, and still has a structure
of its own (`exists_compile_beyond_index`).
-/

namespace ProseTypes

variable {index : LinkIndex}

/-! ### Names to register -/

def LinkIndex.titleNames (index : LinkIndex) : List String :=
  index.entries.filterMap fun entry => Name.ofTitle? entry.here.title

/-- The names of the structures of a request's body and query. -/
def Request.structureNames (title : RequestTitle) : List String :=
  [baseName title ++ "JsonParams", baseName title ++ "Query"]

def Target.own? (target : Target) : Option Resource :=
  target.here.ownTable?.bind fun choice => (target.named choice).toOption

def Target.ownNames (scope : Scope) (target : Target) : List String :=
  match target.here.requestTitle?, scope with
  | some title, _ => Request.structureNames title
  | none, .everything => (Name.ofTitle? target.here.title).toList
  | none, .linkedOnly => []

def Operation.ownNames (corpus : Corpus) (scope : Scope) : Operation → List String
  | resolvePhrase _ | followLink _ => []
  | enterSection target => (Name.ofTitle? target.here.title).toList
  | register resource => [resource.name]
  | compile => corpus.subjects.flatMap (Target.ownNames scope)

theorem ok_of_toOption_eq_some {ε α : Type} {result : Except ε α} {value : α}
    (h : result.toOption = some value) : result = .ok value := by
  cases result with
  | ok other =>
    cases h
    rfl
  | error e => cases h

theorem Target.ofTitle?_of_named {target : Target} {choice : Table × Shape} {resource : Resource}
    (h : target.named choice = .ok resource) :
    Name.ofTitle? target.here.title = some resource.name := by
  unfold named at h
  split at h
  · rename_i name hName
    cases h
    exact hName
  · cases h

theorem Target.ofTitle?_of_resource {target : Target} {resource : Resource}
    (h : target.resource = .ok resource) :
    Name.ofTitle? target.here.title = some resource.name := by
  unfold Target.resource at h
  split at h
  · exact ofTitle?_of_named h
  · cases h

theorem Target.ofTitle?_of_own? {target : Target} {resource : Resource}
    (h : target.own? = some resource) : Name.ofTitle? target.here.title = some resource.name := by
  obtain ⟨choice, -, hNamed⟩ := Option.bind_eq_some_iff.mp h
  exact ofTitle?_of_named (ok_of_toOption_eq_some hNamed)

/-- **What links can bind to is named by the title of an indexed section.** -/
theorem LinkIndex.name_mem_titleNames {resource : Resource} (h : resource ∈ index.resources) :
    resource.name ∈ index.titleNames := by
  obtain ⟨entry, hEntry, hResource⟩ := List.mem_filterMap.mp h
  have hOk := ok_of_toOption_eq_some hResource
  exact List.mem_filterMap.mpr ⟨entry, hEntry, Target.ofTitle?_of_resource hOk⟩

theorem Request.name_mem_of_body? {target : Target} {title : RequestTitle} {resource : Resource}
    (h : Request.body? target title = some resource) :
    resource.name ∈ Request.structureNames title := by
  obtain ⟨table, -, rfl⟩ := Option.map_eq_some_iff.mp h
  exact List.mem_cons_self

theorem Request.name_mem_of_query? {target : Target} {title : RequestTitle} {resource : Resource}
    (h : Request.query? target title = some resource) :
    resource.name ∈ Request.structureNames title := by
  obtain ⟨table, -, rfl⟩ := Option.map_eq_some_iff.mp h
  exact List.mem_cons_of_mem _ List.mem_cons_self

/-! ### Operations step by step -/

/-- The structure of an optional resource is added. -/
inductive AddsAny (index : LinkIndex) :
    Registry → Option Resource → List Resource → Registry → Prop where
  | none {r} : AddsAny index r none [] r
  | some {r resource id made after} : Adds index r resource id made after →
      AddsAny index r (some resource) made after

/-- An optional phrase is resolved. -/
inductive ResolvesAny (index : LinkIndex) :
    Registry → Option String → List Resource → Registry → Prop where
  | none {r} : ResolvesAny index r none [] r
  | some {r phrase s made after} : Resolves index r (Token.ofPhrase phrase) s made after →
      ResolvesAny index r (some phrase) made after

/-- A section is compiled: a request adds its body and its query and resolves its response, and
another section adds the structure of its own, if all structures are wanted. -/
inductive Takes (index : LinkIndex) :
    Scope → Registry → Target → List Resource → Registry → Prop where
  | request {scope r target title first asked second queried third after} :
      target.here.requestTitle? = some title →
      AddsAny index r (Request.body? target title) first asked →
      AddsAny index asked (Request.query? target title) second queried →
      ResolvesAny index queried (Request.responsePhrase? target.here) third after →
      Takes index scope r target (first ++ second ++ third) after
  | own {r target made after} : target.here.requestTitle? = none →
      AddsAny index r target.own? made after → Takes index .everything r target made after
  | skipped {r target} : target.here.requestTitle? = none → Takes index .linkedOnly r target [] r

/-- Sections are compiled one after the other. -/
inductive Compiles (index : LinkIndex) (scope : Scope) :
    Registry → List Target → List Resource → Registry → Prop where
  | nil {r} : Compiles index scope r [] [] r
  | cons {r target first between rest second after} : Takes index scope r target first between →
      Compiles index scope between rest second after →
      Compiles index scope r (target :: rest) (first ++ second) after

/-- An operation leads from one registry to another and gives members to resources. -/
inductive Performs (corpus : Corpus) (scope : Scope) :
    Registry → Operation → List Resource → Registry → Prop where
  | resolvePhrase {r phrase s made after} :
      Resolves corpus.index r (Token.ofPhrase phrase) s made after →
      Performs corpus scope r (.resolvePhrase phrase) made after
  | followLink {r target found made after} : Follows corpus.index r target found made after →
      Performs corpus scope r (.followLink target) made after
  | enterSection {r target found made after} : Enters corpus.index r target found made after →
      Performs corpus scope r (.enterSection target) made after
  | register {r resource id made after} : Adds corpus.index r resource id made after →
      Performs corpus scope r (.register resource) made after
  | compile {r made after} : Compiles corpus.index scope r corpus.subjects made after →
      Performs corpus scope r .compile made after

/-! ### Where operations end -/

section

variable {progress : Progress} {after : Registry} {made : List Resource}

theorem AddsAny.sound {resource : Option Resource}
    (h : AddsAny index progress.registry resource made after) (hr : progress.registry.Indexed) :
    after = (progress.referAny index resource).2.registry := by
  cases h with
  | none => rfl
  | some hAdds => exact (hAdds.sound hr).1.trans (progress.registry_register_eq_enter _).symm

theorem ResolvesAny.sound {phrase : Option String}
    (h : ResolvesAny index progress.registry phrase made after) (hr : progress.registry.Indexed) :
    after = (progress.resolveAny index phrase).2.registry := by
  cases h with
  | none => rfl
  | some hResolves => exact (hResolves.sound hr).1.trans (progress.registry_resolve _).symm

theorem Progress.addOwn_eq (progress : Progress) (target : Target) :
    (progress.addOwn index target).registry = (progress.referAny index target.own?).2.registry := by
  unfold addOwn Target.own?
  cases target.here.ownTable? with
  | none => rfl
  | some choice =>
    dsimp only
    cases hNamed : target.named choice with
    | ok resource =>
      rw [Option.bind_some, hNamed]
      rfl
    | error note =>
      rw [Option.bind_some, hNamed]
      rfl

theorem Takes.sound {scope : Scope} {target : Target}
    (h : Takes index scope progress.registry target made after) (hSound : progress.Sound) :
    after = (progress.addSection index scope target).registry := by
  unfold Progress.addSection
  cases h with
  | request hTitle hBody hQuery hResponse =>
    rename_i title _ _ _ _ _
    rw [hTitle]
    have hAsked := hSound.of_grows
      (Progress.grows_referAny index progress (Request.body? target title))
    have hQueried := hAsked.of_grows
      (Progress.grows_referAny index _ (Request.query? target title))
    rw [hBody.sound hSound.registry.indexed] at hQuery
    rw [hQuery.sound hAsked.registry.indexed] at hResponse
    exact hResponse.sound hQueried.registry.indexed
  | own hTitle hOwn =>
    rw [hTitle]
    exact (hOwn.sound hSound.registry.indexed).trans (Progress.addOwn_eq progress target).symm
  | skipped hTitle =>
    rw [hTitle]

theorem Compiles.sound {scope : Scope} {targets : List Target}
    (h : Compiles index scope progress.registry targets made after) (hSound : progress.Sound) :
    after = (targets.foldl (fun progress target => progress.addSection index scope target)
      progress).registry := by
  induction targets generalizing progress made with
  | nil =>
    cases h
    rfl
  | cons target rest ih =>
    cases h with
    | cons hTakes hRest =>
      rw [hTakes.sound hSound] at hRest
      exact ih hRest (hSound.addSection index scope target)

/-- **An operation leaves the registry that the library computes for it.** -/
theorem Performs.sound {corpus : Corpus} {scope : Scope} {operation : Operation}
    (h : Performs corpus scope progress.registry operation made after) (hSound : progress.Sound) :
    after = (operation.perform corpus scope progress).registry := by
  have hIndexed := hSound.registry.indexed
  cases h with
  | resolvePhrase hResolves =>
    exact (hResolves.sound hIndexed).1.trans (progress.registry_resolve _).symm
  | followLink hFollows =>
    rename_i target found
    obtain ⟨hSome, hNone⟩ := hFollows.sound hIndexed
    show after = (progress.followLink corpus.index target).2.registry
    unfold Progress.followLink
    cases found with
    | some ref =>
      obtain ⟨linked, hLink, rfl, -⟩ := hSome ref rfl
      rw [hLink]
      exact (progress.registry_register_eq_enter _).symm
    | none =>
      obtain ⟨note, hLink, rfl⟩ := hNone rfl
      rw [hLink]
      rfl
  | enterSection hEnters =>
    rename_i target found
    obtain ⟨hSome, hNone⟩ := hEnters.sound hIndexed
    show after = (progress.enterSection corpus.index target).2.registry
    unfold Progress.enterSection
    cases found with
    | some id =>
      obtain ⟨resource, hOk, rfl, -⟩ := hSome id rfl
      rw [hOk]
      exact (progress.registry_register_eq_enter _).symm
    | none =>
      obtain ⟨note, hError, rfl⟩ := hNone rfl
      rw [hError]
      rfl
  | register hAdds =>
    exact (hAdds.sound hIndexed).1.trans (progress.registry_register_eq_enter _).symm
  | compile hCompiles => exact hCompiles.sound hSound

end

/-! ### What operations give members to -/

section

variable {before after : Registry} {scope : Scope}

theorem AddsAny.made {resource : Option Resource} {made : List Resource}
    (h : AddsAny index before resource made after) :
    Made index (fun other => resource = Option.some other) before made after := by
  cases h with
  | none => exact .nothing before
  | some hAdds =>
    refine hAdds.made.mono fun other hOther => Or.inl ?_
    rw [hOther]

theorem ResolvesAny.made {phrase : Option String} {made : List Resource}
    (h : ResolvesAny index before phrase made after) :
    Made index (fun _ => False) before made after := by
  cases h with
  | none => exact .nothing before
  | some hResolves => exact hResolves.made

theorem Takes.made {target : Target} {made : List Resource}
    (h : Takes index scope before target made after) :
    Made index (fun resource => resource.name ∈ target.ownNames scope) before made after := by
  unfold Target.ownNames
  cases h with
  | request hTitle hBody hQuery hResponse =>
    rw [hTitle]
    refine Made.append (Made.append (hBody.made.mono ?_) (hQuery.made.mono ?_))
      (hResponse.made.mono ?_)
    · exact fun resource h => Or.inl (Request.name_mem_of_body? h)
    · exact fun resource h => Or.inl (Request.name_mem_of_query? h)
    · exact fun resource h => h.elim
  | own hTitle hOwn =>
    rw [hTitle]
    refine hOwn.made.mono fun resource hResource => Or.inl ?_
    exact Option.mem_toList.mpr (Target.ofTitle?_of_own? hResource)
  | skipped hTitle => exact .nothing before

theorem Compiles.made {targets : List Target} {made : List Resource}
    (h : Compiles index scope before targets made after) :
    Made index (fun resource => resource.name ∈ targets.flatMap (Target.ownNames scope))
      before made after := by
  induction h with
  | nil => exact .nothing _
  | cons hTakes _ ih =>
    refine Made.append (hTakes.made.mono ?_) (ih.mono ?_)
    · exact fun resource h => Or.inl (List.mem_append_left _ h)
    · exact fun resource h => Or.inl (List.mem_append_right _ h)

/-- **An operation gives members to what links can bind to and to what it asks for itself.** -/
theorem Performs.made {corpus : Corpus} {operation : Operation} {made : List Resource}
    (h : Performs corpus scope before operation made after) :
    Made corpus.index (fun resource => resource.name ∈ operation.ownNames corpus scope)
      before made after := by
  cases h with
  | resolvePhrase hResolves => exact hResolves.made.mono fun resource h => h.elim
  | followLink hFollows => exact hFollows.made.mono fun resource h => h.elim
  | enterSection hEnters =>
    refine hEnters.made.mono fun resource hResource => Or.inl ?_
    exact Option.mem_toList.mpr (Target.ofTitle?_of_resource hResource)
  | register hAdds =>
    refine hAdds.made.mono fun resource hResource => Or.inl ?_
    rw [hResource]
    exact List.mem_singleton_self _
  | compile hCompiles => exact hCompiles.made

end

/-! ### Existence -/

theorem AddsAny.exists_of_indexed {r : Registry} (hr : r.Indexed) (resource : Option Resource) :
    ∃ made after, AddsAny index r resource made after ∧ after.Indexed := by
  cases resource with
  | none => exact ⟨[], r, .none, hr⟩
  | some resource =>
    obtain ⟨id, made, after, hAdds⟩ : ∃ id made after, Adds index r resource id made after :=
      Adds.exists_of_indexed hr resource
    have hAfter := (hAdds.sound hr).1
    exact ⟨made, after, .some hAdds, hAfter ▸ hr.enter resource⟩

theorem ResolvesAny.exists_of_indexed {r : Registry} (hr : r.Indexed) (phrase : Option String) :
    ∃ made after, ResolvesAny index r phrase made after := by
  cases phrase with
  | none => exact ⟨[], r, .none⟩
  | some phrase =>
    obtain ⟨s, made, after, hResolves⟩ := Resolves.exists_of_indexed hr (Token.ofPhrase phrase)
    exact ⟨made, after, .some hResolves⟩

theorem Takes.exists_of_indexed {r : Registry} (hr : r.Indexed) (scope : Scope)
    (target : Target) : ∃ made after, Takes index scope r target made after := by
  cases hTitle : target.here.requestTitle? with
  | some title =>
    obtain ⟨first, asked, hBody, hAsked⟩ :=
      AddsAny.exists_of_indexed hr (Request.body? target title)
    obtain ⟨second, queried, hQuery, hQueried⟩ :=
      AddsAny.exists_of_indexed hAsked (Request.query? target title)
    obtain ⟨third, after, hResponse⟩ :=
      ResolvesAny.exists_of_indexed hQueried (Request.responsePhrase? target.here)
    exact ⟨_, _, .request hTitle hBody hQuery hResponse⟩
  | none =>
    cases scope with
    | everything =>
      obtain ⟨made, after, hOwn, -⟩ := AddsAny.exists_of_indexed hr target.own?
      exact ⟨_, _, .own hTitle hOwn⟩
    | linkedOnly => exact ⟨_, _, .skipped hTitle⟩

theorem Compiles.exists_of_sound {progress : Progress} (h : progress.Sound) (scope : Scope)
    (targets : List Target) :
    ∃ made after, Compiles index scope progress.registry targets made after := by
  induction targets generalizing progress with
  | nil => exact ⟨_, _, .nil⟩
  | cons target rest ih =>
    obtain ⟨first, between, hTakes⟩ := Takes.exists_of_indexed h.registry.indexed scope target
    obtain ⟨second, after, hRest⟩ := ih (h.addSection index scope target)
    rw [← hTakes.sound h] at hRest
    exact ⟨_, _, .cons hTakes hRest⟩

theorem Performs.exists_of_sound {progress : Progress} (h : progress.Sound) (corpus : Corpus)
    (scope : Scope) (operation : Operation) :
    ∃ made after, Performs corpus scope progress.registry operation made after := by
  have hIndexed := h.registry.indexed
  cases operation with
  | resolvePhrase phrase =>
    obtain ⟨s, made, after, hResolves⟩ :=
      Resolves.exists_of_indexed hIndexed (Token.ofPhrase phrase)
    exact ⟨_, _, .resolvePhrase hResolves⟩
  | followLink target =>
    obtain ⟨found, made, after, hFollows⟩ := Follows.exists_of_adds hIndexed
      (fun resource _ => Adds.exists_of_indexed hIndexed resource) target
    exact ⟨_, _, .followLink hFollows⟩
  | enterSection target =>
    cases hResource : target.resource with
    | error note => exact ⟨_, _, .enterSection (.unusable hResource)⟩
    | ok resource =>
      obtain ⟨id, made, after, hAdds⟩ := Adds.exists_of_indexed hIndexed resource
      exact ⟨_, _, .enterSection (.usable hResource hAdds)⟩
  | register resource =>
    obtain ⟨id, made, after, hAdds⟩ := Adds.exists_of_indexed hIndexed resource
    exact ⟨_, _, .register hAdds⟩
  | compile =>
    obtain ⟨made, after, hCompiles⟩ := Compiles.exists_of_sound h scope corpus.subjects
    exact ⟨_, _, .compile hCompiles⟩

/-- **After any operations, every operation ends.**  It leaves the registry that the library
computes, gives members to the structures that it registers, each once, and there are at most as
many of them as there are names left among those of indexed sections and those that the operation
asks for itself. -/
theorem Operation.ends (corpus : Corpus) (scope : Scope) (operations : List Operation)
    (operation : Operation) :
    (∃ made after,
      Performs corpus scope (corpus.perform scope operations).registry operation made after) ∧
    ∀ made after,
      Performs corpus scope (corpus.perform scope operations).registry operation made after →
      after = (operation.perform corpus scope (corpus.perform scope operations)).registry ∧
      after.names = (corpus.perform scope operations).registry.names ++ made.map Resource.name ∧
      made.length ≤ ((corpus.perform scope operations).registry.missing
        (corpus.index.titleNames ++ operation.ownNames corpus scope)).card := by
  have hSound := corpus.sound_perform scope operations
  refine ⟨Performs.exists_of_sound hSound corpus scope operation, fun made after h => ?_⟩
  have hAfter := h.sound hSound
  have hIndexed : after.Indexed := hAfter ▸ (hSound.perform operation).registry.indexed
  refine ⟨hAfter, h.made.names_eq, h.made.length_le hSound.registry.indexed hIndexed ?_⟩
  intro resource hMem
  rcases h.made.mem resource hMem with hOwn | hLinked
  · exact List.mem_append_right _ hOwn
  · exact List.mem_append_left _ (LinkIndex.name_mem_titleNames hLinked)

/-! ### Sections that are not indexed -/

/-- The names of the structures that sections outside requests define by tables of their own. -/
def Corpus.sectionNames (corpus : Corpus) : List String :=
  corpus.subjects.filterMap fun target =>
    if target.here.requestTitle? = none then target.own?.map Resource.name else none

theorem Compiles.name_mem {progress : Progress} (hSound : progress.Sound) {targets : List Target}
    {made : List Resource} {after : Registry}
    (h : Compiles index .everything progress.registry targets made after) {target : Target}
    (hMem : target ∈ targets) (hTitle : target.here.requestTitle? = none) {resource : Resource}
    (hOwn : target.own? = some resource) : resource.name ∈ after.names := by
  induction targets generalizing progress made with
  | nil => cases hMem
  | cons first rest ih =>
    cases h with
    | cons hTakes hRest =>
      have hBetween := hTakes.sound hSound
      have hSoundBetween := hSound.addSection index .everything first
      rw [hBetween] at hTakes hRest
      rcases List.mem_cons.mp hMem with rfl | hMem
      · have hHas : (progress.addSection index .everything target).registry.has resource.name := by
          cases hTakes with
          | request hRequest =>
            rw [hTitle] at hRequest
            cases hRequest
          | own _ hAdds =>
            rw [hAdds.sound hSound.registry.indexed, hOwn]
            show (progress.register index resource).registry.has resource.name
            rw [Progress.registry_register_eq_enter]
            exact Registry.has_enter _ _
        rw [hRest.made.names_eq]
        exact List.mem_append_left _ (hSoundBetween.registry.indexed.has_iff.mp hHas)
      · exact ih hSoundBetween hRest hMem

/-- **A compilation of everything registers what sections define**, whether they are indexed or
not. -/
theorem Corpus.sectionNames_subset {corpus : Corpus} {progress : Progress}
    (hSound : progress.Sound) {made : List Resource} {after : Registry}
    (h : Performs corpus .everything progress.registry .compile made after) :
    corpus.sectionNames ⊆ after.names := by
  intro name hName
  obtain ⟨target, hMem, hSome⟩ := List.mem_filterMap.mp hName
  split at hSome
  · rename_i hTitle
    obtain ⟨resource, hOwn, rfl⟩ := Option.map_eq_some_iff.mp hSome
    cases h with
    | compile hCompiles => exact hCompiles.name_mem hSound hMem hTitle hOwn
  · cases hSome

/-- A document with two sections whose titles differ in letter case alone, and which have the same
anchor for this reason. -/
def Corpus.twins : Corpus :=
  ⟨[.ofText "a.md" ("## foobar\n\n| Name | Value |\n|---|---|\n| A | 1 |\n\n" ++
    "## fooBar\n\n| Name | Value |\n|---|---|\n| B | 2 |\n")], 1⟩

theorem Corpus.sectionNames_twins : twins.sectionNames = ["Foobar", "FooBar"] := by
  decide +kernel

theorem Corpus.titleNames_twins :
    twins.index.titleNames ++ twins.subjects.flatMap (Target.ownNames .linkedOnly) =
      ["Foobar"] := by
  decide +kernel

/-- **Indexed sections and requests do not bound what a compilation registers.** -/
theorem exists_compile_beyond_index :
    ∃ made after, Performs Corpus.twins .everything Corpus.twins.start.registry .compile made after ∧
      (Corpus.twins.start.registry.missing (Corpus.twins.index.titleNames ++
        Corpus.twins.subjects.flatMap (Target.ownNames .linkedOnly))).card < made.length := by
  have hSound := Corpus.twins.sound_start
  obtain ⟨made, after, h⟩ :=
    Performs.exists_of_sound hSound Corpus.twins .everything .compile
  refine ⟨made, after, h, ?_⟩
  have hNames : after.names = made.map Resource.name := h.made.names_eq
  have hSubset : ["Foobar", "FooBar"] ⊆ made.map Resource.name := by
    rw [← hNames, ← Corpus.sectionNames_twins]
    exact Corpus.sectionNames_subset hSound h
  have hTwo : 2 ≤ made.length := by
    have hSubperm : List.Subperm ["Foobar", "FooBar"] (made.map Resource.name) :=
      List.Nodup.subperm (by decide) hSubset
    simpa using hSubperm.length_le
  rw [Corpus.titleNames_twins]
  calc (Corpus.twins.start.registry.missing ["Foobar"]).card
      ≤ ["Foobar"].toFinset.card := Finset.card_filter_le _ _
    _ ≤ 1 := List.toFinset_card_le _
    _ < made.length := hTwo

end ProseTypes
