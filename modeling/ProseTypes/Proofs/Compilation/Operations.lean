import ProseTypes.Proofs.Registry.Growth

/-!
# What operations keep

Everything that can be asked of a corpus comes down to registering resources and reading phrases.
Either step extends the registry, leaves the requests alone, keeps the registry sound and adds to it
at its end (`Progress.Grows`).  A request is added when the references in its types are bound, and they stay
bound, since a registry only grows:

* `Progress.Sound`: the registry is sound with nothing pending, and the references in the types of
  requests are bound.
* `Corpus.sound_perform`: this holds after every sequence of operations.
-/

namespace ProseTypes

variable {index : LinkIndex}

/-! ### Requests stay as they are -/

theorem Agenda.requests_run (progress : Progress) (agenda : List (Task index)) :
    (Agenda.run index progress agenda).requests = progress.requests := by
  fun_induction Agenda.run index progress agenda with
  | case1 => rfl
  | case2 progress note rest ih => exact ih
  | case3 progress linked rest hKnown ih => exact ih
  | case4 progress linked rest hNew ih => exact ih
  | case5 progress resource rest ih => exact ih

/-- A reference occurs in the type of a request's body, query or response. -/
def Request.Mentions (request : Request) (ref : StructureRef) : Prop :=
  ∃ type, (request.body = some type ∨ request.query = some type ∨ request.response = some type) ∧
    Symbol.Mentions type ref

/-- Every reference in an optional type is bound. -/
def Registry.BindsAll (registry : Registry) (type : Option Symbol) : Prop :=
  ∀ symbol, type = some symbol → ∀ ref, symbol.Mentions ref → registry.Binds ref

theorem Registry.bindsAll_none (registry : Registry) : registry.BindsAll none := by
  intro symbol h
  cases h

theorem Registry.BindsAll.extend {before after : Registry} {type : Option Symbol}
    (h : before.BindsAll type) (hExtends : Extends before after) : after.BindsAll type :=
  fun symbol hSymbol ref hRef => hExtends.binds (h symbol hSymbol ref hRef)

namespace Progress

variable (index)

/-! ### Steps that add no request -/

/-- A step extends the registry, adds no request, and keeps the registry sound, where it only adds to
it. -/
structure Grows (before after : Progress) : Prop where
  extend : Registry.Extends before.registry after.registry
  requests : after.requests = before.requests
  sound : before.registry.Sound [] → after.registry.Sound []
  append : before.registry.Sound [] → before.registry.Appends after.registry

theorem Grows.refl (progress : Progress) : Grows progress progress where
  extend := Registry.Extends.refl progress.registry
  requests := rfl
  sound h := h
  append _ := Registry.Appends.refl progress.registry

theorem grows_say (progress : Progress) (note : Note) : Grows progress (progress.say note) where
  extend := Registry.Extends.refl progress.registry
  requests := rfl
  sound h := h
  append _ := Registry.Appends.refl progress.registry

theorem grows_register (progress : Progress) (resource : Resource) :
    Grows progress (progress.register index resource) where
  extend := by
    rw [registry_register_eq_enter]
    exact Registry.extends_enter _ _
  requests := by
    unfold register
    split
    · rfl
    · exact Agenda.requests_run _ _
  sound h := by
    rw [registry_register_eq_enter]
    exact h.enter resource
  append h := by
    rw [registry_register_eq_enter]
    exact h.appends_enter resource

theorem grows_resolve (progress : Progress) (reading : Reading index) :
    Grows progress (progress.resolve index reading) where
  extend := by
    rw [registry_resolve]
    exact Registry.extends_reach _ _
  requests := Agenda.requests_run _ _
  sound h := by
    rw [registry_resolve]
    exact h.reach _
  append h := by
    rw [registry_resolve]
    exact h.appends_reach _

theorem grows_followLink (progress : Progress) (target : String) :
    Grows progress (progress.followLink index target).2 := by
  unfold followLink
  split
  · exact grows_register index progress _
  · exact grows_say progress _

theorem grows_enterSection (progress : Progress) (target : Target) :
    Grows progress (progress.enterSection index target).2 := by
  unfold enterSection
  split
  · exact grows_register index progress _
  · exact grows_say progress _

theorem grows_addOwn (progress : Progress) (target : Target) :
    Grows progress (progress.addOwn index target) := by
  unfold addOwn
  split
  · exact Grows.refl progress
  · split
    · exact grows_register index progress _
    · exact grows_say progress _

theorem grows_referAny (progress : Progress) (resource : Option Resource) :
    Grows progress (progress.referAny index resource).2 := by
  cases resource with
  | none => exact Grows.refl progress
  | some resource => exact grows_register index progress resource

theorem grows_resolveAny (progress : Progress) (phrase : Option String) :
    Grows progress (progress.resolveAny index phrase).2 := by
  cases phrase with
  | none => exact Grows.refl progress
  | some phrase => exact grows_resolve index progress _

/-! ### The types of requests -/

/-- **The reference that registering a resource gives is bound.** -/
theorem bindsAll_referAny {progress : Progress} (h : progress.registry.Sound [])
    (resource : Option Resource) :
    (progress.referAny index resource).2.registry.BindsAll
      (progress.referAny index resource).1 := by
  cases resource with
  | none => exact Registry.bindsAll_none _
  | some resource =>
    intro symbol hSymbol ref hRef
    cases hSymbol
    cases hRef
    have hAfter := (grows_register index progress resource).sound h
    refine hAfter.indexed.binds_refTo ?_
    rw [registry_register_eq_enter]
    exact Registry.has_enter _ _

/-- **The references in the symbol of a phrase are bound.** -/
theorem bindsAll_resolveAny {progress : Progress} (h : progress.registry.Sound [])
    (phrase : Option String) :
    (progress.resolveAny index phrase).2.registry.BindsAll
      (progress.resolveAny index phrase).1 := by
  cases phrase with
  | none => exact Registry.bindsAll_none _
  | some phrase =>
    intro symbol hSymbol ref hRef
    cases hSymbol
    have hAfter := (grows_resolve index progress (Reading.ofPhrase index phrase)).sound h
    refine hAfter.indexed.binds_of_mentions (fun linked hLinked => ?_) hRef
    rw [registry_resolve]
    exact Registry.has_of_mem_reach hLinked _

/-! ### Operations -/

/-- The registry is sound with nothing pending, and the references in requests are bound. -/
structure Sound (progress : Progress) : Prop where
  registry : progress.registry.Sound []
  requests : ∀ request ∈ progress.requests, ∀ ref, request.Mentions ref →
    progress.registry.Binds ref

theorem Sound.of_grows {before after : Progress} (h : before.Sound) (hGrows : Grows before after) :
    after.Sound where
  registry := hGrows.sound h.registry
  requests request hMem ref hRef := by
    rw [hGrows.requests] at hMem
    exact hGrows.extend.binds (h.requests request hMem ref hRef)

theorem Sound.add {progress : Progress} (h : progress.Sound) {request : Request}
    (hBody : progress.registry.BindsAll request.body)
    (hQuery : progress.registry.BindsAll request.query)
    (hResponse : progress.registry.BindsAll request.response) : (progress.add request).Sound where
  registry := h.registry
  requests other hMem ref hRef := by
    rcases List.mem_append.mp hMem with hMem | hMem
    · exact h.requests other hMem ref hRef
    · obtain ⟨type, hType, hRef⟩ := hRef
      rw [List.mem_singleton.mp hMem] at hType
      rcases hType with hType | hType | hType
      · exact hBody type hType ref hRef
      · exact hQuery type hType ref hRef
      · exact hResponse type hType ref hRef

/-- **A request is added with bound references**, since what its body and query register is still
there when its response has been read. -/
theorem Sound.addRequest {progress : Progress} (h : progress.Sound) (target : Target)
    (title : RequestTitle) : (progress.addRequest index target title).Sound := by
  let body := progress.referAny index (Request.body? target title)
  let query := body.2.referAny index (Request.query? target title)
  let response := query.2.resolveAny index (Request.responsePhrase? target.here)
  have hQueried : Grows body.2 query.2 := grows_referAny index body.2 _
  have hResponded : Grows query.2 response.2 := grows_resolveAny index query.2 _
  have hAfterBody : body.2.Sound := h.of_grows (grows_referAny index progress _)
  have hAfterQuery : query.2.Sound := hAfterBody.of_grows hQueried
  have hAfter : response.2.Sound := hAfterQuery.of_grows hResponded
  have hBody := bindsAll_referAny index h.registry (Request.body? target title)
  have hQuery := bindsAll_referAny index hAfterBody.registry (Request.query? target title)
  have hResponse := bindsAll_resolveAny index hAfterQuery.registry
    (Request.responsePhrase? target.here)
  refine (hAfter.of_grows (grows_say response.2 _)).add ?_ ?_ hResponse
  · exact (hBody.extend hQueried.extend).extend hResponded.extend
  · exact hQuery.extend hResponded.extend

theorem Sound.addSection {progress : Progress} (h : progress.Sound) (scope : Scope)
    (target : Target) : (progress.addSection index scope target).Sound := by
  unfold Progress.addSection
  split
  · exact h.addRequest index target _
  · exact h.of_grows (grows_addOwn index progress target)
  · exact h

end Progress

variable {corpus : Corpus} {scope : Scope}

theorem Progress.Sound.compileFrom {progress : Progress} (h : progress.Sound) :
    (corpus.compileFrom scope progress).Sound := by
  unfold Corpus.compileFrom
  generalize corpus.subjects = targets
  induction targets generalizing progress with
  | nil => exact h
  | cons target rest ih => exact ih (h.addSection _ scope target)

/-- **Every operation keeps references bound and imports exact.** -/
theorem Progress.Sound.perform {progress : Progress} (h : progress.Sound) (operation : Operation) :
    (operation.perform corpus scope progress).Sound := by
  cases operation with
  | resolvePhrase phrase => exact h.of_grows (grows_resolve _ progress _)
  | followLink target => exact h.of_grows (grows_followLink _ progress target)
  | enterSection target => exact h.of_grows (grows_enterSection _ progress target)
  | register resource => exact h.of_grows (grows_register _ progress resource)
  | compile => exact h.compileFrom

theorem Corpus.sound_start (corpus : Corpus) : corpus.start.Sound where
  registry := Registry.sound_empty
  requests _ h := by cases h

theorem Progress.Sound.foldl_perform {progress : Progress} (h : progress.Sound)
    (operations : List Operation) :
    (operations.foldl (Operation.perform corpus scope) progress).Sound := by
  induction operations generalizing progress with
  | nil => exact h
  | cons operation rest ih => exact ih (h.perform operation)

/-- **So they hold after every sequence of operations.** -/
theorem Corpus.sound_perform (corpus : Corpus) (scope : Scope) (operations : List Operation) :
    (corpus.perform scope operations).Sound :=
  corpus.sound_start.foldl_perform operations

end ProseTypes
