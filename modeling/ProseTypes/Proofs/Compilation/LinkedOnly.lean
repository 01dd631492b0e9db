import Mathlib.Order.Bounds.Defs
import ProseTypes.Proofs.Compilation.Sections
import ProseTypes.Proofs.Resolution.References

/-!
# Structures that requests lead to

Where only linked structures are wanted, a compilation registers what its requests need.  Each of the
three types of a request mentions everything that registering it brings (`Progress.Yields`), so every
structure can be reached along references from a request (`Progress.Rooted`).  Conversely all
references lead to registered structures.  So the registered structures are the least set that holds
what requests mention and what its own members mention (`Corpus.isLeast_compile`).
-/

namespace ProseTypes

open Relation (ReflTransGen)

variable {index : LinkIndex}

namespace Progress

/-! ### The types of a request -/

/-- A step gives a type, if any, that mentions everything the step brings. -/
structure Yields (before : Registry) (answer : Option Symbol × Progress) (names : List String) :
    Prop where
  brings : Registry.Brings before answer.2.registry names
  mentioned : ∀ name ∈ names, ∃ symbol, answer.1 = some symbol ∧
    Symbol.Mentions symbol (answer.2.registry.refTo name)

theorem yields_referAny {progress : Progress} (h : progress.registry.Sound [])
    (resource : Option Resource) : Yields progress.registry (progress.referAny index resource)
      (resource.toList.map Resource.name) := by
  cases resource with
  | none => exact ⟨Registry.Brings.refl _, fun _ hMem => by cases hMem⟩
  | some resource =>
    refine ⟨?_, ?_⟩
    · show Registry.Brings _ (progress.register index resource).registry [resource.name]
      rw [registry_register_eq_enter]
      exact h.brings_enter resource
    · intro name hMem
      rw [List.mem_singleton.mp hMem]
      exact ⟨_, rfl, .leaf⟩

theorem yields_resolveAny {progress : Progress} (h : progress.registry.Sound [])
    (phrase : Option String) : Yields progress.registry (progress.resolveAny index phrase)
      (phrase.toList.flatMap fun phrase =>
        (Reading.ofPhrase index phrase).links.map fun linked => linked.1.name) := by
  cases phrase with
  | none => exact ⟨Registry.Brings.refl _, fun _ hMem => by cases hMem⟩
  | some phrase =>
    rw [Option.toList_some, List.flatMap_singleton]
    refine ⟨?_, ?_⟩
    · show Registry.Brings _ (progress.resolve index (Reading.ofPhrase index phrase)).registry _
      rw [registry_resolve]
      exact h.brings_reach _
    · intro name hMem
      obtain ⟨linked, hLinked, rfl⟩ := List.mem_map.mp hMem
      exact ⟨_, rfl, Registry.mentions_of_mem_links hLinked⟩

theorem Yields.extend {before after : Registry} {answer : Option Symbol × Progress}
    {names : List String} (h : Yields before answer names) (hAnswer : answer.2.registry.Indexed)
    (hExtends : Registry.Extends answer.2.registry after) {name : String} (hName : name ∈ names) :
    ∃ symbol, answer.1 = some symbol ∧ Symbol.Mentions symbol (after.refTo name) := by
  obtain ⟨symbol, hSymbol, hMentions⟩ := h.mentioned name hName
  refine ⟨symbol, hSymbol, ?_⟩
  rw [hExtends.refTo (hAnswer.isSome_ref? (h.brings.has name hName))]
  exact hMentions

/-! ### Requests as roots -/

/-- Every structure can be reached along references from the types of a request. -/
def Rooted (progress : Progress) : Prop :=
  ∀ (id : Nat) (t : Structure), progress.registry.structure? id = some t →
    ∃ request ∈ progress.requests, ∃ ref, request.Mentions ref ∧
      ReflTransGen progress.registry.Refers ref.id id

/-- **Adding a request keeps every structure reachable from requests.** -/
theorem Rooted.addRequest {progress : Progress} (h : progress.Rooted) (hSound : progress.Sound)
    (target : Target) (title : RequestTitle) : (progress.addRequest index target title).Rooted := by
  let body := progress.referAny index (Request.body? target title)
  let query := body.2.referAny index (Request.query? target title)
  let response := query.2.resolveAny index (Request.responsePhrase? target.here)
  have hBodyGrows : Grows progress body.2 := grows_referAny index progress _
  have hQueryGrows : Grows body.2 query.2 := grows_referAny index body.2 _
  have hResponseGrows : Grows query.2 response.2 := grows_resolveAny index query.2 _
  have hBodySound := hBodyGrows.sound hSound.registry
  have hQuerySound := hQueryGrows.sound hBodySound
  have hBody : Yields progress.registry body _ :=
    yields_referAny hSound.registry (Request.body? target title)
  have hQuery : Yields body.2.registry query _ :=
    yields_referAny hBodySound (Request.query? target title)
  have hResponse : Yields query.2.registry response _ :=
    yields_resolveAny hQuerySound (Request.responsePhrase? target.here)
  have hBrings := (hBody.brings.trans hQuery.brings hBodySound.indexed).trans hResponse.brings
    hQuerySound.indexed
  have hRequests : response.2.requests = progress.requests := by
    rw [hResponseGrows.requests, hQueryGrows.requests, hBodyGrows.requests]
  intro id t ht
  show ∃ request ∈ response.2.requests ++ [⟨title, target.anchor, body.1, query.1, response.1⟩],
    ∃ ref, request.Mentions ref ∧ ReflTransGen response.2.registry.Refers ref.id id
  rw [hRequests]
  rcases hBrings.reached ht with ⟨s, hs⟩ | ⟨name, hName, hPath⟩
  · obtain ⟨request, hRequest, ref, hRef, hPath⟩ := h id s hs
    refine ⟨request, List.mem_append_left _ hRequest, ref, hRef, ?_⟩
    exact ReflTransGen.mono (fun _ _ => hBrings.refers) _ _ hPath
  · refine ⟨_, List.mem_append_right _ (List.mem_singleton_self _), _, ?_, hPath⟩
    rcases List.mem_append.mp hName with hName | hName
    · rcases List.mem_append.mp hName with hName | hName
      · obtain ⟨symbol, hSymbol, hMentions⟩ := hBody.extend hBodySound.indexed
          (hQueryGrows.extend.trans hResponseGrows.extend) hName
        exact ⟨symbol, Or.inl hSymbol, hMentions⟩
      · obtain ⟨symbol, hSymbol, hMentions⟩ :=
          hQuery.extend hQuerySound.indexed hResponseGrows.extend hName
        exact ⟨symbol, Or.inr (Or.inl hSymbol), hMentions⟩
    · obtain ⟨symbol, hSymbol, hMentions⟩ := hResponse.mentioned name hName
      exact ⟨symbol, Or.inr (Or.inr hSymbol), hMentions⟩

/-- Only requests add something where only linked structures are wanted. -/
theorem Rooted.addSection {progress : Progress} (h : progress.Rooted) (hSound : progress.Sound)
    (target : Target) : (progress.addSection index .linkedOnly target).Rooted := by
  unfold Progress.addSection
  cases target.here.requestTitle? with
  | some title => exact h.addRequest hSound target title
  | none => exact h

/-! ### Sets that are closed under references -/

/-- A set of identifiers holds what the types of requests mention, and what the fields of its own
structures mention. -/
structure Closed (progress : Progress) (ids : Set Nat) : Prop where
  request : ∀ request ∈ progress.requests, ∀ ref, request.Mentions ref → ref.id ∈ ids
  field : ∀ id ∈ ids, ∀ s, progress.registry.structure? id = some s →
    ∀ ref, s.Mentions ref → ref.id ∈ ids

theorem Closed.mem_of_path {progress : Progress} {ids : Set Nat} (h : progress.Closed ids) {a b : Nat}
    (ha : a ∈ ids) (hPath : ReflTransGen progress.registry.Refers a b) : b ∈ ids := by
  induction hPath with
  | refl => exact ha
  | tail _ hStep ih =>
    obtain ⟨s, hs, ref, hRef, rfl⟩ := hStep
    exact h.field _ ih s hs ref hRef

end Progress

namespace Corpus

theorem rooted_compile (corpus : Corpus) : (corpus.compile .linkedOnly).Rooted := by
  have hAll (targets : List Target) (progress : Progress) (h : progress.Rooted)
      (hSound : progress.Sound) : (targets.foldl (fun progress target =>
        progress.addSection corpus.index .linkedOnly target) progress).Rooted := by
    induction targets generalizing progress with
    | nil => exact h
    | cons first rest ih =>
      exact ih _ (h.addSection hSound first) (hSound.addSection corpus.index .linkedOnly first)
  have hStart : corpus.start.Rooted := by
    intro id t ht
    simp [start, Progress.start, Registry.structure?, Registry.empty] at ht
  exact hAll corpus.subjects corpus.start hStart corpus.sound_start

/-- **Where only linked structures are wanted, exactly what requests lead to is registered**: the
registered identifiers are the least set that holds what the types of requests mention and what the
fields of its own structures mention. -/
theorem isLeast_compile (corpus : Corpus) :
    IsLeast {ids : Set Nat | (corpus.compile .linkedOnly).Closed ids}
      {id | ((corpus.compile .linkedOnly).registry.structure? id).isSome} := by
  have hSound : (corpus.compile .linkedOnly).Sound := corpus.sound_start.compileFrom
  have hBound {ref : StructureRef} (h : (corpus.compile .linkedOnly).registry.Binds ref) :
      ((corpus.compile .linkedOnly).registry.structure? ref.id).isSome := by
    obtain ⟨s, hs, -⟩ := h
    rw [hs]
    rfl
  constructor
  · constructor
    · intro request hRequest ref hRef
      exact hBound (hSound.requests request hRequest ref hRef)
    · intro id _ s hs ref hRef
      exact hBound (hSound.registry.binds hs hRef)
  · intro ids hClosed id hId
    obtain ⟨t, ht⟩ := Option.isSome_iff_exists.mp hId
    obtain ⟨request, hRequest, ref, hRef, hPath⟩ := corpus.rooted_compile id t ht
    exact hClosed.mem_of_path (hClosed.request request hRequest ref hRef) hPath

end Corpus

end ProseTypes
