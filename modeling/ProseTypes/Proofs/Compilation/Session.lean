import ProseTypes.Proofs.Compilation.Operations

/-!
# Operations one after the other

What has been asked of a corpus is never undone by what is asked later.

* `Corpus.appendOnly_perform`: an operation puts structures, modules and requests behind those that
  are there, and leaves these as they are.  A name that is registered keeps its structure, and a link or
  a section that leads nowhere changes nothing.
* `Corpus.resolvePhrase_again`: so a phrase that has been resolved once is resolved to the same symbol
  ever after, and changes nothing then.
-/

namespace ProseTypes

variable {index : LinkIndex} {corpus : Corpus} {scope : Scope}

/-! ### Known resources -/

namespace Registry

/-- **Visits to resources whose names are registered change nothing.** -/
theorem reach_of_has {registry : Registry} {links : List index.Linked}
    (h : ∀ linked ∈ links, registry.has linked.1.name) : registry.reach index links = registry := by
  induction links with
  | nil => exact reach_nil registry
  | cons first rest ih =>
    rw [reach_cons, enter_of_has (h first List.mem_cons_self)]
    exact ih fun linked hMem => h linked (List.mem_cons_of_mem first hMem)

theorem Appends.extends {before after : Registry} (h : Appends before after)
    (hBefore : before.Indexed) (hAfter : after.Indexed) : Extends before after := by
  have hKept {id : Nat} {s : Structure} (hs : before.structure? id = some s) :
      after.structure? id = some s := by
    obtain ⟨hLt, rfl⟩ := List.getElem?_eq_some_iff.mp hs
    exact List.prefix_iff_getElem?.mp h.structures id hLt
  constructor
  · intro name id hId
    obtain ⟨s, hs, hName⟩ := hBefore.idOf?_iff.mp hId
    exact hAfter.idOf?_iff.mpr ⟨s, hKept hs, hName⟩
  · intro id s hs
    exact ⟨s.body, hKept hs⟩

end Registry

namespace Progress

/-! ### Operations add at the end -/

/-- Structures, modules and requests stay as they are, and what is new stands behind them. -/
structure Appends (before after : Progress) : Prop where
  registry : before.registry.Appends after.registry
  requests : before.requests <+: after.requests

structure Unchanged (before after : Progress) : Prop where
  registry : after.registry = before.registry
  requests : after.requests = before.requests

theorem Appends.refl (progress : Progress) : Appends progress progress where
  registry := Registry.Appends.refl progress.registry
  requests := List.prefix_refl progress.requests

theorem Appends.trans {a b c : Progress} (hab : Appends a b) (hbc : Appends b c) : Appends a c where
  registry := hab.registry.trans hbc.registry
  requests := hab.requests.trans hbc.requests

theorem unchanged_say (progress : Progress) (note : Note) : progress.Unchanged (progress.say note) :=
  ⟨rfl, rfl⟩

theorem Sound.appends_of_grows {before after : Progress} (h : before.Sound)
    (hGrows : Grows before after) : Appends before after where
  registry := hGrows.append h.registry
  requests := hGrows.requests ▸ List.prefix_refl before.requests

theorem Sound.appends_addRequest {progress : Progress} (h : progress.Sound) (target : Target)
    (title : RequestTitle) : progress.Appends (progress.addRequest index target title) := by
  let body := progress.referAny index (Request.body? target title)
  let query := body.2.referAny index (Request.query? target title)
  let response := query.2.resolveAny index (Request.responsePhrase? target.here)
  have hBody : Grows progress body.2 := grows_referAny index progress _
  have hQuery : Grows body.2 query.2 := grows_referAny index body.2 _
  have hResponse : Grows query.2 response.2 := grows_resolveAny index query.2 _
  have hAfterBody := h.of_grows hBody
  have hBefore : progress.Appends response.2 :=
    ((h.appends_of_grows hBody).trans (hAfterBody.appends_of_grows hQuery)).trans
      ((hAfterBody.of_grows hQuery).appends_of_grows hResponse)
  exact hBefore.trans ⟨Registry.Appends.refl _, List.prefix_append _ _⟩

theorem Sound.appends_addSection {progress : Progress} (h : progress.Sound) (scope : Scope)
    (target : Target) : progress.Appends (progress.addSection index scope target) := by
  unfold Progress.addSection
  split
  · exact h.appends_addRequest target _
  · exact h.appends_of_grows (grows_addOwn index progress target)
  · exact Appends.refl progress

theorem Sound.appends_compileFrom {progress : Progress} (h : progress.Sound) :
    progress.Appends (corpus.compileFrom scope progress) := by
  unfold Corpus.compileFrom
  generalize corpus.subjects = targets
  induction targets generalizing progress with
  | nil => exact Appends.refl progress
  | cons target rest ih =>
    exact (h.appends_addSection scope target).trans (ih (h.addSection _ scope target))

/-- **Every operation leaves everything as it is and adds at the end.** -/
theorem Sound.appends_perform {progress : Progress} (h : progress.Sound) (operation : Operation) :
    progress.Appends (operation.perform corpus scope progress) := by
  cases operation with
  | resolvePhrase phrase => exact h.appends_of_grows (grows_resolve _ progress _)
  | followLink target => exact h.appends_of_grows (grows_followLink _ progress target)
  | enterSection target => exact h.appends_of_grows (grows_enterSection _ progress target)
  | register resource => exact h.appends_of_grows (grows_register _ progress resource)
  | compile => exact h.appends_compileFrom

/-- **So does every sequence of operations.** -/
theorem Sound.appends_foldl_perform {progress : Progress} (h : progress.Sound)
    (operations : List Operation) :
    progress.Appends (operations.foldl (Operation.perform corpus scope) progress) := by
  induction operations generalizing progress with
  | nil => exact Appends.refl progress
  | cons operation rest ih => exact (h.appends_perform operation).trans (ih (h.perform operation))

/-! ### Operations that change nothing -/

/-- **Registering a known name gives its structure and changes nothing.** -/
theorem Sound.refer_of_known {progress : Progress} (h : progress.Sound) {s : Structure}
    (hs : s ∈ progress.registry.structures) {resource : Resource} (hName : resource.name = s.name) :
    (progress.refer index resource).1 = s.ref ∧
      progress.Unchanged (progress.refer index resource).2 := by
  obtain ⟨id, hs⟩ := List.mem_iff_getElem?.mp hs
  have hId : progress.registry.idOf? resource.name = some id :=
    h.registry.indexed.idOf?_iff.mpr ⟨s, hs, hName.symm⟩
  have hKnown : progress.registry.has resource.name := by
    rw [Registry.has, hId]
    rfl
  have hRegister : progress.register index resource =
      progress.say (.alreadyRegistered resource.name) := by
    rw [register, if_pos hKnown]
  have hRef : progress.registry.ref? resource.name = some ⟨id, s.name⟩ := by
    rw [Registry.ref?, hId, Option.bind_some]
    exact congrArg (Option.map _) hs
  rw [refer, hRegister]
  refine ⟨?_, unchanged_say progress _⟩
  show progress.registry.refTo resource.name = s.ref
  rw [Registry.refTo, hRef, Structure.ref, h.registry.indexed.id_eq hs]
  rfl

theorem unchanged_followLink {progress : Progress} {target : String}
    (hNone : (progress.followLink index target).1 = none) :
    progress.Unchanged (progress.followLink index target).2 := by
  unfold followLink at hNone ⊢
  split at hNone
  · cases hNone
  · exact unchanged_say progress _

theorem unchanged_enterSection {progress : Progress} {target : Target}
    (hNone : (progress.enterSection index target).1 = none) :
    progress.Unchanged (progress.enterSection index target).2 := by
  unfold enterSection at hNone ⊢
  split at hNone
  · cases hNone
  · exact unchanged_say progress _

/-- Whatever is asked next only adds.  A registered name gets nothing new, whatever is registered
under it, and what has no structure leaves everything as it is. -/
structure AppendOnly (corpus : Corpus) (scope : Scope) (progress : Progress) : Prop where
  appends : ∀ operation : Operation, progress.Appends (operation.perform corpus scope progress)
  first_wins : ∀ s ∈ progress.registry.structures, ∀ resource : Resource, resource.name = s.name →
    (progress.refer corpus.index resource).1 = s.ref ∧
      progress.Unchanged (progress.refer corpus.index resource).2
  no_link : ∀ target, (progress.followLink corpus.index target).1 = none →
    progress.Unchanged (progress.followLink corpus.index target).2
  no_structure : ∀ target, (progress.enterSection corpus.index target).1 = none →
    progress.Unchanged (progress.enterSection corpus.index target).2

/-! ### Phrases that have been resolved -/

/-- **A phrase that has been resolved is resolved to the same symbol when more is registered**, and
registers nothing then, since all its links are known. -/
theorem Sound.resolvePhrase_of_appends {progress later : Progress} (h : progress.Sound)
    (hLater : later.Sound) {phrase : String}
    (hAppends : (progress.resolvePhrase index phrase).2.Appends later) :
    (later.resolvePhrase index phrase).1 = (progress.resolvePhrase index phrase).1 ∧
      later.Unchanged (later.resolvePhrase index phrase).2 := by
  let reading := Reading.ofPhrase index phrase
  let first := progress.resolve index reading
  have hFirst : first.Sound := h.of_grows (grows_resolve index progress reading)
  have hExtends : Registry.Extends first.registry later.registry :=
    hAppends.registry.extends hFirst.registry.indexed hLater.registry.indexed
  have hKnown (linked : index.Linked) (hLinked : linked ∈ reading.links) :
      first.registry.has linked.1.name := by
    rw [registry_resolve]
    exact Registry.has_of_mem_reach hLinked _
  have hSame : (later.resolve index reading).registry = later.registry := by
    rw [registry_resolve]
    exact Registry.reach_of_has fun linked hLinked => hExtends.has (hKnown linked hLinked)
  refine ⟨?_, hSame, (grows_resolve index later reading).requests⟩
  show (later.resolve index reading).registry.symbol reading = first.registry.symbol reading
  rw [hSame]
  exact hExtends.symbol fun linked hLinked =>
    hFirst.registry.indexed.isSome_ref? (hKnown linked hLinked)

end Progress

/-! ### After any operations -/

/-- **Whatever has been asked of a corpus, the next operation only adds**, and the first registration
of a name is the one that counts. -/
theorem Corpus.appendOnly_perform (corpus : Corpus) (scope : Scope) (operations : List Operation) :
    (corpus.perform scope operations).AppendOnly corpus scope := by
  have hSound := corpus.sound_perform scope operations
  constructor
  · exact hSound.appends_perform
  · exact fun s hs resource hName => hSound.refer_of_known hs hName
  · exact fun target hNone => Progress.unchanged_followLink hNone
  · exact fun target hNone => Progress.unchanged_enterSection hNone

/-- **Resolving a phrase again gives the same symbol and changes nothing**, whatever has been asked in
between. -/
theorem Corpus.resolvePhrase_again (corpus : Corpus) (scope : Scope)
    (before between : List Operation) (phrase : String) :
    ((corpus.perform scope (before ++ .resolvePhrase phrase :: between)).resolvePhrase corpus.index
      phrase).1 = ((corpus.perform scope before).resolvePhrase corpus.index phrase).1 ∧
    (corpus.perform scope (before ++ .resolvePhrase phrase :: between)).Unchanged
      ((corpus.perform scope (before ++ .resolvePhrase phrase :: between)).resolvePhrase corpus.index
        phrase).2 := by
  have hBefore := corpus.sound_perform scope before
  have hLater := corpus.sound_perform scope (before ++ .resolvePhrase phrase :: between)
  refine hBefore.resolvePhrase_of_appends hLater ?_
  have hFirst : ((corpus.perform scope before).resolvePhrase corpus.index phrase).2.Sound :=
    hBefore.of_grows (Progress.grows_resolve _ _ _)
  have hSplit : corpus.perform scope (before ++ .resolvePhrase phrase :: between) =
      between.foldl (Operation.perform corpus scope)
        ((corpus.perform scope before).resolvePhrase corpus.index phrase).2 := by
    rw [perform, List.foldl_append, List.foldl_cons]
    rfl
  rw [hSplit]
  exact hFirst.appends_foldl_perform between

end ProseTypes
