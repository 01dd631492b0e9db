import ProseTypes.Proofs.Compilation.Sections
import ProseTypes.Proofs.Resolution.Records

/-!
# Where structures come from

A compilation of everything asks for the resources of the sections that it walks, and follows links
from them and from the responses of requests.  `Corpus.Reaches` says which resources it can get to.

* `Corpus.exists_records_compile`: the structures stand for resources that can be reached, one by one
  and in the order in which these were declared.
* `Corpus.has_compile`: where no two resources that can be reached have the same name, each of them is
  registered in the end.
-/

namespace ProseTypes

/-! ### Resources that can be reached -/

namespace Corpus

/-- A compilation asks for a resource by itself. -/
def Asks (corpus : Corpus) (resource : Resource) : Prop :=
  ∃ target ∈ corpus.subjects, resource ∈ target.asked

/-- A link leads a compilation to a resource. -/
inductive Leads (corpus : Corpus) : Resource → Prop where
  | response {target phrase linked} : target ∈ corpus.subjects →
      target.responsePhrase? = some phrase →
      linked ∈ (Reading.ofPhrase corpus.index phrase).links → Leads corpus linked.1
  | asked {resource other} : corpus.Asks resource → resource.LinksTo corpus.index other →
      Leads corpus other
  | linked {resource other} : Leads corpus resource → resource.LinksTo corpus.index other →
      Leads corpus other

/-- A compilation gets to a resource. -/
def Reaches (corpus : Corpus) (resource : Resource) : Prop :=
  corpus.Asks resource ∨ corpus.Leads resource

/-- The resources that a compilation gets to have different names. -/
def Unambiguous (corpus : Corpus) : Prop :=
  ∀ a b, corpus.Reaches a → corpus.Reaches b → a.name = b.name → a = b

variable {corpus : Corpus}

theorem Reaches.linked {resource other : Resource} (h : corpus.Reaches resource)
    (hLinks : resource.LinksTo corpus.index other) : corpus.Reaches other := by
  rcases h with h | h
  · exact Or.inr (.asked h hLinks)
  · exact Or.inr (.linked h hLinks)

theorem Leads.mem_resources {resource : Resource} (h : corpus.Leads resource) :
    resource ∈ corpus.index.resources := by
  cases h with
  | response _ _ _ => exact Subtype.property _
  | asked _ hLinks =>
    obtain ⟨linked, -, rfl⟩ := hLinks
    exact linked.2
  | linked _ hLinks =>
    obtain ⟨linked, -, rfl⟩ := hLinks
    exact linked.2

end Corpus

/-! ### Compiling -/

/-- Every registered structure stands for a resource of some kind. -/
structure Registry.Realizes (registry : Registry) (index : LinkIndex) (Q : Resource → Prop)
    (pending : List String) : Prop where
  indexed : registry.Indexed
  stands : ∀ {id s}, registry.structure? id = some s →
    ∃ resource, Q resource ∧ registry.Stands index pending s resource

namespace Corpus

variable {corpus : Corpus}

/-- **The structures of a compilation stand for resources that it gets to**, one by one and in the
order in which these were declared. -/
theorem exists_records_compile (corpus : Corpus) (scope : Scope) :
    ∃ made, (∀ resource ∈ made, corpus.Reaches resource) ∧
      (corpus.compile scope).registry.Records corpus.index [] made := by
  let P (r : Registry) : Prop :=
    ∃ made, (∀ resource ∈ made, corpus.Reaches resource) ∧ r.Records corpus.index [] made
  have hLinked (resource : Resource) (linked : corpus.index.Linked) (hr : corpus.Reaches resource)
      (hMem : linked ∈ resource.links corpus.index) : corpus.Reaches linked.1 :=
    hr.linked ⟨linked, hMem, rfl⟩
  refine compile_induction (P := P) scope ?_ ?_ ⟨[], ?_, Registry.records_empty⟩
  · rintro r target hTarget resource hAsked ⟨made, hMade, hr⟩
    have hReaches : corpus.Reaches resource := Or.inl ⟨target, hTarget, hAsked⟩
    by_cases hKnown : r.has resource.name
    · rw [Registry.enter_of_has hKnown]
      exact ⟨made, hMade, hr⟩
    · obtain ⟨more, hMore, hAfter⟩ :=
        hr.exists_enter hLinked hKnown fun linked => hLinked resource linked hReaches
      refine ⟨_, fun other hOther => ?_, hAfter⟩
      rcases List.mem_append.mp hOther with hOld | hNew
      · exact hMade other hOld
      · rcases List.mem_cons.mp hNew with rfl | hNew
        · exact hReaches
        · exact hMore other hNew
  · rintro r target hTarget ⟨made, hMade, hr⟩
    have hLinks (linked : corpus.index.Linked) (hMem : linked ∈ target.responseLinks corpus.index) :
        corpus.Reaches linked.1 := by
      obtain ⟨phrase, hPhrase, hMem⟩ := List.mem_flatMap.mp hMem
      exact Or.inr (.response hTarget (Option.mem_toList.mp hPhrase) hMem)
    obtain ⟨more, hMore, hAfter⟩ := hr.exists_reach hLinked hLinks
    refine ⟨_, fun other hOther => ?_, hAfter⟩
    rcases List.mem_append.mp hOther with hOld | hNew
    · exact hMade other hOld
    · exact hMore other hNew
  · intro resource hNone
    cases hNone

theorem realizes_compile (corpus : Corpus) (scope : Scope) :
    (corpus.compile scope).registry.Realizes corpus.index corpus.Reaches [] := by
  obtain ⟨made, hMade, hRecords⟩ := corpus.exists_records_compile scope
  refine ⟨hRecords.indexed, fun hs => ?_⟩
  obtain ⟨resource, hResource⟩ := hRecords.exists_resource hs
  exact ⟨resource, hMade resource (List.mem_of_getElem? hResource), hRecords.stands hs hResource⟩

theorem has_compile_of_asks {resource : Resource} (h : corpus.Asks resource) :
    (corpus.compile .everything).registry.has resource.name := by
  obtain ⟨target, hTarget, hAsked⟩ := h
  rw [registry_compile]
  exact Registry.has_serveAll_of_asked _ hAsked hTarget

/-- What is linked to from a resource that is reached and registered is registered: the structure of
this name stands for the resource, and it is completed. -/
theorem has_compile_of_linksTo (hUnique : corpus.Unambiguous) {resource other : Resource}
    (hReaches : corpus.Reaches resource)
    (hHas : (corpus.compile .everything).registry.has resource.name)
    (hLinks : resource.LinksTo corpus.index other) :
    (corpus.compile .everything).registry.has other.name := by
  have hRealizes := corpus.realizes_compile .everything
  obtain ⟨id, hId⟩ := Option.isSome_iff_exists.mp hHas
  obtain ⟨s, hs, hName⟩ := hRealizes.indexed.idOf?_iff.mp hId
  obtain ⟨source, hSource, hStands⟩ := hRealizes.stands hs
  obtain rfl : source = resource :=
    hUnique source resource hSource hReaches (hStands.name.symm.trans hName)
  exact hStands.links List.not_mem_nil other hLinks

/-- **Every resource that a compilation gets to is registered in the end.** -/
theorem has_compile (hUnique : corpus.Unambiguous) {resource : Resource}
    (h : corpus.Reaches resource) : (corpus.compile .everything).registry.has resource.name := by
  rcases h with hAsks | hLeads
  · exact has_compile_of_asks hAsks
  · induction hLeads with
    | response hTarget hPhrase hLinked =>
      rw [registry_compile]
      exact Registry.has_serveAll_of_response _
        (List.mem_flatMap.mpr ⟨_, Option.mem_toList.mpr hPhrase, hLinked⟩) hTarget
    | asked hAsks hLinks =>
      exact has_compile_of_linksTo hUnique (Or.inl hAsks) (has_compile_of_asks hAsks) hLinks
    | linked hBefore hLinks ih => exact has_compile_of_linksTo hUnique (Or.inr hBefore) ih hLinks

end Corpus

end ProseTypes
