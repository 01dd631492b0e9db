import ProseTypes.Proofs.Registry.Sound
import ProseTypes.Proofs.Resolution.Visits

/-!
# Visits keep references bound and imports exact

A structure is completed when everything that its fields link to has been visited, so every
reference in its fields leads to a structure of the right name (`Indexed.binds_of_mentions`).  This
is what completing it has to know, so `Sound` passes through a whole registration, with the
structures that are still open as its `pending` names (`Sound.reach`, `Sound.enter`).
-/

namespace ProseTypes

variable {index : LinkIndex} {registry : Registry} {pending : List String}

namespace Registry

/-- **The symbol of a reading whose links are all registered mentions bound references only.** -/
theorem Indexed.binds_of_mentions (h : registry.Indexed) {reading : Reading index}
    (hLinks : ∀ linked ∈ reading.links, registry.has linked.1.name) {ref : StructureRef}
    (hRef : Symbol.Mentions (registry.symbol reading) ref) : registry.Binds ref := by
  obtain ⟨linked, hLinked, rfl⟩ := exists_link_of_mentions hRef
  exact h.binds_refTo (hLinks linked hLinked)

theorem exists_field_of_mentions {draft : Body (Reading index)} {ref : StructureRef}
    (hRef : (draft.map registry.symbol).Mentions ref) :
    ∃ field ∈ draft.fields, Symbol.Mentions (registry.symbol field.type) ref := by
  obtain ⟨field, hField, hRef⟩ := hRef
  cases draft with
  | interface fields =>
    obtain ⟨source, hSource, rfl⟩ := List.mem_map.mp hField
    exact ⟨source, hSource, hRef⟩
  | enumeration constants => cases hField

theorem Sound.completeAs {resource : Resource}
    (hLinks : ∀ linked ∈ resource.links index, registry.has linked.1.name)
    (h : registry.Sound (resource.name :: pending)) :
    (registry.completeAs index resource).Sound pending := by
  refine h.complete fun ref hRef => ?_
  obtain ⟨field, hField, hRef⟩ := exists_field_of_mentions hRef
  refine h.indexed.binds_of_mentions (fun linked hLinked => hLinks linked ?_) hRef
  exact List.mem_flatMap.mpr ⟨field, hField, hLinked⟩

/-- **Visits keep references bound and imports exact.** -/
theorem Sound.reach (h : registry.Sound pending) (links : List index.Linked) :
    (registry.reach index links).Sound pending :=
  reach_pending_induction (P := Sound) (fun _ _ _ hNew h => h.declare hNew)
    (fun _ _ _ hLinks h => h.completeAs hLinks) links h

/-- **So does registering a resource with all that it links to.** -/
theorem Sound.enter (h : registry.Sound pending) (resource : Resource) :
    (registry.enter index resource).Sound pending :=
  enter_pending_induction (P := Sound) (fun _ _ _ hNew h => h.declare hNew)
    (fun _ _ _ hLinks h => h.completeAs hLinks) resource h

end Registry

end ProseTypes
